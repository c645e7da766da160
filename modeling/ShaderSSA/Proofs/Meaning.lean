import ShaderSSA.Proofs.Opcodes

/-!
Lowering keeps the meaning of integer and boolean values: executing what `evaluate` emits leaves in the value
that it gives the words of the source value.
-/

namespace ShaderSSA.Lowering
open Source Target Lower

variable {env : Env} {source : Source.Program} {seen : List Source.VarId} {contents : Contents} {memory : Memory}
  {q : Target.Program} {s u t : State} {args : List Operand} {base : BaseType} {data picked : List Datum} {i : Nat}
  {lanes : Lanes} {op : ExprOp} {type : ShaderType} {types : List ShaderType} {v w : ValueId} {width : UInt8}
  {scalars : List Scalar} {values : List ValueId}

/-! ### Operators -/

theorem compute_emits (native : u.scope.nativeIntegers = true) (is : type.baseType? = some base)
    (shaped : ∀ a ∈ args, ∃ d, u.program.value? a.1 = some d ∧ d.width.toNat = a.2.length)
    (run : Runs (compute op type types (args.map Prod.fst)) u v t) :
    ∃ opcode, (choiceOf base types).opcode op = .ok opcode ∧
      Runs (emitValue (.alu opcode (srcsFor op args)) type.rows (valueBits true type)) u v t := by
  obtain ⟨output, opcode, values, srcs, isOutput, chosen, inOrder, taken, run⟩ := compute_ok run
  obtain rfl := Option.some.inj (is.symm.trans isOutput)
  rw [native] at chosen run
  refine ⟨opcode, chosen, ?_⟩
  obtain rfl := orderOperands_exchanged inOrder
  rw [← exchanged_map] at taken
  obtain ⟨rfl, rfl⟩ | ⟨other, spreads⟩ := taken
  · have plain : exchanged .vector args = args := by
      rcases args with _ | ⟨a, _ | ⟨b, rest⟩⟩ <;> rfl
    rw [plain, List.map_map] at run
    exact run
  · rw [srcsFor, if_neg other]
    refine srcs_of_spreads spreads (fun a member d found => ?_) ▸ run
    obtain ⟨d', there, width⟩ := shaped a (mem_exchanged member)
    obtain rfl := Option.some.inj (found.symm.trans there)
    rw [Operand.src, ← width, UInt8.ofNat_toNat]

theorem compute_extends (run : Runs (compute op type types values) u v t) : u.program.Extends t.program := by
  obtain ⟨_, _, _, _, -, -, -, -, run⟩ := compute_ok run
  obtain ⟨-, rfl, -⟩ := emitValue_ok run
  exact (emits_value ..).keeps

theorem compute_computes (before : s.program.Extends u.program)
    (computed : Computes q memory s u (args.map Operand.words)) (native : u.scope.nativeIntegers = true)
    (words : type.isWords = true) (inputs : ∀ operand ∈ types, operand.isWords = true)
    (accepted : accepts op type types = true) (spans : List.Forall₂ Spans types (args.map Prod.snd))
    (run : Runs (compute op type types (args.map Prod.fst)) u v t) (kept : t.program.Extends q) (fits : q.Fits)
    (value : combine op type.rows.toNat (args.map Prod.snd) = some data) :
    Computes q memory s t [(v, data.map Datum.word)] := by
  have shaped : ∀ a ∈ args, ∃ d, u.program.value? a.1 = some d ∧ d.width.toNat = a.2.length := by
    intro a member
    obtain ⟨d, found, width⟩ := computed.shaped a.words (List.mem_map_of_mem member)
    exact ⟨d, found, by simpa [Operand.words] using width⟩
  have small : ∀ a ∈ args, a.2.length ≤ 4 := by
    intro a member
    obtain ⟨operand, among, span⟩ := spans_mem spans (List.mem_map_of_mem member)
    obtain ⟨base, rows, rfl, -, -, high⟩ := ShaderType.isWords_iff.mp (inputs operand among)
    rw [span.length]
    exact UInt8.le_iff_toNat_le.mp high
  obtain ⟨output, is, good⟩ := combine_typed words accepted spans
  obtain rfl := Option.some.inj (value.symm.trans is)
  obtain ⟨base, rows, isType, -, low, high⟩ := ShaderType.isWords_iff.mp words
  obtain ⟨opcode, chosen, emitted⟩ := compute_emits native (by rw [isType]; rfl) shaped run
  refine computed.emit before emitted kept fits (by rw [List.length_map, good.length]) fun regs held => ?_
  have holds : ∀ a ∈ args, regs a.1 = a.2.map Datum.word := fun a member => held a.words (List.mem_map_of_mem member)
  rw [Program.perform]
  obtain ⟨rfl, two, length, scalars⟩ | ⟨whole, rfl, operand, rfl⟩ | ⟨form, bases, is, wide, known, result⟩ :=
    accepts_cases words accepted
  · obtain rfl := Option.some.inj value
    rw [isType] at two length ⊢
    exact vector_perform two high length spans (fun operand member => (scalars operand member).1) holds chosen
  · obtain ⟨rfl, rfl⟩ : base = .bool ∧ rows = 1 := by simpa [ShaderType.scalar, ShaderType.vector, eq_comm] using isType
    obtain ⟨a, others, left, next, rfl⟩ := List.forall₂_cons_left_iff.mp (List.forall₂_map_right_iff.mp spans)
    obtain ⟨b, rest, right, none, rfl⟩ := List.forall₂_cons_left_iff.mp next
    obtain rfl := List.forall₂_nil_left_iff.mp none
    have compared := @fused_perform regs opcode operand a b (inputs operand List.mem_cons_self) left right
      (holds a (by simp)) (holds b (by simp))
    rcases whole with rfl | rfl
    · obtain rfl := Option.some.inj value
      exact (compared true chosen).trans (by simp [Datum.word])
    · obtain rfl := Option.some.inj value
      exact (compared false chosen).trans (by simp [Datum.word])
  · rw [isType] at wide result value ⊢
    exact lanes_perform is wide known result spans low high holds small chosen value

/-! ### Selectors -/

theorem identity_getElem? (h : lanes.isIdentity width = true) {c : UInt8} (found : (lanes.take width)[i]? = some c) :
    c.toNat = i := by
  rw [Lanes.isIdentity, List.all_eq_true] at h
  simpa using h (c, i) (List.mem_zipIdx_iff_getElem?.mpr found)

theorem picked_eq_of_identity (h : lanes.isIdentity width = true)
    (value : ((lanes.take width).mapM fun c => data[c.toNat]?) = some picked) (length : picked.length = data.length) :
    picked = data := by
  refine List.ext_getElem? fun i => ?_
  rw [mapM_getElem? value]
  cases component : (lanes.take width)[i]? with
  | none =>
    have outside : (lanes.take width).length ≤ i := List.getElem?_eq_none_iff.mp component
    rw [← mapM_length value, length] at outside
    simp [outside]
  | some c => rw [Option.bind_some, identity_getElem? h component]

theorem reorder_extends (run : Runs (reorder w lanes width) u v t) : u.program.Extends t.program := by
  obtain ⟨d, -, ⟨-, -, rfl⟩ | ⟨-, -, run⟩⟩ := reorder_ok run
  · exact .refl
  · obtain ⟨-, rfl, -⟩ := emitValue_ok run
    exact (emits_value ..).keeps

theorem reorder_computes (before : s.program.Extends u.program)
    (computed : Computes q memory s u [(w, data.map Datum.word)]) (native : u.scope.nativeIntegers = true)
    (high : width ≤ 4) (run : Runs (reorder w lanes width) u v t) (kept : t.program.Extends q) (fits : q.Fits)
    (value : ((lanes.take width).mapM fun c => data[c.toNat]?) = some picked) :
    Computes q memory s t [(v, picked.map Datum.word)] := by
  have count : picked.length = width.toNat := by
    have four : width.toNat ≤ 4 := UInt8.le_iff_toNat_le.mp high
    simp [mapM_length value, Lanes.take, Lanes.toList, Nat.min_eq_left four]
  obtain ⟨d, found, size⟩ := computed.shaped _ List.mem_cons_self
  obtain ⟨d', there, moved⟩ := reorder_ok run
  obtain rfl := Option.some.inj (found.symm.trans there)
  rw [List.length_map] at size
  obtain ⟨identity, rfl, rfl⟩ | ⟨-, -, run⟩ := moved
  · have same : picked = data :=
      picked_eq_of_identity identity.2 value (by rw [count, identity.1, size])
    rwa [same]
  · rw [native] at run
    refine computed.emit before run kept fits (by rw [List.length_map, count]) fun regs held => ?_
    have is : regs w = data.map Datum.word := held _ List.mem_cons_self
    refine mapM_range (by rw [List.length_map, count]) fun i inside => ?_
    have lane : AluSrc.read regs ⟨w, lanes⟩ i = (picked.map Datum.word)[i]? := by
      rw [List.length_map, count] at inside
      rw [AluSrc.read, lanes_getElem? lanes inside, List.getElem?_map, mapM_getElem? value, is]
      cases (lanes.take width)[i]? <;> simp
    simp [lane, List.getElem?_eq_getElem inside, moveOp, AluOp.lanewise]

/-! ### Constants -/

theorem scalarPattern_word {scalar : Scalar} {bits : UInt64} {d : Datum}
    (h : scalarPattern? true base scalar = some bits) (is : scalar.datum? = some d) : bits.toUInt32 = d.word := by
  cases scalar with
  | i32 v | u32 v =>
    obtain rfl := Option.some.inj is
    cases base <;> cases h
    simp [Datum.word]
  | bool v =>
    obtain rfl := Option.some.inj is
    cases base <;> cases h
    cases v <;> rfl
  | _ => cases is

theorem patterns_words {bits : List UInt64}
    (h : List.Forall₂ (fun s b => scalarPattern? true base s = some b) scalars bits)
    (read : scalars.mapM Scalar.datum? = some data) : bits.map UInt64.toUInt32 = data.map Datum.word := by
  induction h generalizing data with
  | nil =>
    obtain rfl : [] = data := by simpa using read
    rfl
  | cons first _ ih =>
    obtain ⟨d, is, rest, others, rfl⟩ := mapM_cons_eq_some.mp read
    rw [List.map_cons, List.map_cons, scalarPattern_word first is, ih others]

theorem stored_constant {k : Constant} (words : type.isWords = true)
    (h : constantOf true (.components type scalars) = .ok k) (read : scalars.mapM Scalar.datum? = some data) :
    k.stored = .vector (data.map Datum.word) := by
  obtain ⟨base, rows, rfl, -⟩ := ShaderType.isWords_iff.mp words
  obtain ⟨_, bits, -, -, -, rfl, patterns⟩ := constantOf_components h
  have column : (ShaderType.vector base rows).columns = 1 := rfl
  simp [Constant.stored, column, patterns_words patterns read]

/-! ### Values -/

/-- What holds while values are evaluated and their code is executed. -/
structure Setting (source : Source.Program) (env : Env) (contents : Contents) (q : Target.Program) (memory : Memory) :
    Prop where
  native : env.nativeIntegers = true
  faithful : ∀ {p : Place} {path}, p.path env = some path → env.inBuffer path = source.inBuffer p
  suits : source.Suits contents
  mirrors : Mirrors env contents q memory
  fits : q.Fits

theorem inBuffer_of_isTyped : ∀ {p : Place}, p.isTyped source seen = true → source.inBuffer p = false
  | .var id type, h => by
    simp only [Place.isTyped, Bool.and_eq_true, Option.any_eq_true, decide_eq_true_eq, Bool.not_eq_true'] at h
    obtain ⟨-, decl, found, -, outside⟩ := h
    simp [Program.inBuffer, Place.root, found, outside]
  | .field record index type, h => by
    simp only [Place.isTyped, Bool.and_eq_true] at h
    have inner := inBuffer_of_isTyped h.2
    rwa [Program.inBuffer, Place.root]
  | .element array index type, h => by
    simp only [Place.isTyped, Bool.and_eq_true] at h
    have inner := inBuffer_of_isTyped h.1.2
    rwa [Program.inBuffer, Place.root]

theorem isTyped_of_mem {rs : List Rvalue} (h : allTyped source seen rs = true) :
    ∀ r ∈ rs, r.isTyped source seen = true := by
  induction rs with
  | nil => simp
  | cons r rs ih =>
    simp only [allTyped, Bool.and_eq_true] at h
    simp only [List.mem_cons, forall_eq_or_imp]
    exact ⟨h.1, ih h.2⟩

theorem accepts_notConvert (words : type.isWords = true) (h : accepts op type types = true) : op ≠ .convert := by
  rintro rfl
  obtain ⟨is, -⟩ | ⟨is | is, -⟩ | ⟨_, _, is, -⟩ := accepts_cases words h <;> cases is

theorem expression_runs {operands : List Rvalue} (h : (Rvalue.expression op type operands).evaluable seen = true)
    (notConvert : op ≠ .convert) (run : Runs (evaluate source (.expression op type operands)) s v t) :
    ∃ values u, Runs (evaluateAll source operands) s values u ∧
      Runs (compute op type (operands.map Rvalue.type) values) u v t := by
  simp only [Rvalue.evaluable, Bool.and_eq_true] at h
  obtain ⟨whole, load, size, other⟩ := ExprOp.isComputation_iff.mp h.1.1.2
  cases evaluate_expression run with
  | uboLoad => exact absurd rfl load
  | size => exact absurd rfl size
  | centroid => cases other
  | sample named => cases other.symm.trans named
  | convert => exact absurd rfl notConvert
  | compute _ _ _ _ valuesRun computeRun => exact ⟨_, _, valuesRun, computeRun⟩

mutual

/-- Executing what is emitted for a well-typed value gives its words. -/
theorem evaluate_computes (setting : Setting source env contents q memory) : ∀ (r : Rvalue) {s t : State} {v : ValueId}
    {data : List Datum}, s.Ready env → r.isTyped source seen = true → Runs (evaluate source r) s v t →
    t.program.Fits → t.program.Extends q → r.value contents = some data →
    Computes q memory s t [(v, data.map Datum.word)]
  | .place p, s, t, v, data, ready, typed, run, small, kept, value => by
    simp only [Rvalue.isTyped, Bool.and_eq_true] at typed
    obtain ⟨chain, u, chainRun, loadRun⟩ := evaluate_place run
    obtain ⟨_, c, path, names, code⟩ :=
      @placeChain_code _ none source p _ _ _ ready chainRun (loadRun.fits_before (by simp) small)
    obtain ⟨held, content, spans⟩ := place_typed setting.suits typed.1 typed.2
    simp only [Rvalue.value, content, Option.bind_some, Stored.components?, Option.some.injEq] at value
    subst value
    rw [← names.head, ← names.type] at loadRun
    refine load_computes code (placeChain_still p typed.2 chainRun) (ready.step chainRun (by simp) code) loadRun small
      kept setting.fits ?_ setting.mirrors ?_ ?_
    · rw [setting.faithful path, inBuffer_of_isTyped typed.2]
    · rw [readPath_content setting.mirrors p path content, Stored.map]
    · rw [List.length_map, spans.length, names.type]
  | .constant l, s, t, v, data, ready, typed, run, small, kept, value => by
    simp only [Rvalue.isTyped, Bool.and_eq_true] at typed
    obtain ⟨chain, u, chainRun, loadRun⟩ := evaluate_constant run
    obtain ⟨k, c, literal, path, names, code⟩ :=
      @constantChain_code _ none _ _ ready _ _ chainRun (loadRun.fits_before (by simp) small)
    obtain ⟨scalars, held, is, read, spans⟩ := constant_typed typed.1 typed.2
    rw [is, Rvalue.value, read] at value
    obtain rfl := Option.some.inj value
    rw [← names.head, ← names.type] at loadRun
    refine load_computes code (constantChain_still chainRun) (ready.step chainRun (by simp) code) loadRun small kept
      setting.fits (by rw [path]; rfl) setting.mirrors ?_ ?_
    · rw [setting.native, is] at literal
      cases known : constantOf true (.components l.type scalars) with
      | error e => simp [known, Except.toOption] at literal
      | ok k' =>
        obtain rfl : k' = k := by simpa [known, Except.toOption] using literal
        rw [path, readPath, stored_constant typed.1 known read]
        rfl
    · rw [List.length_map, spans.length, names.type]
  | .swizzle value lanes width, s, t, v, data, ready, typed, run, small, kept, is => by
    simp only [Rvalue.isTyped, Bool.and_eq_true, decide_eq_true_eq] at typed
    obtain ⟨w, u, valueRun, orderRun⟩ := evaluate_swizzle run
    have before := orderRun.fits_before (by simp) small
    obtain ⟨_, _, -, code⟩ := @evaluate_code _ none source value _ _ _ ready valueRun before
    simp only [Rvalue.value, Option.bind_eq_some_iff] at is
    obtain ⟨inner, read, picked⟩ := is
    have computed := evaluate_computes setting value ready typed.2 valueRun before
      ((reorder_extends orderRun).trans kept fun _ => id) read
    have native := (ready.step valueRun (by simp) code).nativeIntegers.trans setting.native
    exact reorder_computes code.keeps computed native typed.1.1.2 orderRun kept setting.fits picked
  | .texture _, s, t, v, data, ready, typed, run, small, kept, value => by simp [Rvalue.isTyped] at typed
  | .expression op type operands, s, t, v, data, ready, typed, run, small, kept, value => by
    have evaluable := evaluable_of_isTyped typed
    simp only [Rvalue.isTyped, Bool.and_eq_true] at typed
    obtain ⟨⟨words, accepted⟩, all⟩ := typed
    obtain ⟨values, u, valuesRun, run⟩ := expression_runs evaluable (accepts_notConvert words accepted) run
    have before := run.fits_before (by simp) small
    obtain ⟨_, _, -, -, code⟩ := @evaluateAll_code _ none source operands _ _ _ ready valuesRun before
    simp only [Rvalue.value, Option.bind_eq_some_iff] at value
    obtain ⟨read, known, combined⟩ := value
    obtain ⟨args, rfl, rfl, computed⟩ := evaluateAll_computes setting operands ready all valuesRun before
      ((compute_extends run).trans kept fun _ => id) known
    obtain ⟨_, same, spans⟩ := values_typed setting.suits operands all
    obtain rfl := Option.some.inj (known.symm.trans same)
    have inputs : ∀ operand ∈ operands.map Rvalue.type, operand.isWords = true := by
      intro operand member
      obtain ⟨r, among, rfl⟩ := List.mem_map.mp member
      exact isTyped_isWords (isTyped_of_mem all r among)
    have native := (ready.step valuesRun (by simp) code).nativeIntegers.trans setting.native
    exact compute_computes code.keeps computed native words inputs accepted spans run kept setting.fits combined

theorem evaluateAll_computes (setting : Setting source env contents q memory) : ∀ (rs : List Rvalue) {s t : State}
    {vs : List ValueId} {operands : List (List Datum)}, s.Ready env → allTyped source seen rs = true →
    Runs (evaluateAll source rs) s vs t → t.program.Fits → t.program.Extends q →
    valuesOf contents rs = some operands → ∃ args : List Operand, vs = args.map Prod.fst ∧
      operands = args.map Prod.snd ∧ Computes q memory s t (args.map Operand.words)
  | [], s, t, vs, operands, ready, typed, run, small, kept, value => by
    obtain ⟨rfl, rfl⟩ := runs_evaluateAll_nil.mp run
    simp only [valuesOf, Option.some.injEq] at value
    exact ⟨[], rfl, value.symm, .still rfl⟩
  | r :: rs, s, t, vs, operands, ready, typed, run, small, kept, value => by
    simp only [allTyped, Bool.and_eq_true] at typed
    obtain ⟨w, u, ws, firstRun, restRun, rfl⟩ := runs_evaluateAll_cons.mp run
    have before := restRun.fits_before (by simp) small
    obtain ⟨_, _, -, firstCode⟩ := @evaluate_code _ none source r _ _ _ ready firstRun before
    have later := ready.step firstRun (by simp) firstCode
    obtain ⟨_, _, -, -, restCode⟩ := @evaluateAll_code _ none source rs _ _ _ later restRun small
    simp only [valuesOf, Option.bind_eq_some_iff, Option.map_eq_some_iff] at value
    obtain ⟨data, read, others, known, rfl⟩ := value
    have first := evaluate_computes setting r ready typed.1 firstRun before (restCode.keeps.trans kept fun _ => id) read
    obtain ⟨args, rfl, rfl, rest⟩ := evaluateAll_computes setting rs later typed.2 restRun small kept known
    exact ⟨(w, data) :: args, rfl, rfl, first.trans rest firstCode.keeps restCode.keeps⟩

end

/-- Storage can mirror any contents where no two variables are bound to the same one. -/
theorem exists_mirrors (bound : s.Bound) (distinct : ∀ {i j : Nat} {v : Target.VarId},
      s.scope.vars[i]? = some (some v) → s.scope.vars[j]? = some (some v) → i = j) (contents : Contents)
    (q : Target.Program) : ∃ memory, Mirrors s.env contents q memory := by
  classical
  refine ⟨fun v => if h : ∃ id : Source.VarId, s.env.bindings[id.index.toNat]? = some (some v) then
      (contents h.choose).map Datum.word
    else (((q.var? v).bind Variable.initializer).map Constant.stored).getD (.vector []), ?_, ?_⟩
  · intro id v found
    have named : ∃ id : Source.VarId, s.env.bindings[id.index.toNat]? = some (some v) := ⟨id, found⟩
    have same : named.choose = id := by
      have index := UInt32.toNat_inj.mp (distinct named.choose_spec found)
      cases choice : named.choose
      cases id
      rw [choice] at index
      exact congrArg _ index
    simp only [dif_pos named, same]
  · intro v x c late there initial
    have unnamed : ¬ ∃ id : Source.VarId, s.env.bindings[id.index.toNat]? = some (some v) := by
      rintro ⟨id, found⟩
      have early : v.index.toNat < s.program.vars.size := bound found
      rw [State.env, Array.size_map] at late
      omega
    simp [dif_neg unnamed, there, initial]

/-- Lowering keeps the meaning of integers and booleans. A well-typed value has a value of its type; wherever it is
evaluated, executing what was emitted leaves the words of this in the value that is given, in any storage that
mirrors the contents of the variables. Inside a function and without a limit on instructions, it is evaluated. -/
theorem evaluate_means {r : Rvalue} (bound : s.Bound) (native : s.scope.nativeIntegers = true)
    (faithful : s.Faithful source) (typed : r.isTyped source seen = true) (suits : source.Suits contents) :
    (s.Enclosed source seen → (outcome (evaluate source r) s).2.program.Fits →
      ∃ v t, Runs (evaluate source r) s v t) ∧
    ∃ data, r.value contents = some data ∧ Spans r.type data ∧ ∀ {v t}, Runs (evaluate source r) s v t →
      t.program.Fits → ∀ memory, Mirrors s.env contents t.program memory → ∀ regs, ∃ next,
        t.program.execute memory (t.program.between s.program.instrs.size t.program.instrs.size) regs = some next ∧
          next v = data.map Datum.word := by
  obtain ⟨data, value, spans⟩ := value_typed suits r typed
  refine ⟨?_, data, value, spans, ?_⟩
  · intro enclosed fits
    refine runs_of_not_fails fun t failed => ?_
    have safe := evaluate_safe r enclosed (evaluable_of_isTyped typed) t failed
    obtain ⟨e, result⟩ := failed
    rw [result] at fits
    exact safe fits
  · intro v t run fits memory mirrors regs
    have setting : Setting source s.env contents t.program memory :=
      ⟨native, faithful.inBuffer_eq, suits, mirrors, fits⟩
    obtain ⟨next, executed, words, -⟩ := (evaluate_computes setting r bound.ready typed run fits .refl value).runs regs
    exact ⟨next, executed, words _ List.mem_cons_self⟩

/-! ### A value to evaluate -/

namespace Totals

variable {v : Target.VarId}

def totals : ShaderType := .struct "Totals" [("counts", .array (.vector .int 3) 2), ("open", .scalar .bool)]

def program : Source.Program where
  name := "totals"
  layout := .fragment false .none false
  vars := #[
    { name := "totals", type := totals, mode := .auto },
    { name := "limit", type := .scalar .uint, mode := .uniform }]
  signatures := #[{ name := "main", returnType := .void, parameters := [], isDefined := true, body := [] }]
  statements := [.function "main" [⟨0⟩]]

def counts (i : Int32) : Rvalue :=
  .place (.element (.field (.var ⟨0⟩ totals) 0 (.array (.vector .int 3) 2)) (.constant (.int i)) (.vector .int 3))

def limit : Rvalue := .place (.var ⟨1⟩ (.scalar .uint))

def pair : Rvalue := .swizzle (counts 1) ⟨2, 0, 0, 0⟩ 2

def isOpen : Rvalue :=
  .expression .logicOr (.scalar .bool) [.place (.field (.var ⟨0⟩ totals) 1 (.scalar .bool)),
    .expression .lequal (.scalar .bool) [.constant (.uint 7), limit]]

def value : Rvalue :=
  .expression .csel (.vector .int 2) [
    .expression .logicAnd (.vector .bool 2) [
      .expression .greater (.vector .bool 2) [pair, .constant (.int (-3))], isOpen],
    .expression .min (.vector .int 2) [pair,
      .expression .vector (.vector .int 2) [.constant (.int 4), .constant (.int (-9))]],
    .expression .neg (.vector .int 2) [pair]]

def enter : Lower Unit := do
  registerAll program program.statements
  let _ ← declare program ⟨1⟩
  setProgram (← check ((← Lower.program).setBody ⟨0⟩ (some {})))
  setScope (← check ((← scope).enterFunction ⟨0⟩))
  let _ ← declare program ⟨0⟩

def entered : State := (outcome enter (.initial program {})).2

def held : Contents
  | ⟨0⟩ => .parts [
      .parts [.vector [.int 1, .int 2, .int 3], .vector [.int (-5), .int 6, .int 8]],
      .vector [.bool false]]
  | _ => .vector [.uint 0xfffffffe]

theorem entered_vars (found : entered.scope.vars[i]? = some (some v)) : (i = 0 ∧ v = ⟨1⟩) ∨ (i = 1 ∧ v = ⟨0⟩) := by
  have vars : entered.scope.vars = #[some ⟨1⟩, some ⟨0⟩] := by decide +kernel
  rw [vars] at found
  match i with
  | 0 => exact .inl ⟨rfl, by simpa [eq_comm] using found⟩
  | 1 => exact .inr ⟨rfl, by simpa [eq_comm] using found⟩
  | i + 2 => simp at found

theorem entered_distinct {j : Nat} (left : entered.scope.vars[i]? = some (some v))
    (right : entered.scope.vars[j]? = some (some v)) : i = j := by
  obtain ⟨rfl, rfl⟩ | ⟨rfl, rfl⟩ := entered_vars left <;> simpa [eq_comm] using entered_vars right

theorem entered_bound : entered.Bound := by
  intro i v found
  have size : entered.program.vars.size = 2 := by decide +kernel
  rw [size]
  obtain ⟨-, rfl⟩ | ⟨-, rfl⟩ := entered_vars found <;> decide

theorem entered_enclosed : entered.Enclosed program [⟨0⟩, ⟨1⟩] where
  bound := entered_bound
  native := by decide +kernel
  unlimited := by decide +kernel
  room := by decide +kernel
  known := by
    have first : entered.scope.vars[0]? = some (some ⟨1⟩) := by decide +kernel
    have second : entered.scope.vars[1]? = some (some ⟨0⟩) := by decide +kernel
    simp only [List.mem_cons, List.not_mem_nil, or_false, forall_eq_or_imp, forall_eq]
    exact ⟨⟨_, first⟩, ⟨_, second⟩⟩
  inside := by
    have body : (entered.program.code? 0).isSome = true := by decide +kernel
    exact ⟨⟨0⟩, by decide +kernel, Option.isSome_iff_exists.mp body⟩

theorem entered_faithful : entered.Faithful program := by
  have outside : ∀ v ∈ [(⟨0⟩ : Target.VarId), ⟨1⟩],
      (entered.program.var? v).any (fun x => !x.storage.isBuffer) = true := by decide +kernel
  have declared : ∀ i ∈ [0, 1], (program.vars[i]?).any (fun decl => !decl.inBuffer) = true := by decide
  simp only [Option.any_eq_true, Bool.not_eq_true'] at outside declared
  intro id v found
  have index : id.index.toNat ∈ [0, 1] := by
    obtain ⟨is, -⟩ | ⟨is, -⟩ := entered_vars found <;> simp [is]
  have target : v ∈ [(⟨0⟩ : Target.VarId), ⟨1⟩] := by
    obtain ⟨-, rfl⟩ | ⟨-, rfl⟩ := entered_vars found <;> simp
  obtain ⟨x, there, storage⟩ := outside v target
  obtain ⟨decl, known, buffer⟩ := declared _ index
  exact ⟨decl, x, known, there, storage.trans buffer.symm⟩

theorem held_suits : program.Suits held := by
  rintro ⟨index⟩ decl found
  have inside : index.toNat < 2 := (Array.getElem?_eq_some_iff.mp found).1
  obtain rfl | rfl : index = 0 ∨ index = 1 := by
    rw [← UInt32.toNat_inj, ← UInt32.toNat_inj]
    exact Nat.le_one_iff_eq_zero_or_eq_one.mp (Nat.le_of_lt_succ inside)
  all_goals
    obtain rfl := Option.some.inj found
    decide

end Totals

theorem evaluate_means_totals : Totals.value.isTyped Totals.program [⟨0⟩, ⟨1⟩] = true ∧
    ∃ v t memory, Runs (evaluate Totals.program Totals.value) Totals.entered v t ∧
      Mirrors Totals.entered.env Totals.held t.program memory ∧ ∀ regs, ∃ next, t.program.execute memory
        (t.program.between Totals.entered.program.instrs.size t.program.instrs.size) regs = some next ∧
          next v = [4, 5] := by
  have typed : Totals.value.isTyped Totals.program [⟨0⟩, ⟨1⟩] = true := by decide +kernel
  have fits : (outcome (evaluate Totals.program Totals.value) Totals.entered).2.program.Fits := by decide +kernel
  obtain ⟨returns, data, value, -, means⟩ := evaluate_means Totals.entered_bound Totals.entered_enclosed.native
    Totals.entered_faithful typed Totals.held_suits
  obtain ⟨v, t, run⟩ := returns Totals.entered_enclosed fits
  have small : t.program.Fits := by rwa [run] at fits
  have known : Totals.value.value Totals.held = some [.int 4, .int 5] := by decide +kernel
  obtain rfl := Option.some.inj (value.symm.trans known)
  obtain ⟨memory, mirrors⟩ := exists_mirrors Totals.entered_bound Totals.entered_distinct Totals.held t.program
  exact ⟨typed, v, t, memory, run, mirrors, means run small memory mirrors⟩

end ShaderSSA.Lowering
