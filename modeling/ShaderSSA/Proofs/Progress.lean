import ShaderSSA.Proofs.WellFormed

/-!
Progress. Lowering keeps a state in which a well-formed value, place or statement cannot fail: there is
room for instructions, what has been declared is bound, and the function that is being lowered has a body.
Only an arena that outgrows its handles is left.
-/

namespace ShaderSSA
variable {type : ShaderType}

theorem ShaderType.isValue_iff : type.isValue = true ↔ ∃ base rows, type = .vector base rows ∧ 1 ≤ rows ∧ rows ≤ 4 := by
  cases type with
  | numeric base rows columns =>
    simp only [isValue, vector, Bool.and_eq_true, decide_eq_true_eq, numeric.injEq]
    constructor
    · rintro ⟨⟨low, high⟩, column⟩
      exact ⟨base, rows, ⟨rfl, rfl, column⟩, low, high⟩
    · rintro ⟨_, _, ⟨rfl, rfl, column⟩, low, high⟩
      exact ⟨⟨low, high⟩, column⟩
  | _ => simp [isValue, vector]

theorem ShaderType.not_isMatrix (h : type.isValue = true) : type.isMatrix = false := by
  obtain ⟨base, rows, rfl, -⟩ := isValue_iff.mp h
  simp [isMatrix, vector]

theorem ExprOp.isComputation_iff {op : ExprOp} : op.isComputation = true ↔ op.mustBeDecomposed = false ∧
    op ≠ .uboLoad ∧ op ≠ .getBufferSize ∧ Lowering.interpolation? op = none := by
  cases op <;> decide

theorem UInt8.width_cases {w : UInt8} (low : 1 ≤ w) (high : w ≤ 4) : w = 1 ∨ w = 2 ∨ w = 3 ∨ w = 4 := by
  rw [UInt8.le_iff_toNat_le] at low high
  have some : w.toNat = 1 ∨ w.toNat = 2 ∨ w.toNat = 3 ∨ w.toNat = 4 := by
    have : (1 : UInt8).toNat = 1 := rfl
    have : (4 : UInt8).toNat = 4 := rfl
    omega
  simpa [← UInt8.toNat_inj] using some

namespace Target.Links

theorem Threaded.last_found {links : Links} {before : List Spot} {x : Spot}
    (h : links.Threaded (before ++ [x])) : links[x.position]? = some ⟨x.kind, x.type, none⟩ := by
  induction before with
  | nil =>
    cases h with
    | last found => exact found
  | cons y before ih =>
    cases before with
    | nil | cons =>
      cases h with
      | step found later tail => exact ih tail

end Target.Links

namespace Lowering
open Source Target Lower
variable {v : ValueId} {α : Type} {m : Lower α}

/-! ### Literals and opcodes -/

theorem scalarPattern_ok (native : Bool) (s : Scalar) : ∃ bits, scalarPattern native s.base s = .ok bits := by
  cases s <;> exact ⟨_, rfl⟩

theorem componentsConstant_ok {native : Bool} {scalars : List Scalar}
    (h : (Literal.components type scalars).isShaped = true) : ∃ c, componentsConstant native type scalars = .ok c := by
  simp only [Literal.isShaped, Option.any_eq_true, Bool.and_eq_true, decide_eq_true_eq, Bool.or_eq_true,
    List.all_eq_true] at h
  obtain ⟨base, numeric, ⟨length, columns⟩, bases⟩ := h
  obtain ⟨bits, patterns⟩ : ∃ bits, scalars.mapM (scalarPattern native base) = .ok bits := by
    refine mapM_ok fun s member => ?_
    rw [← bases s member]
    exact scalarPattern_ok native s
  have noMatrix : ¬ (1 < type.columns ∧ base.isFloat = false) := by
    rintro ⟨wide, integer⟩
    rw [integer] at columns
    simpa using Nat.lt_of_lt_of_le wide (columns.resolve_right (by simp))
  refine ⟨.numeric (storedBits native base) type.columns type.rows bits, ?_⟩
  simp [componentsConstant, numeric, length, noMatrix, patterns]

theorem constantOf_ok (native : Bool) {l : Literal} (h : l.isShaped = true) : ∃ c, constantOf native l = .ok c := by
  induction l using Literal.nesting with
  | components type scalars =>
    rw [constantOf]
    exact componentsConstant_ok h
  | aggregate type elements ih =>
    simp only [Literal.isShaped, Bool.and_eq_true, allShaped_iff] at h
    obtain ⟨cs, each⟩ := mapM_ok fun e member => ih e member (h.2 e member)
    have count : elementCount type = .ok elements.length := by
      cases type <;> simp_all [elementCount]
    exact ⟨_, constantOf_aggregate.mpr ⟨count, cs, rfl, mapM_eq_ok.mp each⟩⟩

theorem byWidth_ok {w : UInt8} (low : 1 ≤ w) (high : w ≤ 4) (one two three four : AluOp) :
    ∃ op, byWidth w one two three four = .ok op := by
  rcases UInt8.width_cases low high with rfl | rfl | rfl | rfl <;> exact ⟨_, rfl⟩

theorem opcode_ok {s : Selection} {op : ExprOp} (native : s.nativeIntegers = true)
    (computation : op.isComputation = true) (notConvert : op ≠ .convert) (takes : op.takes s.arity = true)
    (low : 1 ≤ s.width) (high : s.width ≤ 4) : ∃ opcode, s.opcode op = .ok opcode := by
  cases op with
  | allEqual | anyNequal =>
    simp only [Selection.opcode, native, fusedCompare]
    split <;> first | contradiction | exact byWidth_ok low high ..
  | dot => rcases UInt8.width_cases low high with is | is | is | is <;> simp [Selection.opcode, is]
  | vector =>
    simp only [ExprOp.takes, Bool.and_eq_true, decide_eq_true_eq] at takes
    obtain is | is | is : s.arity = 2 ∨ s.arity = 3 ∨ s.arity = 4 := by omega
    all_goals simp [Selection.opcode, is]
  | convert => exact absurd rfl notConvert
  | uboLoad | getBufferSize | interpolateAtCentroid | interpolateAtOffset | interpolateAtSample | exp | log
  | noise | vectorExtract | vectorInsert | ssboUnsizedArrayLength => exact absurd computation (by decide)
  | bitfieldReverse | bitCount | findMsb | findLsb | lshift | rshift | imulHigh | carry | borrow
  | bitfieldExtract | bitfieldInsert => simp [Selection.opcode, Selection.integerOnly, native]
  | _ => exact ⟨_, rfl⟩

/-! ### States in which lowering goes on -/

/-- From `s`, `m` fails in no program that fits its handles. -/
def Safe {α : Type} (m : Lower α) (s : State) : Prop := ∀ t, Fails m s t → ¬ t.program.Fits

variable {source : Source.Program} {seen ids : List Source.VarId} {returning : Bool} {env : Env}
  {result : Option Target.VarId} {s u t : State} {nodes : List Node} {known : List Known}
  {effects : List Skeleton} {op : ExprOp} {r : Rvalue} {type dst src : ShaderType} {values : List ValueId}
  {width : UInt8} {after tree : ValueTree} {c : Live} {d : ValueDef} {rs : List Rvalue} {types : List ShaderType}

/-- Integers are native, there is no limit on instructions, and the variables `seen` are bound. -/
structure State.Able (source : Source.Program) (seen : List Source.VarId) (s : State) : Prop where
  bound : s.Bound
  native : s.scope.nativeIntegers = true
  unlimited : s.program.instrLimit = none
  room : s.scope.vars.size = source.vars.size
  known : ∀ id ∈ seen, ∃ v, s.scope.vars[id.index.toNat]? = some (some v)

theorem State.Able.along {layer : Layer} (able : s.Able source seen) (path : Path layer s t) :
    t.Able source seen where
  bound := path.bound able.bound
  native := path.steady.native.trans able.native
  unlimited := path.steady.limit.trans able.unlimited
  room := path.steady.room.trans able.room
  known := by
    intro id member
    obtain ⟨v, found⟩ := able.known id member
    exact path.steady.known found

theorem State.Able.step (able : s.Able source seen) {a : α} (run : Runs m s a t)
    (steps : Stepwise .statement m) : t.Able source seen :=
  able.along (steps.path run)

theorem State.Able.more (able : s.Able source seen)
    (named : ∀ id ∈ ids, ∃ v, s.scope.vars[id.index.toNat]? = some (some v)) : s.Able source (seen ++ ids) := by
  refine { able with known := ?_ }
  intro id member
  rcases List.mem_append.mp member with old | new
  · exact able.known id old
  · exact named id new

/-- Moreover a function with a body is being lowered. -/
structure State.Enclosed (source : Source.Program) (seen : List Source.VarId) (s : State) : Prop
    extends s.Able source seen where
  inside : ∃ f, s.scope.current = some f ∧ ∃ code, s.program.code? f.index.toNat = some code

namespace State.Enclosed

theorem along (enclosed : s.Enclosed source seen) (path : Path .statement s t) : t.Enclosed source seen where
  toAble := enclosed.toAble.along path
  inside := by
    obtain ⟨f, current, code, found⟩ := enclosed.inside
    exact ⟨f, by rw [path.scope_frame, current], code, by rw [path.code?_eq (by simp), found]⟩

theorem step (enclosed : s.Enclosed source seen) {a : α} (run : Runs m s a t)
    (steps : Stepwise .statement m) : t.Enclosed source seen :=
  enclosed.along (steps.path run)

theorem ready (enclosed : s.Enclosed source seen) : s.Ready s.env := State.Bound.ready enclosed.bound

end State.Enclosed

/-- Moreover calls are resolved as the source lists them, and there is a return variable if a value is returned. -/
structure State.Working (source : Source.Program) (seen : List Source.VarId) (returning : Bool) (s : State) : Prop
    extends s.Enclosed source seen where
  callees : s.callees = source.functionOf?
  returns : returning = true → ∃ v, s.returnVar? = some v ∧ v.index.toNat < s.program.vars.size

namespace State.Working

theorem along (working : s.Working source seen returning) (path : Path .statement s t) :
    t.Working source seen returning where
  toEnclosed := working.toEnclosed.along path
  callees := path.callees_eq.trans working.callees
  returns := by
    intro isReturning
    obtain ⟨v, found, small⟩ := working.returns isReturning
    exact ⟨v, path.returnVar?_eq.trans found, Nat.lt_of_lt_of_le small path.noLarger.vars⟩

theorem step (working : s.Working source seen returning) {a : α} (run : Runs m s a t)
    (steps : Stepwise .statement m) : t.Working source seen returning :=
  working.along (steps.path run)

theorem more (working : s.Working source seen returning)
    (named : ∀ id ∈ ids, ∃ v, s.scope.vars[id.index.toNat]? = some (some v)) :
    s.Working source (seen ++ ids) returning :=
  { working with toEnclosed := { working.toEnclosed with toAble := working.toAble.more named } }

end State.Working

/-! ### Computations that go on -/

section
variable {α β : Type} {m : Lower α} {g : α → Lower β} {a : α}

theorem safe_bind (first : Safe m s) (rest : ∀ {a u}, Runs m s a u → Safe (g a) u) : Safe (m >>= g) s := by
  intro t failed fits
  obtain failed | ⟨a, u, run, failed⟩ := fails_bind.mp failed
  · exact first t failed fits
  · exact rest run t failed fits

theorem safe_pure (a : α) : Safe (pure a) s := fun _ failed => absurd failed fails_pure

/-- Only states whose programs fit their handles matter. -/
theorem Stepwise.safe {layer : Layer} (steps : Stepwise layer m) (h : s.program.Fits → Safe m s) : Safe m s :=
  fun t failed fits => h ((steps.failed failed).fits fits) t failed fits

theorem safe_of_fits (steps : Stepwise .statement m) (h : s.program.Fits → Safe m s) : Safe m s := steps.safe h

theorem safe_rootChain (var : Target.VarId) (type : ShaderType) : Safe (rootChain var type) s :=
  fun _ failed => (fails_rootChain failed).elim

theorem safe_modifyRegion {f : Region → Region} : Safe (modifyRegion f) s :=
  fun _ failed => (fails_modifyRegion failed).elim

theorem safe_check {e : Except Fault α} (found : e = .ok a) (rest : Safe (g a) s) : Safe (check e >>= g) s := by
  subst found
  refine safe_bind (by simp [Safe]) fun run => ?_
  obtain ⟨same, rfl⟩ := runs_check.mp run
  obtain rfl := Except.ok.inj same
  exact rest

theorem safe_inRegion {m : Lower Unit} (inner : Safe m { s with region := {} }) : Safe (inRegion m) s := by
  intro t failed
  obtain ⟨u, stopped, rfl⟩ := fails_inRegion.mp failed
  exact inner u stopped

theorem safe_read (reads : ∀ {x t}, Runs m s x t → x = a ∧ t = s) (going : ∀ t, ¬ Fails m s t)
    (rest : Safe (g a) s) : Safe (m >>= g) s := by
  refine safe_bind (fun t failed => (going t failed).elim) fun run => ?_
  obtain ⟨rfl, rfl⟩ := reads run
  exact rest

theorem safe_program {g : Target.Program → Lower β} (rest : Safe (g s.program) s) : Safe (program >>= g) s :=
  safe_read runs_program.mp (fun _ => fails_program) rest

theorem safe_scope {g : Scope → Lower β} (rest : Safe (g s.scope) s) : Safe (scope >>= g) s :=
  safe_read runs_scope.mp (fun _ => fails_scope) rest

theorem safe_nativeIntegers {g : Bool → Lower β} (rest : Safe (g s.scope.nativeIntegers) s) :
    Safe (nativeIntegers >>= g) s :=
  safe_read runs_nativeIntegers.mp (fun _ => fails_nativeIntegers) rest

theorem safe_valueDef {g : ValueDef → Lower β} (found : s.program.value? v = some d)
    (rest : Safe (g d) s) : Safe (valueDef v >>= g) s := by
  refine safe_read (fun run => ?_) (by simp [found]) rest
  obtain ⟨again, rfl⟩ := runs_valueDef.mp run
  exact ⟨Option.some.inj (again.symm.trans found), rfl⟩

end

/-! ### Instructions, constants and links -/

theorem emitEffect_safe (able : s.Able source seen) (op : Operation) : Safe (emitEffect op) s := by
  intro t failed
  have full := (emitEffect_fails failed).2
  rw [not_isFull able.unlimited] at full
  cases full

theorem emitValue_safe (able : s.Able source seen) (op : Operation) (bitSize : UInt8) (low : 1 ≤ width)
    (high : width ≤ 4) : Safe (emitValue op width bitSize) s := by
  intro t failed
  obtain ⟨-, (rfl | wide) | full⟩ := emitValue_fails failed
  · exact absurd low (by decide)
  · exact absurd high (UInt8.not_le.mpr wide)
  · rw [not_isFull able.unlimited] at full
    cases full

theorem emitLoad_safe (able : s.Able source seen) (raw : Bool) (op : Operation) (bitSize : UInt8) (low : 1 ≤ width)
    (high : width ≤ 4) : Safe (emitLoad raw op width bitSize) s := by
  cases raw with
  | false => exact emitValue_safe able op bitSize low high
  | true =>
    refine safe_bind (emitValue_safe able _ _ (by decide) (by decide)) fun zeroRun => ?_
    have next := able.step zeroRun (stepwise_emitValue ..)
    refine safe_bind (emitValue_safe next _ _ low high) fun valueRun => ?_
    refine safe_of_fits (by simp) fun small => ?_
    have later := next.step valueRun (by simp)
    obtain ⟨rfl, rfl, -⟩ := emitValue_ok valueRun
    exact safe_valueDef (value?_nextValue small.values id) (emitValue_safe later _ _ low high)

theorem loadLocation_safe (h : Code env result s u nodes known [c] effects) (able : u.Able source seen)
    (loadable : c.last.type.isValue = true) : Safe (loadLocation c.last.type c.head) u := by
  refine safe_of_fits (by simp) fun small => safe_program ?_
  obtain ⟨id, x, kind, found, -⟩ := (h.facts .refl small).rooted c (by simp)
  refine safe_check ((h.threaded c (by simp)).rootVar small.links kind) ?_
  refine safe_check (a := x) (by simp [Target.Program.getVariable, found]) (safe_nativeIntegers ?_)
  obtain ⟨base, rows, type, low, high⟩ := ShaderType.isValue_iff.mp loadable
  rw [type]
  exact emitLoad_safe able _ _ _ low high

theorem getBody_of_code? {p : Target.Program} {f : FuncId} {code : Option Target.VarId × List Node}
    (h : p.code? f.index.toNat = some code) : ∃ b, p.getBody f = .ok b := by
  simp only [Program.code?, Option.map_eq_some_iff, Option.bind_eq_some_iff] at h
  obtain ⟨b, ⟨g, found, body⟩, -⟩ := h
  exact ⟨b, by simp [Program.getBody, Program.getFunction, Program.function?, found, body]⟩

theorem addVariable_safe {var : Variable} {owner : Option FuncId}
    (owned : var.storage.isFunctionOwned = true →
      ∃ f, owner = some f ∧ ∃ code, s.program.code? f.index.toNat = some code) :
    Safe (addVariable var owner) s := by
  intro t failed
  obtain ⟨e, p, added, rfl⟩ := addVariable_fails failed
  obtain ⟨rfl, own, missing⟩ | ⟨f, isLocal, isOwner, ⟨e, missing⟩, rfl⟩ := Program.addVariable_error added
  · obtain ⟨f, isOwner, -⟩ := owned own
    rw [missing] at isOwner
    cases isOwner
  · obtain ⟨g, isOwner', code, found⟩ := owned (by rw [isLocal]; rfl)
    obtain rfl := Option.some.inj (isOwner.symm.trans isOwner')
    obtain ⟨b, read⟩ := getBody_of_code? found
    rw [read] at missing
    cases missing

theorem constantChain_safe (enclosed : s.Enclosed source seen) {l : Literal} (shaped : l.isShaped = true) :
    Safe (constantChain l) s := by
  obtain ⟨f, current, code, found⟩ := enclosed.inside
  obtain ⟨c, literal⟩ := constantOf_ok s.scope.nativeIntegers shaped
  refine safe_scope ?_
  rw [current]
  refine safe_nativeIntegers (safe_check literal (safe_bind (addVariable_safe fun _ => ⟨f, rfl, code, found⟩) ?_))
  exact fun _ => safe_rootChain _ _

theorem appendLink_safe (h : Code env result s u nodes known [c] effects) {chain : Chain} {before : ShaderType}
    (names : c.Names chain before) {kind : LinkKind} (narrowed : Links.narrowed? kind before = .ok (some type)) :
    Safe (appendLink chain kind type) u := by
  intro t failed fits
  obtain ⟨rfl, e, refused⟩ := appendLink_fails failed
  have threaded := h.threaded c (by simp)
  have inside := threaded.lt_size c.last c.last_mem
  rw [← c.spots_eq] at threaded
  have found : t.program.links.get chain.tail = .ok ⟨c.last.kind, before, none⟩ := by
    have position : chain.tail.index.toNat = c.last.position := by
      rw [← names.tail]
      exact Spot.id_index (Nat.lt_trans inside fits.links)
    simp [Links.get, position, threaded.last_found, names.type]
  simp [Links.append, found, narrowed] at refused

/-! ### Operators -/

theorem reorder_safe (able : s.Able source seen) (found : s.program.value? v = some d) {lanes : Lanes}
    (low : 1 ≤ width) (high : width ≤ 4) (inside : ∀ c ∈ lanes.take width, c < d.width) :
    Safe (reorder v lanes width) s := by
  refine safe_valueDef found ?_
  split
  · exact safe_pure v
  split
  · rename_i c outside
    have wide : d.width ≤ c := by simpa using List.find?_some outside
    exact absurd (inside c (List.mem_of_find?_eq_some outside)) (UInt8.not_lt.mpr wide)
  · exact safe_nativeIntegers (emitValue_safe able _ _ low high)

theorem convert_safe (able : s.Able source seen) (found : s.program.value? v = some d)
    (input : src.isValue = true) (output : dst.isValue = true) : Safe (convert src dst v) s := by
  obtain ⟨_, _, rfl, -⟩ := ShaderType.isValue_iff.mp input
  obtain ⟨_, _, rfl, low, high⟩ := ShaderType.isValue_iff.mp output
  refine safe_valueDef found (safe_nativeIntegers ?_)
  rw [if_pos able.native]
  exact emitValue_safe able _ _ low high

theorem componentwise_safe (found : ∀ v ∈ values, ∃ d, s.program.value? v = some d) :
    Safe (componentwise values) s := by
  induction values with
  | nil => exact safe_pure []
  | cons v values ih =>
    obtain ⟨d, here⟩ := found v List.mem_cons_self
    exact safe_valueDef here (safe_bind (ih fun w member => found w (List.mem_cons_of_mem _ member)) fun _ =>
      safe_pure _)

theorem orderOperands_takes (takes : op.takes values.length = true) :
    ∃ ordered, orderOperands op values = .ok ordered ∧ ordered ⊆ values := by
  by_cases exchanged : op = .greater ∨ op = .lequal
  · have two : values.length = 2 := by rcases exchanged with rfl | rfl <;> simpa [ExprOp.takes] using takes
    match values, two with
    | [a, b], _ => exact ⟨[b, a], by simp [orderOperands, exchanged], by simp⟩
  · exact ⟨values, by simp [orderOperands, exchanged], List.Subset.refl _⟩

theorem compute_safe (able : s.Able source seen) (computation : op.isComputation = true) (notConvert : op ≠ .convert)
    (takes : op.takes types.length = true) (output : type.isValue = true)
    (inputs : ∀ input ∈ types, input.isValue = true) (length : values.length = types.length)
    (found : ∀ v ∈ values, ∃ d, s.program.value? v = some d) : Safe (compute op type types values) s := by
  obtain ⟨base, rows, rfl, low, high⟩ := ShaderType.isValue_iff.mp output
  obtain ⟨ordered, order, among⟩ := orderOperands_takes (length ▸ takes)
  -- the first operand fixes the width that the choice looks at
  cases types with
  | nil => exact absurd takes (by cases op <;> decide)
  | cons input types =>
    obtain ⟨_, _, rfl, narrow, wide⟩ := ShaderType.isValue_iff.mp (inputs input List.mem_cons_self)
    obtain ⟨opcode, chosen⟩ :=
      opcode_ok (s := ⟨_, _, base, _, _⟩) able.native computation notConvert takes narrow wide
    refine safe_nativeIntegers (safe_check chosen (safe_check order ?_))
    split
    · exact emitValue_safe able _ _ low high
    · refine safe_bind (componentwise_safe fun v member => found v (among member)) fun run => ?_
      exact emitValue_safe (able.step run (by simp)) _ _ low high

/-! ### Values and places -/

theorem checkLoadable_eq (h : type.isValue = true) : checkLoadable type = pure () := by
  obtain ⟨base, rows, rfl, low, -⟩ := ShaderType.isValue_iff.mp h
  have some : rows ≠ 0 := by
    rintro rfl
    exact absurd low (by decide)
  simp [checkLoadable, ShaderType.vector, ShaderType.isMatrix, ShaderType.rows, some]

theorem evaluable_isValue (h : r.evaluable seen = true) : r.type.isValue = true := by
  cases r with
  | texture texture => simp [Rvalue.evaluable] at h
  | swizzle value lanes width =>
    simp only [Rvalue.evaluable, Bool.and_eq_true, decide_eq_true_eq] at h
    exact ShaderType.isValue_iff.mpr ⟨_, _, rfl, h.1.1⟩
  | place p | constant l | expression op type operands =>
    simp only [Rvalue.evaluable, Bool.and_eq_true] at h
    simp only [Rvalue.type, h]

theorem width_loaded (raw : Bool) (tree : ValueTree) : (tree.loaded raw).width = tree.width := by
  cases raw <;> rfl

theorem width_converted (h : tree.converted env src dst = some after) : after.width = dst.rows := by
  simp only [ValueTree.converted, Option.bind_eq_bind, Option.pure_def, Option.bind_eq_some_iff] at h
  obtain ⟨_, -, _, -, h⟩ := h
  split at h
  · obtain rfl := Option.some.inj h
    rfl
  · split at h <;> obtain rfl := Option.some.inj h <;> rfl

theorem width_computed {trees : List ValueTree} (h : ValueTree.computed env op type types trees = some after) :
    after.width = type.rows := by
  simp only [ValueTree.computed, Option.bind_eq_bind, Option.pure_def, Option.bind_eq_some_iff,
    Option.some.injEq] at h
  obtain ⟨_, -, _, -, rfl⟩ := h
  rfl

theorem tree_width (h : r.evaluable seen = true) (shown : r.tree env = some tree) : tree.width = r.type.rows := by
  cases r with
  | texture texture => simp [Rvalue.evaluable] at h
  | place p =>
    simp only [Rvalue.tree, Option.map_eq_some_iff] at shown
    obtain ⟨path, -, rfl⟩ := shown
    exact width_loaded ..
  | constant l =>
    simp only [Rvalue.tree, Option.map_eq_some_iff] at shown
    obtain ⟨c, -, rfl⟩ := shown
    exact width_loaded ..
  | swizzle value lanes width =>
    simp only [Rvalue.tree, Option.map_eq_some_iff] at shown
    obtain ⟨inner, -, rfl⟩ := shown
    simp only [ValueTree.selected]
    split
    · rename_i identity
      simp only [Bool.and_eq_true, decide_eq_true_eq] at identity
      exact identity.1.symm
    · rfl
  | expression op type operands =>
    simp only [Rvalue.evaluable, Bool.and_eq_true] at h
    obtain ⟨-, load, size, other⟩ := ExprOp.isComputation_iff.mp h.1.1.2
    rw [Rvalue.tree_operator load size other, Option.bind_eq_some_iff] at shown
    obtain ⟨trees, -, shown⟩ := shown
    split at shown
    · simp only [Option.bind_eq_some_iff] at shown
      obtain ⟨first, -, src, -, shown⟩ := shown
      exact width_converted shown
    · exact width_computed shown

theorem evaluate_shape (h : r.evaluable seen = true) (bound : s.Bound)
    (run : Runs (evaluate source r) s v t) (fits : t.program.Fits) :
    ∃ d, t.program.value? v = some d ∧ d.width = r.type.rows := by
  obtain ⟨nodes, tree, shown, code⟩ := @evaluate_code _ none source r _ _ _ bound.ready run fits
  obtain ⟨d, found, width, -⟩ := code.shape fits List.mem_cons_self
  exact ⟨d, found, width.trans (tree_width h shown)⟩

theorem evaluateAll_shapes (bound : s.Bound) {vs : List ValueId} (run : Runs (evaluateAll source rs) s vs t)
    (fits : t.program.Fits) : vs.length = rs.length ∧ ∀ v ∈ vs, ∃ d, t.program.value? v = some d := by
  obtain ⟨nodes, args, rfl, trees, code⟩ := @evaluateAll_code _ none source rs _ _ _ bound.ready run fits
  have length : ∀ {rs trees}, treesOf s.env rs = some trees → rs.length = trees.length := by
    intro rs
    induction rs with
    | nil =>
      intro trees h
      simp only [treesOf, Option.some.injEq] at h
      rw [← h]
      rfl
    | cons r rs ih =>
      intro trees h
      simp only [treesOf, Option.bind_eq_bind, Option.pure_def, Option.bind_eq_some_iff, Option.some.injEq] at h
      obtain ⟨_, -, rest, shown, rfl⟩ := h
      rw [List.length_cons, List.length_cons, ih shown]
  refine ⟨?_, ?_⟩
  · rw [length trees, List.length_map, List.length_map]
  · intro v member
    obtain ⟨k, chosen, rfl⟩ := List.mem_map.mp member
    obtain ⟨d, found, -⟩ := code.shape fits chosen
    exact ⟨d, found⟩

theorem evaluable_of_mem (h : allEvaluable seen rs = true) : ∀ r ∈ rs, r.evaluable seen = true := by
  induction rs with
  | nil => simp
  | cons r rs ih =>
    simp only [allEvaluable, Bool.and_eq_true] at h
    simp only [List.mem_cons, forall_eq_or_imp]
    exact ⟨h.1, ih h.2⟩

theorem operator_safe (able : s.Able source seen) {operands : List Rvalue}
    (h : (Rvalue.expression op type operands).evaluable seen = true) (length : values.length = operands.length)
    (found : ∀ v ∈ values, ∃ d, s.program.value? v = some d) :
    Safe (if op = .convert then
        match operands.map Rvalue.type, values with
        | src :: _, value :: _ => convert src type value
        | _, _ => abort (.missingOperand op 0)
      else compute op type (operands.map Rvalue.type) values) s := by
  simp only [Rvalue.evaluable, Bool.and_eq_true] at h
  obtain ⟨⟨⟨output, computation⟩, takes⟩, inside⟩ := h
  have inputs := evaluable_of_mem inside
  split
  · rename_i isConvert
    have one : operands.length = 1 := by simpa [isConvert, ExprOp.takes] using takes
    match operands, values, one, length with
    | [r], [v], _, _ =>
      obtain ⟨d, here⟩ := found v List.mem_cons_self
      exact convert_safe able here (evaluable_isValue (inputs r List.mem_cons_self)) output
  · rename_i notConvert
    refine compute_safe able computation notConvert (by rwa [List.length_map]) output ?_
      (by rw [List.length_map, length]) found
    intro input member
    obtain ⟨r, chosen, rfl⟩ := List.mem_map.mp member
    exact evaluable_isValue (inputs r chosen)

mutual

/-- An evaluable value is evaluated. -/
theorem evaluate_safe : ∀ (r : Rvalue) {s : State}, s.Enclosed source seen → r.evaluable seen = true →
    Safe (evaluate source r) s
  | .place p, s, enclosed, h => by
    simp only [Rvalue.evaluable, Bool.and_eq_true] at h
    rw [evaluate, checkLoadable_eq h.1, pure_bind]
    refine safe_bind (placeChain_safe p enclosed h.2) fun run => safe_of_fits (by simp) fun small => ?_
    obtain ⟨_, c, -, names, code⟩ := @placeChain_code _ none source p _ _ _ enclosed.ready run small
    rw [← names.head, ← names.type]
    exact loadLocation_safe code (enclosed.step run (by simp)).toAble (by rw [names.type, h.1])
  | .constant l, s, enclosed, h => by
    simp only [Rvalue.evaluable, Bool.and_eq_true] at h
    rw [evaluate, checkLoadable_eq h.1, pure_bind]
    refine safe_bind (constantChain_safe enclosed h.2) fun run => safe_of_fits (by simp) fun small => ?_
    obtain ⟨_, c, -, -, names, code⟩ := @constantChain_code _ none _ _ enclosed.ready _ _ run small
    rw [← names.head, ← names.type]
    exact loadLocation_safe code (enclosed.step run (by simp)).toAble (by rw [names.type, h.1])
  | .swizzle value lanes width, s, enclosed, h => by
    simp only [Rvalue.evaluable, Bool.and_eq_true, decide_eq_true_eq, List.all_eq_true] at h
    obtain ⟨⟨⟨low, high⟩, lanes⟩, inner⟩ := h
    rw [evaluate]
    refine safe_bind (evaluate_safe value enclosed inner) fun run => safe_of_fits (by simp) fun small => ?_
    obtain ⟨d, found, shape⟩ := evaluate_shape inner enclosed.bound run small
    exact reorder_safe (enclosed.step run (by simp)).toAble found low high (by rwa [shape])
  | .texture _, s, enclosed, h => by simp [Rvalue.evaluable] at h
  | .expression op type operands, s, enclosed, h => by
    have shaped := h
    simp only [Rvalue.evaluable, Bool.and_eq_true] at h
    obtain ⟨⟨⟨output, computation⟩, -⟩, inside⟩ := h
    obtain ⟨whole, load, size, other⟩ := ExprOp.isComputation_iff.mp computation
    have noMatrix : (type.isMatrix || (operands.map Rvalue.type).any ShaderType.isMatrix) = false := by
      rw [ShaderType.not_isMatrix output, Bool.false_or, List.any_map, List.any_eq_false]
      intro r member
      simp [ShaderType.not_isMatrix (evaluable_isValue (evaluable_of_mem inside r member))]
    simp only [evaluate, whole, load, size, other, noMatrix, Bool.false_eq_true, if_false]
    refine safe_bind (evaluateAll_safe operands enclosed inside) fun {vs u} run => ?_
    refine safe_of_fits (by repeat' first | split | simp) fun small => ?_
    obtain ⟨length, found⟩ := evaluateAll_shapes enclosed.bound run small
    exact operator_safe (enclosed.step run (by simp)).toAble shaped length found

theorem evaluateAll_safe : ∀ (rs : List Rvalue) {s : State}, s.Enclosed source seen →
    allEvaluable seen rs = true → Safe (evaluateAll source rs) s
  | [], s, enclosed, h => by
    rw [evaluateAll]
    exact safe_pure _
  | r :: rs, s, enclosed, h => by
    simp only [allEvaluable, Bool.and_eq_true] at h
    rw [evaluateAll]
    refine safe_bind (evaluate_safe r enclosed h.1) fun run => ?_
    exact safe_bind (evaluateAll_safe rs (enclosed.step run (by simp)) h.2) fun _ => safe_pure _

/-- A reachable place gets its chain. -/
theorem placeChain_safe : ∀ (p : Place) {s : State}, s.Enclosed source seen →
    p.reachable seen = true → Safe (placeChain source p) s
  | .var id type, s, enclosed, h => by
    simp only [Place.reachable, List.contains_iff_mem] at h
    obtain ⟨v, bound⟩ := enclosed.known id h
    rw [placeChain]
    exact safe_scope (safe_check (a := v) (by simp [Scope.resolveVariable, bound]) (safe_rootChain v type))
  | .field record index type, s, enclosed, h => by
    simp only [Place.reachable, Bool.and_eq_true, decide_eq_true_eq] at h
    rw [placeChain]
    refine safe_bind (placeChain_safe record enclosed h.2) fun run => safe_of_fits (by simp) fun small => ?_
    obtain ⟨_, c, -, names, code⟩ := @placeChain_code _ none source record _ _ _ enclosed.ready run small
    exact appendLink_safe code names (by rw [Links.narrowed?, h.1])
  | .element array index type, s, enclosed, h => by
    have value := @evaluate_safe index
    simp only [Place.reachable, Bool.and_eq_true, decide_eq_true_eq] at h
    obtain ⟨⟨element, reached⟩, indexed⟩ := h
    rw [placeChain]
    refine safe_bind (placeChain_safe array enclosed reached) fun run => ?_
    have place := @placeChain_code _ none source array _ _ _ enclosed.ready run
    have later := enclosed.step run (by simp)
    cases index with
    | constant l =>
      obtain ⟨word, read⟩ : ∃ word, l.word? = some word := Option.isSome_iff_exists.mp indexed
      refine safe_check (a := .direct word) (by rw [literalIndex, read]) ?_
      refine safe_of_fits (by simp) fun small => ?_
      obtain ⟨_, c, -, names, code⟩ := place small
      exact appendLink_safe code names (by rw [Links.narrowed?, element])
    | expression op type operands | swizzle inner lanes width | texture texture | place inner =>
      simp only [pure_bind]
      refine safe_bind (value later indexed) fun valueRun => safe_of_fits (by simp) fun small => ?_
      obtain ⟨_, c, -, names, code⟩ := place (valueRun.fits_before (by simp) small)
      obtain ⟨_, tree, -, valueCode⟩ :=
        @evaluate_code _ none source _ _ _ _ (enclosed.ready.step run (by simp) code) valueRun small
      exact appendLink_safe (code.trans valueCode) names (by rw [Links.narrowed?, element])

end

end Lowering
end ShaderSSA
