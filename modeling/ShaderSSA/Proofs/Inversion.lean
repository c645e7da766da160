import ShaderSSA.Proofs.Run

/-!
What a run of a lowering function has gone through: the parts that have run, in order, and the checks that were passed.
-/

namespace ShaderSSA.Lowering
open Source Target Lower

variable {source : Source.Program} {s t : State} {type : ShaderType} {v value : ValueId} {values : List ValueId}
  {width : UInt8}

/-! ### Sequences -/

theorem runs_evaluateAll_nil : Runs (evaluateAll source []) s values t ↔ values = [] ∧ t = s := by
  rw [evaluateAll, runs_pure]

theorem runs_evaluateAll_cons {r : Rvalue} {rs : List Rvalue} : Runs (evaluateAll source (r :: rs)) s values t ↔
    ∃ v u vs, Runs (evaluate source r) s v u ∧ Runs (evaluateAll source rs) u vs t ∧ values = v :: vs := by
  simp only [evaluateAll, runs_bind, runs_pure]
  constructor
  · rintro ⟨v, u, first, vs, _, rest, rfl, rfl⟩
    exact ⟨v, u, vs, first, rest, rfl⟩
  · rintro ⟨v, u, vs, first, rest, rfl⟩
    exact ⟨v, u, first, vs, t, rest, rfl, rfl⟩

theorem valueSources_ok {params : List Rvalue} {srcs : List Src} (run : Runs (valueSources source params) s srcs t) :
    ∃ vs, Runs (evaluateAll source params) s vs t ∧ srcs = vs.map .ssa := by
  simp only [valueSources, runs_bind, runs_pure] at run
  obtain ⟨vs, _, evaluated, rfl, rfl⟩ := run
  exact ⟨vs, evaluated, rfl⟩

theorem lowerStmts_nil (run : Runs (lowerStmts source []) s () t) : t = s := by
  rw [lowerStmts] at run
  exact (runs_pure.mp run).2

theorem lowerStmts_cons {stmt : Stmt} {stmts : List Stmt} (run : Runs (lowerStmts source (stmt :: stmts)) s () t) :
    ∃ u, Runs (lowerStmt source stmt) s () u ∧ Runs (lowerStmts source stmts) u () t := by
  rw [lowerStmts] at run
  obtain ⟨_, u, first, rest⟩ := runs_bind.mp run
  exact ⟨u, first, rest⟩

theorem lowerStmt_loop {body : List Stmt} (run : Runs (lowerStmt source (.loop body)) s () t) :
    ∃ u, Runs (lowerStmts source body) { s with region := {} } () u ∧
      t = { u with region := s.region.pushLoop u.region } := by
  simp only [lowerStmt, runs_bind, runs_inRegion, runs_modifyRegion] at run
  obtain ⟨_, _, ⟨u, inner, rfl, rfl⟩, rfl⟩ := run
  exact ⟨u, inner, rfl⟩

theorem lowerStmt_branch {condition : Rvalue} {thenBody elseBody : List Stmt}
    (run : Runs (lowerStmt source (.branch condition thenBody elseBody)) s () t) :
    ∃ c u v w, Runs (evaluate source condition) s c u ∧
      Runs (lowerStmts source thenBody) { u with region := {} } () v ∧
      Runs (lowerStmts source elseBody) { v with region := {} } () w ∧
      t = { w with region := u.region.pushBranch c v.region w.region } := by
  simp only [lowerStmt, runs_bind, runs_inRegion, runs_modifyRegion] at run
  obtain ⟨c, u, chosen, _, _, ⟨v, first, rfl, rfl⟩, _, _, ⟨w, second, rfl, rfl⟩, rfl⟩ := run
  exact ⟨c, u, v, w, chosen, first, second, rfl⟩

/-! ### Operators -/

theorem reorder_ok {lanes : Lanes} (run : Runs (reorder value lanes width) s v t) :
    ∃ d, s.program.value? value = some d ∧
      ((width = d.width ∧ lanes.isIdentity width = true) ∧ v = value ∧ t = s ∨
        ¬ (width = d.width ∧ lanes.isIdentity width = true) ∧ (∀ c ∈ lanes.take width, c < d.width) ∧
          Runs (emitValue (.alu (moveOp s.scope.nativeIntegers) [⟨value, lanes⟩]) width d.bitSize) s v t) := by
  simp only [reorder, runs_bind, runs_valueDef, Bool.and_eq_true, decide_eq_true_eq] at run
  obtain ⟨d, _, ⟨found, rfl⟩, run⟩ := run
  refine ⟨d, found, ?_⟩
  split at run
  · rename_i identity
    exact .inl ⟨identity, runs_pure.mp run⟩
  rename_i moved
  split at run
  · exact (runs_abort run).elim
  rename_i inside
  simp only [runs_bind, runs_nativeIntegers] at run
  obtain ⟨_, _, ⟨rfl, rfl⟩, run⟩ := run
  exact .inr ⟨moved, by simpa using inside, run⟩

theorem convert_ok {src dst : ShaderType} (run : Runs (convert src dst value) s v t) :
    ∃ d srcBase dstBase, s.program.value? value = some d ∧ src.baseType? = some srcBase ∧
      dst.baseType? = some dstBase ∧
      (s.scope.nativeIntegers = true ∧ Runs (emitValue (.alu (conversionOp (aluType srcBase) (aluType dstBase))
          [.broadcast value d.width]) dst.rows (valueBits true dst)) s v t ∨
        s.scope.nativeIntegers = false ∧ (dstBase.isBoolean = true ∧ (∃ zero u, Runs emitZero s zero u ∧
            Runs (emitValue (.alu .sne [.broadcast value d.width, ⟨zero, .all 0⟩]) dst.rows 32) u v t) ∨
          dstBase.isBoolean = false ∧ Runs (emitValue (.alu
            (if srcBase.isFloat && dstBase.isInteger then .ftrunc else .fmov) [.broadcast value d.width])
              dst.rows 32) s v t)) := by
  unfold convert at run
  split at run
  · rename_i srcBase dstBase srcIs dstIs
    simp only [runs_bind, runs_valueDef, runs_nativeIntegers] at run
    obtain ⟨d, _, ⟨found, rfl⟩, _, _, ⟨rfl, rfl⟩, run⟩ := run
    refine ⟨d, srcBase, dstBase, found, srcIs, dstIs, ?_⟩
    split at run
    · rename_i native
      exact .inl ⟨native, run⟩
    rename_i floats
    refine .inr ⟨eq_false_of_ne_true floats, ?_⟩
    split at run
    · rename_i boolean
      exact .inl ⟨boolean, runs_bind.mp run⟩
    · rename_i number
      exact .inr ⟨eq_false_of_ne_true number, run⟩
  · exact (runs_abort run).elim

/-- The source reads all components of the value. -/
def Spreads (p : Target.Program) (v : ValueId) (src : AluSrc) : Prop :=
  ∃ d, p.value? v = some d ∧ src = .broadcast v d.width

theorem componentwise_spreads {srcs : List AluSrc} (run : Runs (componentwise values) s srcs t) :
    t = s ∧ List.Forall₂ (Spreads s.program) values srcs := by
  induction values generalizing srcs with
  | nil =>
    obtain ⟨rfl, rfl⟩ := runs_pure.mp run
    exact ⟨rfl, .nil⟩
  | cons v vs ih =>
    simp only [componentwise, runs_bind, runs_valueDef, runs_pure] at run
    obtain ⟨d, _, ⟨found, rfl⟩, rest, _, run, rfl, rfl⟩ := run
    obtain ⟨rfl, spreads⟩ := ih run
    exact ⟨rfl, .cons ⟨d, found, rfl⟩ spreads⟩

/-- What the sources are, if it is known what each value gives. -/
theorem srcs_of_spreads {α : Type} {p : Target.Program} {args : List α} {named : α → ValueId} {reads : α → AluSrc}
    {srcs : List AluSrc} (spreads : List.Forall₂ (Spreads p) (args.map named) srcs)
    (same : ∀ a ∈ args, ∀ d, p.value? (named a) = some d → .broadcast (named a) d.width = reads a) :
    srcs = args.map reads := by
  induction args generalizing srcs with
  | nil =>
    cases spreads
    rfl
  | cons a args ih =>
    obtain ⟨src, rest, ⟨d, found, rfl⟩, others, rfl⟩ := List.forall₂_cons_left_iff.mp spreads
    rw [List.map_cons, same a List.mem_cons_self d found,
      ih others fun b member => same b (List.mem_cons_of_mem _ member)]

theorem compute_ok {op : ExprOp} {types : List ShaderType} (run : Runs (compute op type types values) s v t) :
    ∃ output opcode ordered srcs, type.baseType? = some output ∧
      Selection.opcode ⟨s.scope.nativeIntegers, (types.head?.bind ShaderType.baseType?).getD output, output,
        (types.head?.map ShaderType.rows).getD 1, types.length⟩ op = .ok opcode ∧
      orderOperands op values = .ok ordered ∧
      (op = .vector ∧ srcs = ordered.map (⟨·, .all 0⟩) ∨
        op ≠ .vector ∧ List.Forall₂ (Spreads s.program) ordered srcs) ∧
      Runs (emitValue (.alu opcode srcs) type.rows (valueBits s.scope.nativeIntegers type)) s v t := by
  unfold compute at run
  split at run
  · exact (runs_abort run).elim
  rename_i output isOutput
  simp only [runs_bind, runs_nativeIntegers, runs_check] at run
  obtain ⟨_, _, ⟨rfl, rfl⟩, opcode, _, ⟨chosen, rfl⟩, ordered, _, ⟨inOrder, rfl⟩, run⟩ := run
  split at run
  · rename_i vector
    simp only [runs_bind, runs_pure] at run
    obtain ⟨srcs, _, ⟨taken, rfl⟩, run⟩ := run
    exact ⟨output, opcode, ordered, srcs, isOutput, chosen, inOrder, .inl ⟨vector, taken⟩, run⟩
  · rename_i other
    obtain ⟨srcs, _, srcsRun, run⟩ := runs_bind.mp run
    obtain ⟨rfl, spreads⟩ := componentwise_spreads srcsRun
    exact ⟨output, opcode, ordered, srcs, isOutput, chosen, inOrder, .inr ⟨other, spreads⟩, run⟩

/-! ### Values -/

theorem checkLoadable_ok {a : Unit} (run : Runs (checkLoadable type) s a t) : t = s := by
  unfold checkLoadable at run
  split at run
  · exact (runs_abort run).elim
  · exact (runs_pure.mp run).2

theorem evaluate_place {p : Place} (run : Runs (evaluate source (.place p)) s v t) :
    ∃ chain u, Runs (placeChain source p) s chain u ∧ Runs (loadLocation p.type chain.head) u v t := by
  simp only [evaluate, runs_bind] at run
  obtain ⟨_, _, checked, rest⟩ := run
  obtain rfl := checkLoadable_ok checked
  exact rest

theorem evaluate_constant {l : Literal} (run : Runs (evaluate source (.constant l)) s v t) :
    ∃ chain u, Runs (constantChain l) s chain u ∧ Runs (loadLocation l.type chain.head) u v t := by
  simp only [evaluate, runs_bind] at run
  obtain ⟨_, _, checked, rest⟩ := run
  obtain rfl := checkLoadable_ok checked
  exact rest

theorem evaluate_swizzle {r : Rvalue} {lanes : Lanes} (run : Runs (evaluate source (.swizzle r lanes width)) s v t) :
    ∃ w u, Runs (evaluate source r) s w u ∧ Runs (reorder w lanes width) u v t := by
  rw [evaluate] at run
  exact runs_bind.mp run

section
variable (source s t type v) (operands : List Rvalue)

/-- How an operator is applied to its operands. -/
inductive Applies : ExprOp → Prop
  | uboLoad {block offset u w} (first : Runs (evaluateOperand source .uboLoad 0 0 operands) s block u)
      (second : Runs (evaluateOperand source .uboLoad 1 1 operands) u offset w)
      (load : Runs (emitLoad type.isBoolean (.intrinsic .loadUbo [.ssa block, .ssa offset] { width := type.rows })
        type.rows (valueBits w.scope.nativeIntegers type)) w v t) : Applies .uboLoad
  | size {block u} (first : Runs (evaluateOperand source .getBufferSize 0 0 operands) s block u)
      (size : Runs (emitValue (.intrinsic .getBufferSize [.ssa block] {}) 1 32) u v t) : Applies .getBufferSize
  | centroid {chain u} (located : Runs (interpolantChain source .interpolateAtCentroid operands) s chain u)
      (taken : Runs (emitValue (.intrinsic .interpDerefAtCentroid [.location chain.head] { width := type.rows })
        type.rows (valueBits u.scope.nativeIntegers type)) u v t) : Applies .interpolateAtCentroid
  | sample {op intrinsic chain sample u w} (named : interpolation? op = some intrinsic)
      (other : op ≠ .interpolateAtCentroid) (located : Runs (interpolantChain source op operands) s chain u)
      (second : Runs (evaluateOperand source op 1 1 operands) u sample w)
      (taken : Runs (emitValue (.intrinsic intrinsic [.location chain.head, .ssa sample] { width := type.rows })
        type.rows (valueBits w.scope.nativeIntegers type)) w v t) : Applies op
  | convert {src types value values u} (typed : operands.map Rvalue.type = src :: types)
      (all : Runs (evaluateAll source operands) s (value :: values) u)
      (converted : Runs (convert src type value) u v t) : Applies .convert
  | compute {op values u} (load : op ≠ .uboLoad) (size : op ≠ .getBufferSize) (whole : interpolation? op = none)
      (other : op ≠ .convert) (all : Runs (evaluateAll source operands) s values u)
      (computed : Runs (compute op type (operands.map Rvalue.type) values) u v t) : Applies op

end

theorem evaluate_expression {op : ExprOp} {operands : List Rvalue}
    (run : Runs (evaluate source (.expression op type operands)) s v t) : Applies source s t type v operands op := by
  simp only [evaluate, runs_unless] at run
  obtain ⟨-, run⟩ := run
  split at run
  · rename_i load
    subst load
    simp only [runs_bind, runs_nativeIntegers] at run
    obtain ⟨block, u, first, offset, w, second, _, _, ⟨rfl, rfl⟩, load⟩ := run
    exact .uboLoad first second load
  rename_i load
  split at run
  · rename_i size
    subst size
    obtain ⟨block, u, first, size⟩ := runs_bind.mp run
    exact .size first size
  rename_i size
  split at run
  · rename_i intrinsic named
    obtain ⟨chain, u, located, rest⟩ := runs_bind.mp run
    split at rest
    · rename_i centroid
      subst centroid
      obtain rfl := Option.some.inj named
      simp only [runs_bind, runs_pure, runs_nativeIntegers] at rest
      obtain ⟨_, _, ⟨rfl, rfl⟩, _, _, ⟨rfl, rfl⟩, taken⟩ := rest
      exact .centroid located taken
    · rename_i other
      simp only [runs_bind, runs_pure, runs_nativeIntegers] at rest
      obtain ⟨sample, w, second, _, _, ⟨rfl, rfl⟩, _, _, ⟨rfl, rfl⟩, taken⟩ := rest
      exact .sample named other located second taken
  · rename_i whole
    simp only [runs_unless, runs_bind] at run
    obtain ⟨-, values, u, all, run⟩ := run
    split at run
    · rename_i conversion
      subst conversion
      split at run
      · rename_i typed
        exact .convert typed all run
      · exact (runs_abort run).elim
    · rename_i other
      exact .compute load size whole other all run

/-! ### Places -/

theorem placeChain_var {id : Source.VarId} {chain : Chain} (run : Runs (placeChain source (.var id type)) s chain t) :
    ∃ var, s.scope.resolveVariable source id = .ok var ∧ Runs (rootChain var type) s chain t := by
  simp only [placeChain, runs_bind, runs_scope, runs_check] at run
  obtain ⟨_, _, ⟨rfl, rfl⟩, var, _, ⟨resolved, rfl⟩, rooted⟩ := run
  exact ⟨var, resolved, rooted⟩

theorem placeChain_field {record : Place} {index : UInt32} {chain : Chain}
    (run : Runs (placeChain source (.field record index type)) s chain t) :
    ∃ before u, Runs (placeChain source record) s before u ∧
      Runs (appendLink before (.struct index) type) u chain t := by
  rw [placeChain] at run
  exact runs_bind.mp run

theorem literalIndex_ok {l : Literal} {i : ArrayIndex} (h : literalIndex l = .ok i) :
    ∃ word, l.word? = some word ∧ i = .direct word := by
  simp only [literalIndex] at h
  split at h
  · rename_i word read
    exact ⟨word, read, (Except.ok.inj h).symm⟩
  · simp at h

theorem placeChain_element {array : Place} {index : Rvalue} {chain : Chain}
    (run : Runs (placeChain source (.element array index type)) s chain t) :
    ∃ before u, Runs (placeChain source array) s before u ∧
      ((∃ l word, index = .constant l ∧ l.word? = some word ∧
          Runs (appendLink before (.array (.direct word)) type) u chain t) ∨
        (index.constant? = none ∧ ∃ v w, Runs (evaluate source index) u v w ∧
          Runs (appendLink before (.array (.indirect v)) type) w chain t)) := by
  simp only [placeChain, runs_bind] at run
  obtain ⟨before, u, arrayRun, run⟩ := run
  refine ⟨before, u, arrayRun, ?_⟩
  cases index with
  | constant l =>
    simp only [runs_bind, runs_check] at run
    obtain ⟨i, _, ⟨literal, rfl⟩, linkRun⟩ := run
    obtain ⟨word, read, rfl⟩ := literalIndex_ok literal
    exact .inl ⟨l, word, rfl, read, linkRun⟩
  | expression op type operands | swizzle inner lanes width | texture texture | place inner =>
    simp only [runs_bind, runs_pure] at run
    obtain ⟨v, _, valueRun, _, w, ⟨rfl, rfl⟩, linkRun⟩ := run
    exact .inr ⟨rfl, v, w, valueRun, linkRun⟩

/-! ### Constants -/

section
variable {c : Constant} {elements : List Literal} {native : Bool} {scalars : List Scalar}

theorem constantsOf_eq (native : Bool) (ls : List Literal) : constantsOf native ls = ls.mapM (constantOf native) := by
  induction ls with
  | nil => rw [constantsOf, List.mapM_nil, pure_def]
  | cons l ls ih => rw [constantsOf, List.mapM_cons, ih]

theorem constantOf_aggregate : constantOf native (.aggregate type elements) = .ok c ↔
    elementCount type = .ok elements.length ∧ ∃ cs, c = .aggregate cs ∧
      List.Forall₂ (fun l c => constantOf native l = .ok c) elements cs := by
  simp only [constantOf, bind_eq_ok, constantsOf_eq]
  constructor
  · rintro ⟨n, count, h⟩
    split at h
    · cases h
    · rename_i full
      obtain ⟨cs, each, last⟩ := bind_eq_ok.mp h
      obtain rfl := pure_eq_ok.mp last
      exact ⟨count.trans (congrArg _ (not_not.mp full).symm), cs, rfl, mapM_eq_ok.mp each⟩
  · rintro ⟨count, cs, rfl, each⟩
    exact ⟨_, count, by simp [mapM_eq_ok.mpr each]⟩

theorem constantOf_components (h : constantOf native (.components type scalars) = .ok c) :
    ∃ base bits, type.baseType? = some base ∧ scalars.length = type.rows.toNat * type.columns.toNat ∧
      ¬ (1 < type.columns ∧ base.isFloat = false) ∧ c = .numeric (storedBits native base) type.columns type.rows bits ∧
      List.Forall₂ (fun s b => scalarPattern? native base s = some b) scalars bits := by
  rw [constantOf, componentsConstant] at h
  cases found : type.baseType? with
  | none =>
    rw [found] at h
    cases h
  | some base =>
    simp only [found] at h
    split at h
    · cases h
    rename_i length
    split at h
    · cases h
    rename_i shape
    obtain ⟨bits, patterns, last⟩ := bind_eq_ok.mp h
    refine ⟨base, bits, rfl, not_not.mp length, by simpa using shape, (Except.ok.inj last).symm, ?_⟩
    refine (mapM_eq_ok.mp patterns).imp fun s b is => ?_
    unfold scalarPattern at is
    split at is
    · rename_i found
      rw [found, Except.ok.inj is]
    · cases is

end

/-! ### Variables -/

theorem loadLocation_ok {head : LinkId} (run : Runs (loadLocation type head) s v t) :
    ∃ root x, s.program.links.rootVar head = .ok root ∧ s.program.getVariable root = .ok x ∧
      Runs (emitLoad (x.storage.isBuffer && type.isBoolean) (.intrinsic .loadDeref [.location head]
        { width := type.rows }) type.rows (valueBits s.scope.nativeIntegers type)) s v t := by
  simp only [loadLocation, runs_bind, runs_program, runs_check, runs_nativeIntegers] at run
  obtain ⟨_, _, ⟨rfl, rfl⟩, root, _, ⟨isRoot, rfl⟩, x, _, ⟨found, rfl⟩, _, _, ⟨rfl, rfl⟩, run⟩ := run
  exact ⟨root, x, isRoot, found, run⟩

theorem constantChain_ok {l : Literal} {chain : Chain} (run : Runs (constantChain l) s chain t) :
    ∃ f k var u, s.scope.current = some f ∧ constantOf s.scope.nativeIntegers l = .ok k ∧
      Runs (addVariable
        { name := "const_temp", type := l.type, storage := .functionLocal, readOnly := true,
          initializer := some k } (some f)) s var u ∧ Runs (rootChain var l.type) u chain t := by
  simp only [constantChain, runs_bind, runs_scope] at run
  obtain ⟨_, _, ⟨rfl, rfl⟩, run⟩ := run
  split at run
  · exact (runs_abort run).elim
  rename_i f current
  simp only [runs_bind, runs_nativeIntegers, runs_check] at run
  obtain ⟨_, _, ⟨rfl, rfl⟩, k, _, ⟨copied, rfl⟩, var, u, added, rooted⟩ := run
  exact ⟨f, k, var, u, current, copied, added, rooted⟩

theorem declareReturn_ok {f : FuncId} (run : Runs (declareReturn f type) s () t) :
    type.isVoid = true ∧ t = s ∨ type.isVoid = false ∧ ∃ var u,
      Runs (addVariable { name := "return_var", type, storage := .functionLocal } (some f)) s var u ∧
        Runs (modifyBody f fun b => { b with returnVar := some var }) u () t := by
  unfold declareReturn at run
  split at run
  · rename_i void
    exact .inl ⟨void, (runs_pure.mp run).2⟩
  · rename_i valued
    exact .inr ⟨eq_false_of_ne_true valued, runs_bind.mp run⟩

end ShaderSSA.Lowering
