import ShaderSSA.Proofs.ParallelValues
import ShaderSSA.Proofs.WellFormed

/-!
Calls and statements, side by side. The two runs may be of two programs that declare the same: only the bodies of
their signatures may differ.
-/

namespace ShaderSSA

namespace Source

def Call.every (var : VarId → Bool) (node : ExprOp → ShaderType → Bool) (call : Call) : Bool :=
  everyOf var node call.parameters && call.result.all (Place.every var node)

mutual

/-- `var` holds of every variable that a statement refers to, and `node` of every operator and its type. -/
def Stmt.every (var : VarId → Bool) (node : ExprOp → ShaderType → Bool) : Stmt → Bool
  | .loop body => stmtsEvery var node body
  | .branch condition thenBody elseBody =>
    condition.every var node && stmtsEvery var node thenBody && stmtsEvery var node elseBody
  | .discard value | .ret value => everyIn var node value
  | .call call => call.every var node
  | .assign target value _ condition => target.every var node && value.every var node && everyIn var node condition
  | .emitVertex stream | .endPrimitive stream => stream.every var node
  | .declare _ | .function .. | .jump _ | .barrier => true

def stmtsEvery (var : VarId → Bool) (node : ExprOp → ShaderType → Bool) : List Stmt → Bool
  | [] => true
  | s :: ss => s.every var node && stmtsEvery var node ss

end

mutual

theorem Stmt.every_true : ∀ s : Stmt, s.every (fun _ => true) (fun _ _ => true) = true
  | .loop body => by rw [Stmt.every, stmtsEvery_true body]
  | .branch condition thenBody elseBody => by
    simp only [Stmt.every, condition.every_true, stmtsEvery_true thenBody, stmtsEvery_true elseBody, Bool.and_true]
  | .discard value | .ret value => by rw [Stmt.every, everyIn_true value]
  | .call call => by simp [Stmt.every, Call.every, everyOf_true, Option.all_eq_true, Place.every_true]
  | .assign target value _ condition => by
    simp only [Stmt.every, target.every_true, value.every_true, everyIn_true condition, Bool.and_true]
  | .emitVertex stream | .endPrimitive stream => by rw [Stmt.every, stream.every_true]
  | .declare _ | .function .. | .jump _ | .barrier => by rw [Stmt.every]

theorem stmtsEvery_true : ∀ ss : List Stmt, stmtsEvery (fun _ => true) (fun _ _ => true) ss = true
  | [] => by rw [stmtsEvery]
  | s :: ss => by rw [stmtsEvery, Stmt.every_true s, stmtsEvery_true ss, Bool.and_true]

end

/-- The programs declare the same variables and, but for their bodies, the same signatures. -/
structure Program.Akin (p q : Program) : Prop where
  vars : p.vars = q.vars
  signatures : p.signatures.map (fun s => { s with body := [] }) = q.signatures.map fun s => { s with body := [] }

namespace Program.Akin
variable {p q : Program}

theorem refl (p : Program) : p.Akin p := ⟨rfl, rfl⟩

theorem var? (akin : p.Akin q) (id : VarId) : p.var? id = q.var? id := by
  rw [Program.var?, Program.var?, akin.vars]

theorem signature? (akin : p.Akin q) {id : SignatureId} {a b : Signature} (found : p.signature? id = some a)
    (found' : q.signature? id = some b) : ∃ body, b = { a with body } := by
  have same := congrArg (fun xs : Array Signature => xs[id.index.toNat]?) akin.signatures
  simp only [Array.getElem?_map] at same
  rw [Program.signature?] at found found'
  rw [found, found'] at same
  exact ⟨b.body, congrArg (fun c : Signature => { c with body := b.body }) (Option.some.inj same).symm⟩

end Program.Akin

end Source

namespace Lowering
open Source Target Lower

variable {call : Source.Call} {source source' : Source.Program} {v w : ValueId} {value : Rvalue}
  {condition : Option Rvalue} {op : IntrinsicOp} {params rs : List Rvalue} {srcs srcs' : List Src}

section
variable {L : Likeness} {var : Source.VarId → Bool} {node : ExprOp → ShaderType → Bool}

/-! ### Locations -/

theorem parallel_locationChain (covers : L.Covers var node) {r : Rvalue} (every : r.every var node = true) :
    Parallel L (Chain.Alike L.toPairing) (locationChain source r) (locationChain source' r) := by
  cases r with
  | place p =>
    rw [Rvalue.every] at every
    exact parallel_placeChain covers p every
  | constant l => exact parallel_constantChain l
  | expression | swizzle | texture => exact parallel_abort

theorem parallel_locations (covers : L.Covers var node) (every : everyOf var node rs = true) :
    Parallel L (List.Forall₂ L.link) (locations source rs) (locations source' rs) := by
  induction rs with
  | nil => exact parallel_pure .nil
  | cons r rs ih =>
    rw [everyOf, Bool.and_eq_true] at every
    refine parallel_bind (parallel_locationChain covers every.1) fun chains => ?_
    exact parallel_bind (ih every.2) fun rest => parallel_pure (.cons chains.head rest)

/-! ### Calls -/

theorem resolveFunction_alike {s t : State} (alike : L.alike s t) {id : SignatureId} {f g : FuncId}
    (found : s.scope.resolveFunction source id = .ok f) (found' : t.scope.resolveFunction source' id = .ok g) :
    f = g ∧ L.function f :=
  L.callees alike (resolveFunction_ok found) (resolveFunction_ok found')

theorem parallel_callFunction (covers : L.Covers var node) (every : call.every var node = true) :
    Parallel L (fun _ _ => True) (callFunction source call) (callFunction source' call) := by
  obtain ⟨callee, parameters, result⟩ := call
  simp only [Call.every, Bool.and_eq_true] at every
  unfold callFunction
  have callees : ∀ {s t : State}, L.alike s t → Parallel L (fun f g => f = g ∧ L.function f)
      (check (s.scope.resolveFunction source callee)) (check (t.scope.resolveFunction source' callee)) :=
    fun alike => parallel_check (resolveFunction_alike alike)
  cases result with
  | none =>
    refine parallel_bind parallel_scope ?_
    rintro _ _ ⟨s, t, alike, rfl, rfl⟩
    refine parallel_bind (callees alike) ?_
    rintro f _ ⟨rfl, known⟩
    exact parallel_bind (parallel_locations covers every.1) fun params =>
      parallel_emitEffect (.call known params .none)
  | some place =>
    refine parallel_bind parallel_scope ?_
    rintro _ _ ⟨s, t, alike, rfl, rfl⟩
    refine parallel_bind (callees alike) ?_
    rintro f _ ⟨rfl, known⟩
    refine parallel_bind (parallel_locations covers every.1) fun params => ?_
    exact parallel_bind (parallel_placeChain covers place every.2) fun chains =>
      parallel_emitEffect (.call known params (.some chains.head))

theorem parallel_valueSources (covers : L.Covers var node) (every : everyOf var node rs = true) :
    Parallel L (List.Forall₂ (Src.Alike L.toPairing)) (valueSources source rs) (valueSources source' rs) := by
  refine parallel_bind (parallel_evaluateAll covers rs every) fun values => parallel_pure ?_
  rw [List.forall₂_map_left_iff, List.forall₂_map_right_iff]
  exact values.imp fun _ _ value => .ssa value

theorem parallel_emitUndef : Parallel L L.value emitUndef emitUndef := parallel_emitValue .undef fun _ => rfl

theorem coordinateLanes_alike {pad pad' : ValueId} (values : L.value v w) (pads : L.value pad pad') (used : UInt8) :
    List.Forall₂ (AluSrc.Alike L.toPairing) (coordinateLanes v used pad) (coordinateLanes w used pad') := by
  have lane : ∀ i, AluSrc.Alike L.toPairing (if i < used then ⟨v, .all i⟩ else ⟨pad, .all 0⟩)
      (if i < used then ⟨w, .all i⟩ else ⟨pad', .all 0⟩) := by
    intro i
    split
    · exact ⟨values, rfl⟩
    · exact ⟨pads, rfl⟩
  exact .cons (lane 0) (.cons (lane 1) (.cons (lane 2) (.cons (lane 3) .nil)))

theorem parallel_imageCoordinate (values : L.value v w) (used : UInt8) :
    Parallel L (fun a b => L.value a.1 b.1 ∧ Option.Rel L.value a.2 b.2) (imageCoordinate v used)
      (imageCoordinate w used) := by
  refine parallel_bind (parallel_valueDef values) fun {d e} shapes => ?_
  rw [shapes.width]
  refine parallel_unless fun _ => parallel_ite (fun _ => ?_) fun _ => ?_
  · refine parallel_bind parallel_emitUndef fun pads => ?_
    refine parallel_bind (parallel_emitValue (.alu (fun _ => rfl) (coordinateLanes_alike values pads used))
      shapes.bitSize) fun wide => ?_
    exact parallel_pure ⟨wide, .some pads⟩
  · refine parallel_bind (parallel_emitValue (.alu (fun _ => rfl) (coordinateLanes_alike values values used))
      shapes.bitSize) fun wide => ?_
    exact parallel_pure ⟨wide, .none⟩

theorem parallel_emitResult (operands : List.Forall₂ (Src.Alike L.toPairing) srcs srcs') (indices : Indices)
    (width : UInt8) {bits bits' : UInt8} (sizes : L.sameMode → bits = bits') :
    Parallel L (Option.Rel L.value) (emitResult op srcs indices width bits) (emitResult op srcs' indices width bits') :=
  parallel_bind (parallel_emitValue (.intrinsic operands) sizes) fun values => parallel_pure (.some values)

theorem parallel_emitNoResult (operands : List.Forall₂ (Src.Alike L.toPairing) srcs srcs') (indices : Indices) :
    Parallel L (Option.Rel L.value) (emitNoResult op srcs indices) (emitNoResult op srcs' indices) :=
  parallel_bind (parallel_emitEffect (.intrinsic operands)) fun _ => parallel_pure .none

theorem parallel_imageOperation (covers : L.Covers var node) (op : IntrinsicOp)
    (result : Option ShaderType) {c d : Chain} (chains : c.Alike L.toPairing d) {sample sample' : ValueId}
    (coordinates : L.value v w) {data : List Rvalue} (every : everyOf var node data = true)
    (samples : L.value sample sample') : Parallel L (Option.Rel L.value)
      (do
        let data ← valueSources source data
        match result with
        | some type => emitResult op (.location c.head :: .ssa v :: .ssa sample :: data) {} type.rows 32
        | none => emitNoResult op (.location c.head :: .ssa v :: .ssa sample :: data) {})
      (do
        let data ← valueSources source' data
        match result with
        | some type => emitResult op (.location d.head :: .ssa w :: .ssa sample' :: data) {} type.rows 32
        | none => emitNoResult op (.location d.head :: .ssa w :: .ssa sample' :: data) {}) := by
  refine parallel_bind_of (parallel_valueSources covers every) fun {rest rest'} operands => ?_
  have sources : List.Forall₂ (Src.Alike L.toPairing) (.location c.head :: .ssa v :: .ssa sample :: rest)
      (.location d.head :: .ssa w :: .ssa sample' :: rest') :=
    .cons (.location chains.head) (.cons (.ssa coordinates) (.cons (.ssa samples) operands))
  cases result with
  | none => exact parallel_emitNoResult sources _
  | some type => exact parallel_emitResult sources _ _ fun _ => rfl

theorem parallel_imageAccess (covers : L.Covers var node) (id : IntrinsicId)
    (op : IntrinsicOp) (image : ImageType) (result : Option ShaderType) (every : everyOf var node params = true) :
    Parallel L (Option.Rel L.value) (imageAccess source id op image result params)
      (imageAccess source' id op image result params) := by
  unfold imageAccess emitUndef
  split
  · rename_i target coordinate rest
    simp only [everyOf, Bool.and_eq_true] at every
    obtain ⟨ofTarget, ofCoordinate, ofRest⟩ := every
    refine parallel_bind_of (parallel_locationChain covers ofTarget) fun chains => ?_
    refine parallel_bind_of (parallel_evaluate covers coordinate ofCoordinate) fun values => ?_
    refine parallel_bind_of (parallel_imageCoordinate values image.coordinateComponents) ?_
    rintro ⟨v, pad⟩ ⟨w, pad'⟩ ⟨wide, pads⟩
    dsimp only
    split
    · rename_i sample data _
      simp only [everyOf, Bool.and_eq_true] at ofRest
      exact parallel_bind_of (parallel_evaluate covers sample ofRest.1) fun samples =>
        parallel_imageOperation covers op result chains wide ofRest.2 samples
    · cases pads with
      | some pads => exact parallel_imageOperation covers op result chains wide ofRest pads
      | none =>
        exact parallel_bind_of (parallel_emitValue .undef fun _ => rfl) fun pads =>
          parallel_imageOperation covers op result chains wide ofRest pads
  · exact parallel_abort

theorem parallel_memoryStore (covers : L.Covers var node) (id : IntrinsicId)
    (op : IntrinsicOp) (base : Option Int32) {address : List Rvalue} (mask : Rvalue)
    (every : everyOf var node address = true) (every' : value.every var node = true) :
    Parallel L (Option.Rel L.value) (memoryStore source id op base address value mask)
      (memoryStore source' id op base address value mask) := by
  unfold memoryStore
  refine parallel_bind (parallel_valueSources covers every) fun operands => ?_
  refine parallel_bind (parallel_evaluate covers value every') fun values => ?_
  refine parallel_bind (parallel_check_same _) ?_
  rintro mask _ rfl
  refine parallel_bind (parallel_valueDef values) fun shapes => ?_
  rw [shapes.width]
  exact parallel_emitNoResult (.cons (.ssa values) operands) _

theorem parallel_applyRecipe (covers : L.Covers var node) (id : IntrinsicId)
    (op : IntrinsicOp) (recipe : Recipe) (result : Option ShaderType) (every : everyOf var node params = true) :
    Parallel L (Option.Rel L.value) (applyRecipe source id op recipe result params)
      (applyRecipe source' id op recipe result params) := by
  unfold applyRecipe
  split
  case h_8 | h_9 | h_11 =>
    refine parallel_bind (parallel_valueSources covers every) fun operands => ?_
    refine parallel_bind (parallel_check_same _) ?_
    rintro type _ rfl
    exact parallel_emitResult operands _ _ fun _ => rfl
  case h_12 | h_13 =>
    exact parallel_bind (parallel_valueSources covers every) fun operands =>
      parallel_emitResult operands _ _ fun _ => rfl
  case h_14 | h_15 =>
    rw [everyOf, Bool.and_eq_true] at every
    refine parallel_bind (parallel_evaluate covers _ every.1) fun values => ?_
    refine parallel_bind (parallel_valueSources covers every.2) fun operands => ?_
    refine parallel_bind (parallel_valueDef values) fun shapes => ?_
    rw [shapes.width]
    exact parallel_emitResult (.cons (.ssa values) operands) _ _ shapes.bitSize
  · rw [everyOf, Bool.and_eq_true] at every
    refine parallel_bind (parallel_locationChain covers every.1) fun chains => ?_
    refine parallel_bind (parallel_valueSources covers every.2) fun operands => ?_
    exact parallel_emitResult (.cons (.location chains.head) operands) _ _ fun _ => rfl
  · refine parallel_bind (parallel_check_same _) ?_
    rintro image _ rfl
    exact parallel_imageAccess covers id op image result every
  · rw [everyOf, Bool.and_eq_true] at every
    refine parallel_bind (parallel_locationChain covers every.1) fun chains => ?_
    refine parallel_bind (parallel_check_same _) ?_
    rintro type _ rfl
    exact parallel_emitResult (.cons (.location chains.head) .nil) _ _ fun _ => rfl
  · exact parallel_emitNoResult .nil _
  · exact parallel_emitResult .nil _ _ fun _ => rfl
  · refine parallel_bind (parallel_check_same _) ?_
    rintro type _ rfl
    refine parallel_bind (parallel_valueSources covers every) fun operands => ?_
    refine parallel_bind parallel_nativeIntegers fun modes => ?_
    refine parallel_bind (parallel_emitLoad _ (.intrinsic operands) _ fun same => by rw [modes same]) fun values => ?_
    exact parallel_pure (.some values)
  · simp only [everyOf, Bool.and_eq_true] at every
    exact parallel_memoryStore covers id op none _ (by simp [everyOf, every]) every.2.2.1
  · simp only [everyOf, Bool.and_eq_true] at every
    exact parallel_memoryStore covers id op _ _ (by simp [everyOf, every]) every.2.1
  · exact parallel_abort

theorem parallel_callIntrinsic (covers : L.Covers var node) (id : IntrinsicId) (every : call.every var node = true) :
    Parallel L (fun _ _ => True) (callIntrinsic source id call) (callIntrinsic source' id call) := by
  obtain ⟨callee, parameters, result⟩ := call
  simp only [Call.every, Bool.and_eq_true] at every
  unfold callIntrinsic
  refine parallel_bind_of (parallel_check_same _) ?_
  rintro op _ rfl
  refine parallel_bind_of (parallel_check_same _) ?_
  rintro arity _ rfl
  refine parallel_bind_of (parallel_check_same _) fun _ => ?_
  refine parallel_bind_of (parallel_applyRecipe covers id op _ _ every.1) fun values => ?_
  cases result with
  | none => exact parallel_pure trivial
  | some place =>
    cases values with
    | none => exact parallel_abort
    | some values =>
      refine parallel_bind (parallel_placeChain covers place every.2) fun chains => ?_
      refine parallel_bind (parallel_valueDef values) fun shapes => ?_
      rw [shapes.width]
      refine parallel_bind (parallel_check_same _) ?_
      rintro mask _ rfl
      exact parallel_storeLocation chains.head values mask

theorem parallel_lowerCall (covers : L.Covers var node) (akin : source.Akin source')
    (every : call.every var node = true) :
    Parallel L (fun _ _ => True) (lowerCall source call) (lowerCall source' call) := by
  have same : ∀ {a b}, source.getSignature call.callee = .ok a → source'.getSignature call.callee = .ok b →
      a.intrinsic = b.intrinsic := by
    intro a b found found'
    obtain ⟨_, rfl⟩ := akin.signature? (getSignature_ok.mp found) (getSignature_ok.mp found')
    rfl
  unfold lowerCall
  refine parallel_bind_of (parallel_check same) fun {a b} same => ?_
  rw [same]
  cases b.intrinsic with
  | none => exact parallel_callFunction covers every
  | some id => exact parallel_callIntrinsic covers id every

/-! ### Declarations and assignments -/

theorem initializerOf_shape {native native' : Bool} {literal : Option Literal} {a b : Option Constant}
    (found : initializerOf native literal = .ok a) (found' : initializerOf native' literal = .ok b) :
    a.map Constant.shape = b.map Constant.shape := by
  cases literal with
  | none =>
    obtain rfl := Except.ok.inj found
    obtain rfl := Except.ok.inj found'
    rfl
  | some l =>
    obtain ⟨c, first, last⟩ := bind_eq_ok.mp found
    obtain ⟨d, second, last'⟩ := bind_eq_ok.mp found'
    rw [← pure_eq_ok.mp last, ← pure_eq_ok.mp last', Option.map_some, Option.map_some,
      constantOf_shape l first second]

/-- The variable may be declared. -/
def Likeness.Declares (L : Likeness) (source : Source.Program) (id : Source.VarId) : Prop :=
  L.binds id ∧ ∀ decl, source.var? id = some decl → L.stores (storageOf decl L.current)

theorem parallel_declare (akin : source.Akin source') {id : Source.VarId} (declares : L.Declares source id) :
    Parallel L L.var (declare source id) (declare source' id) := by
  intro s v s' t w t' run run' small small' alike
  simp only [declare, runs_bind, runs_check, runs_scope, runs_nativeIntegers, runs_setScope, runs_report, runs_pure,
    getVariable_ok] at run run'
  obtain ⟨decl, _, ⟨found, rfl⟩, _, _, ⟨rfl, rfl⟩, _, _, ⟨rfl, rfl⟩, a, _, ⟨given, rfl⟩, _, _, added, _, _,
    ⟨rfl, rfl⟩, scope, _, ⟨bound, rfl⟩, _, _, rfl, _, _, rfl, _, _, rfl, rfl, rfl⟩ := run
  obtain ⟨_, _, ⟨found', rfl⟩, _, _, ⟨rfl, rfl⟩, _, _, ⟨rfl, rfl⟩, b, _, ⟨given', rfl⟩, _, _, added', _, _,
    ⟨rfl, rfl⟩, scope', _, ⟨bound', rfl⟩, _, _, rfl, _, _, rfl, _, _, rfl, rfl, rfl⟩ := run'
  obtain rfl := Option.some.inj (found.symm.trans ((akin.var? id).trans found'))
  obtain ⟨inside, inside'⟩ := L.inside alike
  rw [inside] at added
  rw [inside'] at added'
  have initializers : L.sameMode → a = b := by
    intro same
    rw [L.mode alike same] at given
    exact Except.ok.inj (given.symm.trans given')
  have adds := fun vars => parallel_addVariable vars (declares.2 decl found) added added' small small' alike
  obtain ⟨vars, alike⟩ := adds ⟨rfl, initializerOf_shape given given', initializers, by rintro f ⟨⟩⟩
  obtain ⟨p, -, rfl⟩ := addVariable_ok added
  obtain ⟨q, -, rfl⟩ := addVariable_ok added'
  exact ⟨vars, L.log (L.log (L.bind alike declares.1 vars bound bound'))⟩

theorem parallel_guarded (covers : L.Covers var node)
    (every : everyIn var node condition = true) {m n : Lower Unit} [Grows m] [Grows n]
    (emission : Parallel L (fun _ _ => True) m n) :
    Parallel L (fun _ _ => True) (guarded source condition m) (guarded source' condition n) := by
  cases condition with
  | none => exact emission
  | some c =>
    rw [everyIn] at every
    refine parallel_bind (parallel_evaluate covers c every) fun conditions => ?_
    exact parallel_bind (parallel_inRegion emission) fun nodes => parallel_push (.branch conditions nodes .nil)

theorem parallel_assign (covers : L.Covers var node) {target : Place} (mask : UInt8)
    (ofTarget : target.every var node = true) (ofValue : value.every var node = true)
    (ofCondition : everyIn var node condition = true) :
    Parallel L (fun _ _ => True) (assign source target value mask condition)
      (assign source' target value mask condition) := by
  unfold assign
  refine parallel_bind (parallel_check_same _) ?_
  rintro full _ rfl
  refine parallel_ite (fun _ => ?_) fun _ => ?_
  · refine parallel_bind (parallel_placeChain covers target ofTarget) fun dsts => ?_
    refine parallel_bind (parallel_locationChain covers ofValue) fun srcs => ?_
    exact parallel_guarded covers ofCondition (parallel_copyLocation dsts.head srcs.head)
  · refine parallel_bind (parallel_placeChain covers target ofTarget) fun dsts => ?_
    refine parallel_bind (parallel_evaluate covers value ofValue) fun values => ?_
    refine parallel_ite (fun _ => ?_) fun _ => ?_
    · exact parallel_guarded covers ofCondition (parallel_storeLocation dsts.head values _)
    · exact parallel_bind (parallel_reorder values _ _) fun values =>
        parallel_guarded covers ofCondition (parallel_storeLocation dsts.head values _)

/-! ### Returns -/

theorem parallel_returnVariable : Parallel L L.var returnVariable returnVariable := by
  intro s v _ t w _ run run' _ _ alike
  obtain ⟨rfl, found⟩ := returnVariable_ok run
  obtain ⟨rfl, found'⟩ := returnVariable_ok run'
  refine ⟨?_, alike⟩
  obtain ⟨inside, inside'⟩ := L.inside alike
  simp only [State.returnVar?, inside, Option.bind_eq_some_iff] at found
  simp only [State.returnVar?, inside', Option.bind_eq_some_iff] at found'
  obtain ⟨f, current, ⟨_, ns⟩, code, rfl⟩ := found
  obtain ⟨g, current', ⟨_, ns'⟩, code', rfl⟩ := found'
  obtain rfl := Option.some.inj (current.symm.trans current')
  exact L.returned alike current code code'

theorem parallel_storeReturn (covers : L.Covers var node) (every : value.every var node = true) :
    Parallel L (fun _ _ => True) (storeReturn source value) (storeReturn source' value) := by
  unfold storeReturn
  refine parallel_bind parallel_returnVariable fun vars => ?_
  refine parallel_bind parallel_program ?_
  rintro _ _ ⟨s, t, alike, rfl, rfl⟩
  refine parallel_bind (parallel_check (getVariable_alike alike vars)) fun {x y} found => ?_
  rw [found.type]
  refine parallel_ite (fun _ => ?_) fun _ => ?_
  · refine parallel_bind (parallel_rootChain vars _) fun dsts => ?_
    refine parallel_bind (parallel_locationChain covers every) fun srcs => ?_
    exact parallel_copyLocation dsts.head srcs.head
  · refine parallel_bind (parallel_evaluate covers value every) fun values => ?_
    refine parallel_bind (parallel_rootChain vars _) fun dsts => ?_
    refine parallel_bind (parallel_valueDef values) fun shapes => ?_
    rw [shapes.width]
    refine parallel_bind (parallel_check_same _) ?_
    rintro mask _ rfl
    exact parallel_storeLocation dsts.head values mask

/-! ### Statements -/

theorem parallel_discard {op op' : Operation} (ops : op.Alike L.toPairing op') :
    Parallel L (fun _ _ => True) (do
      emitEffect op
      let p ← program
      setProgram { p with info := { p.info with usesDiscard := true } }) (do
      emitEffect op'
      let p ← program
      setProgram { p with info := { p.info with usesDiscard := true } }) := by
  refine parallel_bind (parallel_emitEffect ops) fun _ => ?_
  intro s _ _ t _ _ run run' _ _ alike
  simp only [runs_bind, runs_program, runs_setProgram] at run run'
  obtain ⟨_, _, ⟨rfl, rfl⟩, rfl⟩ := run
  obtain ⟨_, _, ⟨rfl, rfl⟩, rfl⟩ := run'
  exact ⟨trivial, L.discards alike⟩

theorem parallel_emitStream (op : IntrinsicOp) (kind : String) (stream : Rvalue) :
    Parallel L (fun _ _ => True) (emitStream op kind stream) (emitStream op kind stream) := by
  unfold emitStream
  cases stream.word? with
  | none => exact parallel_abort
  | some word => exact parallel_emitEffect (.intrinsic .nil)

mutual

/-- A statement is lowered in step if it only refers to what is visible and only declares what may be declared. -/
theorem parallel_lowerStmt (covers : L.Covers var node) (akin : source.Akin source') :
    ∀ stmt : Stmt, stmt.every var node = true →
    (∀ id ∈ stmt.declared, L.Declares source id) →
    Parallel L (fun _ _ => True) (lowerStmt source stmt) (lowerStmt source' stmt)
  | .declare id, _, declares => by
    unfold lowerStmt
    exact parallel_bind (parallel_declare akin (declares id (by simp [Stmt.declared]))) fun _ => parallel_pure trivial
  | .function .., _, _ => by
    unfold lowerStmt
    exact parallel_abort
  | .loop body, every, declares => by
    rw [Stmt.every] at every
    rw [Stmt.declared] at declares
    unfold lowerStmt
    exact parallel_bind (parallel_inRegion (parallel_lowerStmts covers akin body every declares)) fun nodes =>
      parallel_push (.loop nodes)
  | .branch condition thenBody elseBody, every, declares => by
    simp only [Stmt.every, Bool.and_eq_true] at every
    simp only [Stmt.declared, List.mem_append, or_imp, forall_and] at declares
    unfold lowerStmt
    refine parallel_bind (parallel_evaluate covers condition every.1.1) fun conditions => ?_
    have thenPart := parallel_lowerStmts covers akin thenBody every.1.2 declares.1
    have elsePart := parallel_lowerStmts covers akin elseBody every.2 declares.2
    refine parallel_bind (parallel_inRegion thenPart) fun first => ?_
    refine parallel_bind (parallel_inRegion elsePart) fun second => ?_
    exact parallel_push (.branch conditions first second)
  | .discard none, _, _ => by
    unfold lowerStmt
    exact parallel_discard (.intrinsic .nil)
  | .discard (some c), every, _ => by
    rw [Stmt.every, everyIn] at every
    unfold lowerStmt
    exact parallel_bind (parallel_evaluate covers c every) fun conditions =>
      parallel_discard (.intrinsic (.cons (.ssa conditions) .nil))
  | .jump _, _, _ | .ret none, _, _ => by
    unfold lowerStmt
    exact parallel_emitEffect .jump
  | .ret (some r), every, _ => by
    rw [Stmt.every, everyIn] at every
    unfold lowerStmt
    exact parallel_bind (parallel_storeReturn covers every) fun _ => parallel_emitEffect .jump
  | .call call, every, _ => by
    rw [Stmt.every] at every
    unfold lowerStmt
    exact parallel_lowerCall covers akin every
  | .assign target value mask condition, every, _ => by
    simp only [Stmt.every, Bool.and_eq_true] at every
    unfold lowerStmt
    exact parallel_assign covers mask every.1.1 every.1.2 every.2
  | .emitVertex stream, _, _ | .endPrimitive stream, _, _ => by
    unfold lowerStmt
    exact parallel_emitStream _ _ stream
  | .barrier, _, _ => by
    unfold lowerStmt
    exact parallel_emitEffect (.intrinsic .nil)

theorem parallel_lowerStmts (covers : L.Covers var node)
    (akin : source.Akin source') : ∀ stmts : List Stmt, stmtsEvery var node stmts = true →
    (∀ id ∈ stmtsDeclared stmts, L.Declares source id) →
    Parallel L (fun _ _ => True) (lowerStmts source stmts) (lowerStmts source' stmts)
  | [], _, _ => by
    unfold lowerStmts
    exact parallel_pure trivial
  | stmt :: stmts, every, declares => by
    simp only [stmtsEvery, Bool.and_eq_true] at every
    simp only [stmtsDeclared, List.mem_append, or_imp, forall_and] at declares
    unfold lowerStmts
    exact parallel_bind (parallel_lowerStmt covers akin stmt every.1 declares.1) fun _ =>
      parallel_lowerStmts covers akin stmts every.2 declares.2

end

end

end Lowering

end ShaderSSA
