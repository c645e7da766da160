import ShaderSSA.Proofs.Operators
import ShaderSSA.Proofs.Parallel

/-!
Values and places, side by side. A value must only refer to variables that are visible to the likeness, and only
runs for the same mode may convert to booleans: without native integers such a conversion takes two instructions.
-/

namespace ShaderSSA

namespace Source

/-! ### Variables and operators of a value -/

mutual

/-- `var` holds of every variable in the value, and `node` of every operator and the type of its result. -/
def Rvalue.every (var : VarId → Bool) (node : ExprOp → ShaderType → Bool) : Rvalue → Bool
  | .place p => p.every var node
  | .constant _ => true
  | .swizzle value _ _ => value.every var node
  | .texture t => t.every var node
  | .expression op type operands => node op type && everyOf var node operands

def everyOf (var : VarId → Bool) (node : ExprOp → ShaderType → Bool) : List Rvalue → Bool
  | [] => true
  | r :: rs => r.every var node && everyOf var node rs

def Place.every (var : VarId → Bool) (node : ExprOp → ShaderType → Bool) : Place → Bool
  | .var id _ => var id
  | .field record _ _ => record.every var node
  | .element array index _ => array.every var node && index.every var node

def Texture.every (var : VarId → Bool) (node : ExprOp → ShaderType → Bool) : Texture → Bool
  | ⟨_, _, sampler, coordinate, projector, comparator, offset, lod⟩ =>
    sampler.every var node && everyIn var node coordinate && everyIn var node projector &&
      everyIn var node comparator && everyIn var node offset && lod.every var node

def everyIn (var : VarId → Bool) (node : ExprOp → ShaderType → Bool) : Option Rvalue → Bool
  | none => true
  | some r => r.every var node

def LodInfo.every (var : VarId → Bool) (node : ExprOp → ShaderType → Bool) : LodInfo → Bool
  | .absent => true
  | .bias r | .lod r | .sampleIndex r | .component r => r.every var node
  | .grad dpdx dpdy => dpdx.every var node && dpdy.every var node

end

mutual

theorem Rvalue.every_true : ∀ r : Rvalue, r.every (fun _ => true) (fun _ _ => true) = true
  | .place p => by rw [Rvalue.every, Place.every_true p]
  | .constant _ => by rw [Rvalue.every]
  | .swizzle value _ _ => by rw [Rvalue.every, Rvalue.every_true value]
  | .texture t => by rw [Rvalue.every, Texture.every_true t]
  | .expression _ _ operands => by rw [Rvalue.every, everyOf_true operands, Bool.and_true]

theorem everyOf_true : ∀ rs : List Rvalue, everyOf (fun _ => true) (fun _ _ => true) rs = true
  | [] => by rw [everyOf]
  | r :: rs => by rw [everyOf, Rvalue.every_true r, everyOf_true rs, Bool.and_true]

theorem Place.every_true : ∀ p : Place, p.every (fun _ => true) (fun _ _ => true) = true
  | .var _ _ => by rw [Place.every]
  | .field record _ _ => by rw [Place.every, Place.every_true record]
  | .element array index _ => by rw [Place.every, Place.every_true array, Rvalue.every_true index, Bool.and_true]

theorem Texture.every_true : ∀ t : Texture, t.every (fun _ => true) (fun _ _ => true) = true
  | ⟨_, _, sampler, coordinate, projector, comparator, offset, lod⟩ => by
    simp only [Texture.every, Place.every_true sampler, everyIn_true coordinate, everyIn_true projector,
      everyIn_true comparator, everyIn_true offset, LodInfo.every_true lod, Bool.and_true]

theorem everyIn_true : ∀ r : Option Rvalue, everyIn (fun _ => true) (fun _ _ => true) r = true
  | none => by rw [everyIn]
  | some r => by rw [everyIn, Rvalue.every_true r]

theorem LodInfo.every_true : ∀ l : LodInfo, l.every (fun _ => true) (fun _ _ => true) = true
  | .absent => by rw [LodInfo.every]
  | .bias r | .lod r | .sampleIndex r | .component r => by rw [LodInfo.every, Rvalue.every_true r]
  | .grad dpdx dpdy => by rw [LodInfo.every, Rvalue.every_true dpdx, Rvalue.every_true dpdy, Bool.and_true]

end

end Source

namespace Lowering
open Source Target Lower

variable {v w : ValueId} {vs ws : List ValueId} {native : Bool}

/-- What `var` and `node` hold of can be lowered in step. -/
structure Likeness.Covers (L : Likeness) (var : Source.VarId → Bool) (node : ExprOp → ShaderType → Bool) : Prop where
  vars : ∀ {id}, var id = true → L.visible id
  conversions : ∀ {type}, node .convert type = true → L.sameMode ∨ type.baseType? ≠ some .bool

/-! ### Constants -/

theorem shapesOf_eq {R R' : Literal → Constant → Prop} {ls : List Literal} {cs cs' : List Constant}
    (h : List.Forall₂ R ls cs) (h' : List.Forall₂ R' ls cs')
    (each : ∀ l ∈ ls, ∀ {c c'}, R l c → R' l c' → c.shape = c'.shape) : shapesOf cs = shapesOf cs' := by
  induction h generalizing cs' with
  | nil => cases h'; rfl
  | cons first _ ih =>
    cases h' with
    | cons first' rest' =>
      rw [shapesOf, shapesOf, each _ List.mem_cons_self first first',
        ih rest' fun l member => each l (List.mem_cons_of_mem _ member)]

theorem constantOf_shape {native' : Bool} (l : Literal) {c c' : Constant} (h : constantOf native l = .ok c)
    (h' : constantOf native' l = .ok c') : c.shape = c'.shape := by
  induction l using Literal.nesting generalizing c c' with
  | components type scalars =>
    obtain ⟨_, bits, -, -, -, rfl, patterns⟩ := constantOf_components h
    obtain ⟨_, bits', -, -, -, rfl, patterns'⟩ := constantOf_components h'
    simp [Constant.shape, List.map_const', ← patterns.length_eq, ← patterns'.length_eq]
  | aggregate type elements ih =>
    obtain ⟨-, cs, rfl, each⟩ := constantOf_aggregate.mp h
    obtain ⟨-, cs', rfl, each'⟩ := constantOf_aggregate.mp h'
    rw [Constant.shape, Constant.shape, shapesOf_eq each each' ih]

section
variable {L : Likeness}

/-! ### Loads and stores -/

theorem parallel_emitZero : Parallel L L.value emitZero emitZero := parallel_emitValue .loadConst fun _ => rfl

theorem parallel_nonzeroTest {raw raw' zero zero' : ValueId} (raws : L.value raw raw') (zeros : L.value zero zero') :
    Parallel L L.value (nonzeroTest raw zero) (nonzeroTest raw' zero') := by
  refine parallel_bind (parallel_valueDef raws) fun shapes => ?_
  rw [shapes.width]
  exact parallel_emitValue (.alu (fun _ => rfl) (.cons ⟨raws, rfl⟩ (.cons ⟨zeros, rfl⟩ .nil))) fun _ => rfl

theorem parallel_emitLoad (raw : Bool) {op op' : Operation} (ops : op.Alike L.toPairing op') (width : UInt8)
    {bits bits' : UInt8} (sizes : L.sameMode → bits = bits') :
    Parallel L L.value (emitLoad raw op width bits) (emitLoad raw op' width bits') := by
  refine parallel_ite (fun _ => ?_) fun _ => parallel_emitValue ops sizes
  refine parallel_bind parallel_emitZero fun zeros => ?_
  exact parallel_bind (parallel_emitValue ops sizes) fun values => parallel_nonzeroTest values zeros

theorem rootVar_ok {links : Links} {head : LinkId} {v : Target.VarId} (found : links.rootVar head = .ok v) :
    ∃ l, links[head.index.toNat]? = some l ∧ l.kind = .var v := by
  cases there : links[head.index.toNat]? with
  | none => simp [Links.rootVar, Links.get, there] at found
  | some l =>
    refine ⟨l, rfl, ?_⟩
    cases kind : l.kind <;> simp_all [Links.rootVar, Links.get]

theorem rootVar_alike {s t : State} (alike : L.alike s t) {a b : LinkId} (heads : L.link a b) {v w : Target.VarId}
    (found : s.program.links.rootVar a = .ok v) (found' : t.program.links.rootVar b = .ok w) : L.var v w := by
  obtain ⟨l, there, kind⟩ := rootVar_ok found
  obtain ⟨l', there', kind'⟩ := rootVar_ok found'
  have kinds := (L.links alike heads there there').kind
  rw [kind, kind'] at kinds
  cases kinds with
  | var vars => exact vars

theorem getVariable_alike {s t : State} (alike : L.alike s t) {v w : Target.VarId} (vars : L.var v w) {x y : Variable}
    (found : s.program.getVariable v = .ok x) (found' : t.program.getVariable w = .ok y) : x.Alike L.toPairing y := by
  have looked : ∀ {p : Target.Program} {v : Target.VarId} {x : Variable}, p.getVariable v = .ok x →
      p.var? v = some x := by
    intro p v x found
    cases there : p.var? v <;> simp_all [Target.Program.getVariable]
  exact L.vars alike vars (looked found) (looked found')

theorem parallel_loadLocation {a b : LinkId} (heads : L.link a b) (type : ShaderType) :
    Parallel L L.value (loadLocation type a) (loadLocation type b) := by
  refine parallel_bind parallel_program ?_
  rintro _ _ ⟨s, t, alike, rfl, rfl⟩
  refine parallel_bind (parallel_check (rootVar_alike alike heads)) fun vars => ?_
  refine parallel_bind (parallel_check (getVariable_alike alike vars)) fun {x y} alike => ?_
  rw [alike.storage]
  refine parallel_bind parallel_nativeIntegers fun {n n'} modes => ?_
  exact parallel_emitLoad _ (.intrinsic (.cons (.location heads) .nil)) _ fun same => by rw [modes same]

theorem parallel_storeLocation {a b : LinkId} (heads : L.link a b) (values : L.value v w) (mask : UInt8) :
    Parallel L (fun _ _ => True) (storeLocation a v mask) (storeLocation b w mask) := by
  refine parallel_bind (parallel_valueDef values) fun shapes => ?_
  rw [shapes.width]
  exact parallel_emitEffect (.intrinsic (.cons (.location heads) (.cons (.ssa values) .nil)))

theorem parallel_copyLocation {dst dst' src src' : LinkId} (dsts : L.link dst dst') (srcs : L.link src src') :
    Parallel L (fun _ _ => True) (copyLocation dst src) (copyLocation dst' src') :=
  parallel_emitEffect (.intrinsic (.cons (.location dsts) (.cons (.location srcs) .nil)))

theorem parallel_checkLoadable (type : ShaderType) :
    Parallel L (fun _ _ => True) (checkLoadable type) (checkLoadable type) :=
  parallel_ite (fun _ => parallel_abort) fun _ => parallel_pure trivial

theorem parallel_constantChain (literal : Literal) :
    Parallel L (Chain.Alike L.toPairing) (constantChain literal) (constantChain literal) := by
  refine parallel_bind_of parallel_scope ?_
  rintro _ _ ⟨s, t, alike, rfl, rfl⟩
  rw [(L.inside alike).1, (L.inside alike).2]
  cases current : L.current with
  | none => exact parallel_abort
  | some f =>
    refine parallel_bind parallel_nativeIntegers fun modes => ?_
    refine parallel_bind (R := fun a b => (L.sameMode → a = b) ∧ a.shape = b.shape) (parallel_check ?_) fun same => ?_
    · intro a b found found'
      refine ⟨fun same => ?_, constantOf_shape literal found found'⟩
      rw [modes same] at found
      exact Except.ok.inj (found.symm.trans found')
    · rw [← current]
      refine parallel_bind (parallel_addVariable ?_ L.temporary) fun vars => parallel_rootChain vars _
      exact ⟨rfl, congrArg some same.2, fun mode => congrArg some (same.1 mode), nofun⟩

/-! ### Computations -/

theorem parallel_reorder (values : L.value v w) (lanes : Lanes) (width : UInt8) :
    Parallel L L.value (reorder v lanes width) (reorder w lanes width) := by
  refine parallel_bind_of (parallel_valueDef values) fun {d e} shapes => ?_
  rw [shapes.width]
  refine parallel_ite (fun _ => parallel_pure values) fun _ => ?_
  split
  · exact parallel_abort
  · refine parallel_bind parallel_nativeIntegers fun modes => ?_
    exact parallel_emitValue (.alu (fun same => by rw [modes same]) (.cons ⟨values, rfl⟩ .nil)) shapes.bitSize

theorem parallel_convert (values : L.value v w) (src : ShaderType) {dst : ShaderType}
    (single : L.sameMode ∨ dst.baseType? ≠ some .bool) :
    Parallel L L.value (convert src dst v) (convert src dst w) := by
  unfold convert
  split
  · rename_i srcBase dstBase _ isDst
    dsimp only
    refine parallel_bind (parallel_valueDef values) fun {d e} shapes => ?_
    rw [shapes.width]
    refine parallel_bind parallel_nativeIntegers fun {n n'} modes => ?_
    have one : ∀ {op op' bits bits'}, (L.sameMode → op = op' ∧ bits = bits') → Parallel L L.value
        (emitValue (.alu op [.broadcast v e.width]) dst.rows bits)
        (emitValue (.alu op' [.broadcast w e.width]) dst.rows bits') := fun same =>
      parallel_emitValue (.alu (fun mode => (same mode).1) (.cons ⟨values, rfl⟩ .nil)) fun mode => (same mode).2
    rcases single with same | other
    · rw [modes same]
      refine parallel_ite (fun _ => one fun _ => ⟨rfl, rfl⟩) fun _ => parallel_ite (fun _ => ?_) fun _ =>
        one fun _ => ⟨rfl, rfl⟩
      refine parallel_bind parallel_emitZero fun zeros => ?_
      exact parallel_emitValue (.alu (fun _ => rfl) (.cons ⟨values, rfl⟩ (.cons ⟨zeros, rfl⟩ .nil))) fun _ => rfl
    · have plain : dstBase.isBoolean = false := by
        rw [isDst] at other
        simpa [BaseType.isBoolean] using other
      rw [plain]
      cases n <;> cases n' <;> exact one fun mode => by simp_all
  · exact parallel_abort

theorem orderOperands_alike {op : ExprOp} (values : List.Forall₂ L.value vs ws) {vs' ws' : List ValueId}
    (ordered : orderOperands op vs = .ok vs') (ordered' : orderOperands op ws = .ok ws') :
    List.Forall₂ L.value vs' ws' := by
  unfold orderOperands at ordered ordered'
  split at ordered
  · rename_i swapped
    rw [if_pos swapped] at ordered'
    cases values with
    | nil => cases ordered
    | cons first rest =>
      cases rest with
      | nil => cases ordered
      | cons second rest =>
        obtain rfl := Except.ok.inj ordered
        obtain rfl := Except.ok.inj ordered'
        exact .cons second (.cons first rest)
  · rename_i straight
    rw [if_neg straight] at ordered'
    obtain rfl := Except.ok.inj ordered
    obtain rfl := Except.ok.inj ordered'
    exact values

theorem parallel_componentwise (values : List.Forall₂ L.value vs ws) :
    Parallel L (List.Forall₂ (AluSrc.Alike L.toPairing)) (componentwise vs) (componentwise ws) := by
  induction values with
  | nil => exact parallel_pure .nil
  | @cons v w vs ws first rest ih =>
    refine parallel_bind (parallel_valueDef first) fun shapes => parallel_bind ih fun srcs => parallel_pure ?_
    rw [shapes.width]
    exact .cons ⟨first, rfl⟩ srcs

theorem parallel_compute (op : ExprOp) (type : ShaderType) (types : List ShaderType)
    (values : List.Forall₂ L.value vs ws) :
    Parallel L L.value (compute op type types vs) (compute op type types ws) := by
  unfold compute
  cases type.baseType? with
  | none => exact parallel_abort
  | some output =>
    dsimp only
    refine parallel_bind parallel_nativeIntegers fun modes => ?_
    refine parallel_bind (R := fun a b => L.sameMode → a = b) (parallel_check ?_) fun opcodes => ?_
    · intro a b chosen chosen' same
      rw [modes same] at chosen
      exact Except.ok.inj (chosen.symm.trans chosen')
    · refine parallel_bind (parallel_check (orderOperands_alike values)) fun values => ?_
      refine parallel_ite (fun _ => ?_) fun _ => ?_
      · refine parallel_bind (R := List.Forall₂ (AluSrc.Alike L.toPairing)) (parallel_pure ?_) fun srcs =>
          parallel_emitValue (.alu opcodes srcs) fun same => by rw [modes same]
        rw [List.forall₂_map_left_iff, List.forall₂_map_right_iff]
        exact values.imp fun _ _ value => ⟨value, rfl⟩
      · exact parallel_bind (parallel_componentwise values) fun srcs =>
          parallel_emitValue (.alu opcodes srcs) fun same => by rw [modes same]

/-! ### Values and places -/

theorem literalIndex_alike {l : Literal} {i j : ArrayIndex} (found : literalIndex l = .ok i)
    (found' : literalIndex l = .ok j) : (LinkKind.array i).Alike L.toPairing (.array j) := by
  obtain rfl := Except.ok.inj (found.symm.trans found')
  unfold literalIndex at found
  split at found
  · obtain rfl := Except.ok.inj found
    exact .direct
  · cases found

variable {var : Source.VarId → Bool} {node : ExprOp → ShaderType → Bool} {source source' : Source.Program}

mutual

theorem parallel_evaluate (covers : L.Covers var node) : ∀ r : Rvalue,
    r.every var node = true → Parallel L L.value (evaluate source r) (evaluate source' r)
  | .place p, every => by
    rw [Rvalue.every] at every
    unfold evaluate
    refine parallel_bind (parallel_checkLoadable _) fun _ => ?_
    refine parallel_bind (parallel_placeChain covers p every) fun chains => ?_
    exact parallel_loadLocation chains.head _
  | .constant l, _ => by
    unfold evaluate
    refine parallel_bind (parallel_checkLoadable _) fun _ => ?_
    exact parallel_bind (parallel_constantChain l) fun chains => parallel_loadLocation chains.head _
  | .swizzle value lanes width, every => by
    rw [Rvalue.every] at every
    unfold evaluate
    exact parallel_bind (parallel_evaluate covers value every) fun values =>
      parallel_reorder values lanes width
  | .texture t, every => by
    rw [Rvalue.every] at every
    unfold evaluate
    exact parallel_evaluateTexture covers t every
  | .expression op type operands, every => by
    rw [Rvalue.every, Bool.and_eq_true] at every
    have operand := parallel_evaluateOperand covers op operands every.2
    unfold evaluate
    refine parallel_unless fun _ => ?_
    refine parallel_ite (fun _ => ?_) fun _ => ?_
    · refine parallel_bind (operand 0 0) fun blocks => parallel_bind (operand 1 1) fun offsets => ?_
      refine parallel_bind parallel_nativeIntegers fun modes => ?_
      exact parallel_emitLoad _ (.intrinsic (.cons (.ssa blocks) (.cons (.ssa offsets) .nil))) _ fun same => by
        rw [modes same]
    refine parallel_ite (fun _ => ?_) fun _ => ?_
    · refine parallel_bind (operand 0 0) fun blocks => ?_
      exact parallel_emitValue (.intrinsic (.cons (.ssa blocks) .nil)) fun _ => rfl
    cases interpolation? op with
    | some intrinsic =>
      dsimp only
      refine parallel_bind (parallel_interpolantChain covers op operands every.2) fun chains => ?_
      have emit : ∀ {srcs srcs'}, List.Forall₂ (Src.Alike L.toPairing) srcs srcs' → Parallel L L.value
          (nativeIntegers >>= fun n =>
            emitValue (.intrinsic intrinsic srcs { width := type.rows }) type.rows (valueBits n type))
          (nativeIntegers >>= fun n =>
            emitValue (.intrinsic intrinsic srcs' { width := type.rows }) type.rows (valueBits n type)) :=
        fun operands => parallel_bind parallel_nativeIntegers fun modes =>
          parallel_emitValue (.intrinsic operands) fun same => by rw [modes same]
      refine parallel_ite (fun _ => ?_) fun _ => ?_
      · exact emit (.cons (.location chains.head) .nil)
      · exact parallel_bind (operand 1 1) fun samples =>
          emit (.cons (.location chains.head) (.cons (.ssa samples) .nil))
    | none =>
      dsimp only
      refine parallel_unless fun _ => ?_
      refine parallel_bind_of (parallel_evaluateAll covers operands every.2) fun values => ?_
      refine parallel_ite (fun isConvert => ?_) fun _ => parallel_compute _ _ _ values
      have single := every.1
      rw [isConvert] at single
      cases values with
      | nil =>
        split
        · contradiction
        · exact parallel_abort
      | cons first rest =>
        cases operands.map Rvalue.type with
        | nil => exact parallel_abort
        | cons src _ => exact parallel_convert first src (covers.conversions single)

theorem parallel_evaluateAll (covers : L.Covers var node) : ∀ rs : List Rvalue,
    everyOf var node rs = true →
    Parallel L (List.Forall₂ L.value) (evaluateAll source rs) (evaluateAll source' rs)
  | [], _ => by
    unfold evaluateAll
    exact parallel_pure .nil
  | r :: rs, every => by
    rw [everyOf, Bool.and_eq_true] at every
    unfold evaluateAll
    refine parallel_bind (parallel_evaluate covers r every.1) fun first => ?_
    refine parallel_bind (parallel_evaluateAll covers rs every.2) fun rest => ?_
    exact parallel_pure (.cons first rest)

theorem parallel_evaluateOperand (covers : L.Covers var node) (op : ExprOp) :
    ∀ rs : List Rvalue, everyOf var node rs = true → ∀ number skip : Nat,
    Parallel L L.value (evaluateOperand source op number skip rs) (evaluateOperand source' op number skip rs)
  | [], _, _, _ => by
    unfold evaluateOperand
    exact parallel_abort
  | r :: _, every, _, 0 => by
    rw [everyOf, Bool.and_eq_true] at every
    unfold evaluateOperand
    exact parallel_evaluate covers r every.1
  | _ :: rs, every, number, skip + 1 => by
    rw [everyOf, Bool.and_eq_true] at every
    unfold evaluateOperand
    exact parallel_evaluateOperand covers op rs every.2 number skip

theorem parallel_interpolantChain (covers : L.Covers var node) (op : ExprOp) :
    ∀ rs : List Rvalue, everyOf var node rs = true →
    Parallel L (Chain.Alike L.toPairing) (interpolantChain source op rs) (interpolantChain source' op rs)
  | [], _ => by
    unfold interpolantChain
    exact parallel_abort
  | .place p :: _, every => by
    rw [everyOf, Bool.and_eq_true, Rvalue.every] at every
    unfold interpolantChain
    exact parallel_placeChain covers p every.1
  | .expression .. :: _, _ | .swizzle .. :: _, _ | .texture _ :: _, _ | .constant _ :: _, _ => by
    unfold interpolantChain
    exact parallel_abort

theorem parallel_placeChain (covers : L.Covers var node) : ∀ p : Place,
    p.every var node = true → Parallel L (Chain.Alike L.toPairing) (placeChain source p) (placeChain source' p)
  | .var id type, every => by
    rw [Place.every] at every
    unfold placeChain
    refine parallel_bind parallel_scope ?_
    rintro _ _ ⟨s, t, alike, rfl, rfl⟩
    refine parallel_bind (R := L.var) (parallel_check fun found found' => ?_) fun vars => parallel_rootChain vars type
    exact L.resolved alike (covers.vars every) (resolveVariable_ok found) (resolveVariable_ok found')
  | .field record index type, every => by
    rw [Place.every] at every
    unfold placeChain
    exact parallel_bind (parallel_placeChain covers record every) fun chains =>
      parallel_appendLink chains .struct type
  | .element array index type, every => by
    rw [Place.every, Bool.and_eq_true] at every
    have value := parallel_evaluate covers index every.2
    unfold placeChain
    refine parallel_bind_of (parallel_placeChain covers array every.1) fun chains => ?_
    split
    · exact parallel_bind (parallel_check literalIndex_alike) fun kinds => parallel_appendLink chains kinds type
    · exact parallel_bind value fun values => parallel_appendLink chains (.indirect values) type

theorem parallel_evaluateTexture (covers : L.Covers var node) : ∀ t : Texture,
    t.every var node = true → Parallel L L.value (evaluateTexture source t) (evaluateTexture source' t)
  | ⟨op, type, sampler, coordinate, projector, comparator, offset, lod⟩, every => by
    simp only [Texture.every, Bool.and_eq_true] at every
    obtain ⟨⟨⟨⟨⟨ofSampler, ofCoordinate⟩, ofProjector⟩, ofComparator⟩, ofOffset⟩, ofLod⟩ := every
    unfold evaluateTexture
    refine parallel_bind (parallel_check_same _) ?_
    rintro samplerType _ rfl
    refine parallel_bind (parallel_check_same _) ?_
    rintro destType _ rfl
    refine parallel_bind (parallel_placeChain covers sampler ofSampler) fun chains => ?_
    refine parallel_bind (parallel_textureSource covers .coord _ ofCoordinate) fun first => ?_
    refine parallel_bind (parallel_textureSource covers .projector _ ofProjector) fun second => ?_
    refine parallel_bind (parallel_textureSource covers .comparator _ ofComparator) fun third => ?_
    refine parallel_bind (parallel_check_same _) fun _ => ?_
    refine parallel_bind (parallel_textureSource covers .offset _ ofOffset) fun fourth => ?_
    refine parallel_bind (parallel_lodSources covers op lod ofLod) ?_
    rintro ⟨details, component⟩ ⟨details', _⟩ ⟨last, rfl⟩
    have front := List.rel_append (List.rel_append first second) third
    have operands := List.rel_append (List.rel_append front fourth) last
    dsimp only
    rw [operands.length_eq]
    exact parallel_unless fun _ => parallel_emitValue (.tex chains.head operands) fun _ => rfl

theorem parallel_textureSource (covers : L.Covers var node) (kind : TexSrcKind) :
    ∀ r : Option Rvalue, everyIn var node r = true →
    Parallel L (List.Forall₂ (TexSrc.Alike L.toPairing)) (textureSource source kind r) (textureSource source' kind r)
  | none, _ => by
    unfold textureSource
    exact parallel_pure .nil
  | some r, every => by
    rw [everyIn] at every
    unfold textureSource
    exact parallel_bind (parallel_evaluate covers r every) fun values =>
      parallel_pure (.cons ⟨rfl, values⟩ .nil)

theorem parallel_lodSources (covers : L.Covers var node) (op : TextureOp) :
    ∀ lod : LodInfo, lod.every var node = true →
    Parallel L (fun a b => List.Forall₂ (TexSrc.Alike L.toPairing) a.1 b.1 ∧ a.2 = b.2) (lodSources source op lod)
      (lodSources source' op lod)
  | .absent, _ => by
    unfold lodSources
    exact parallel_unless fun _ => parallel_pure ⟨.nil, rfl⟩
  | .bias r, every | .lod r, every | .sampleIndex r, every => by
    rw [LodInfo.every] at every
    unfold lodSources
    exact parallel_unless fun _ => parallel_bind (parallel_evaluate covers r every) fun values =>
      parallel_pure ⟨.cons ⟨rfl, values⟩ .nil, rfl⟩
  | .grad dpdx dpdy, every => by
    rw [LodInfo.every, Bool.and_eq_true] at every
    unfold lodSources
    refine parallel_unless fun _ => parallel_bind (parallel_evaluate covers dpdx every.1) fun xs => ?_
    refine parallel_bind (parallel_evaluate covers dpdy every.2) fun ys => parallel_pure ⟨?_, rfl⟩
    exact .cons ⟨rfl, xs⟩ (.cons ⟨rfl, ys⟩ .nil)
  | .component r, _ => by
    unfold lodSources
    refine parallel_unless fun _ => ?_
    refine parallel_bind (parallel_check_same _) ?_
    rintro component _ rfl
    exact parallel_pure ⟨.nil, rfl⟩

end

end

end Lowering

end ShaderSSA
