import ShaderSSA.Proofs.Ledger

/-!
Chains from their roots to the instructions that name them. Whatever is evaluated while a chain waits for its
instruction builds chains of its own and hands them to its own instructions, so lowering neither drops a chain nor
names one twice.
-/

namespace ShaderSSA

/-! ### Variable nodes -/

namespace Source

mutual

/-- Every variable in the value carries the type of its declaration. -/
def Rvalue.varsTyped (source : Program) : Rvalue → Bool
  | .place p => p.varsTyped source
  | .constant _ => true
  | .swizzle value _ _ => value.varsTyped source
  | .texture texture => texture.varsTyped source
  | .expression _ _ operands => allVarsTyped source operands

def allVarsTyped (source : Program) : List Rvalue → Bool
  | [] => true
  | r :: rs => r.varsTyped source && allVarsTyped source rs

def Place.varsTyped (source : Program) : Place → Bool
  | .var id type => (source.var? id).map VarDecl.type = some type
  | .field record _ _ => record.varsTyped source
  | .element array index _ => array.varsTyped source && index.varsTyped source

def Texture.varsTyped (source : Program) : Texture → Bool
  | ⟨_, _, sampler, coordinate, projector, comparator, offset, lod⟩ =>
    sampler.varsTyped source && anyVarsTyped source coordinate && anyVarsTyped source projector &&
      anyVarsTyped source comparator && anyVarsTyped source offset && lod.varsTyped source

def anyVarsTyped (source : Program) : Option Rvalue → Bool
  | none => true
  | some r => r.varsTyped source

def LodInfo.varsTyped (source : Program) : LodInfo → Bool
  | .absent => true
  | .bias r | .lod r | .sampleIndex r | .component r => r.varsTyped source
  | .grad dpdx dpdy => dpdx.varsTyped source && dpdy.varsTyped source

end

def Call.varsTyped (source : Program) (call : Call) : Bool :=
  allVarsTyped source call.parameters && call.result.all (Place.varsTyped source)

mutual

def Stmt.varsTyped (source : Program) : Stmt → Bool
  | .loop body => stmtsVarsTyped source body
  | .branch condition thenBody elseBody =>
    condition.varsTyped source && stmtsVarsTyped source thenBody && stmtsVarsTyped source elseBody
  | .discard value | .ret value => anyVarsTyped source value
  | .call call => call.varsTyped source
  | .assign target value _ condition =>
    target.varsTyped source && value.varsTyped source && anyVarsTyped source condition
  | .emitVertex stream | .endPrimitive stream => stream.varsTyped source
  | .declare _ | .function .. | .jump _ | .barrier => true

def stmtsVarsTyped (source : Program) : List Stmt → Bool
  | [] => true
  | s :: ss => s.varsTyped source && stmtsVarsTyped source ss

end

/-- Every variable in a body carries the type of its declaration. -/
def Program.varsTyped (source : Program) : Bool :=
  source.signatures.all fun signature => stmtsVarsTyped source signature.body

end Source

namespace Lowering
open Source Target Lower

variable {source : Source.Program} {L : Ledger source} {f : Option FuncId} {takes : List Held}
  {s t : State}

/-! ### Loads and constants -/

theorem quiet_emitZero : Quiet L f emitZero := spends_emitValue rfl rfl rfl 1 32

theorem spends_nonzeroTest (raw zero : ValueId) : Spends L f [.test] [] (nonzeroTest raw zero) := by
  refine spends_of_runs (by simp) fun {s v t done live} run fits carries => ?_
  simp only [nonzeroTest, runs_bind, runs_valueDef] at run
  obtain ⟨d, _, ⟨found, rfl⟩, run⟩ := run
  obtain ⟨-, rfl, -⟩ := emitValue_ok run
  rw [← List.append_nil live] at carries
  refine carries.value ⟨rfl, by simp [Operation.destinations], fun o _ => ?_, .inr ⟨rfl, rfl⟩⟩ fits
  exact List.forall_mem_cons.mpr ⟨.spread found, List.forall_mem_singleton.mpr (.first zero)⟩

theorem spends_emitLoad {op : Operation} (names : op.locations = takes.map Held.head) (still : op.destinations = [])
    (plain : op.opcode? = none) (raw : Bool) (width bitSize : UInt8) :
    Spends L f (tested raw) takes (emitLoad raw op width bitSize) := by
  have issued : Spends L f [] takes (emitValue op width bitSize) := spends_emitValue names still plain width bitSize
  unfold emitLoad tested
  split
  · exact weaves_quiet quiet_emitZero fun zero => weaves_bind [] issued fun value => spends_nonzeroTest value zero
  · exact issued

theorem getVariable_found {p : Target.Program} {v : Target.VarId} {x : Variable} (h : p.getVariable v = .ok x) :
    p.var? v = some x := by
  cases found : p.var? v with
  | none => simp [Target.Program.getVariable, found] at h
  | some y => simpa [Target.Program.getVariable, found] using h

theorem spends_loadLocation (held : Held) (type : ShaderType) :
    Spends L f (tested (held.inBuffer && type.isBoolean)) [held] (loadLocation type held.head) where
  grows _ _ _ run := run.noLarger (by simp)
  weaves s v t done live run fits carries := by
    obtain ⟨w, x, roots, there, stored⟩ := carries.rooted held (by simp)
    obtain ⟨root, y, isRoot, known, run⟩ := loadLocation_ok run
    obtain rfl := Except.ok.inj (roots.rootVar.symm.trans isRoot)
    obtain rfl := Option.some.inj ((getVariable_found known).symm.trans there)
    rw [stored] at run
    exact (spends_emitLoad rfl rfl rfl _ _ _).weaves run fits carries

theorem spends_storeLocation {held : Held} (writable : held.writable = true) (value : ValueId) (mask : UInt8) :
    Spends L f [] [held] (storeLocation held.head value mask) :=
  weaves_quiet (quiet_valueDef _) fun _ =>
    spends_emitEffect rfl (by simp [Operation.destinations, writable]) rfl

theorem spends_copyLocation {dst : Held} (writable : dst.writable = true) (src : Held) :
    Spends L f [] [dst, src] (copyLocation dst.head src.head) :=
  spends_emitEffect rfl (by simp [Operation.destinations, writable]) rfl

theorem builds_constantChain (l : Literal) : Builds L f [.literal f l] (constantChain l) (⟨·, false, false⟩) where
  grows _ _ _ run := run.noLarger (by simp)
  weaves s c t done live run fits carries := by
    obtain ⟨g, k, v, u, current, copied, addRun, rootRun⟩ := constantChain_ok run
    obtain rfl : f = some g := carries.current.symm.trans current
    have small : u.program.Fits := rootRun.fits_before (by simp) fits
    obtain ⟨rfl, creates⟩ : _ ∧ Creates source (.literal (some g) l) _ u := constant_creates copied addRun
    obtain ⟨p, added, rfl⟩ := addVariable_ok addRun
    have path : Path .value _ _ := .single (.newVariable (fun _ => rfl) (fun _ => carries.current.symm) added)
    obtain ⟨owner, there⟩ := Program.addVariable_found added small.vars
    rw [List.append_nil] at carries
    have rooted : ∀ held ∈ live, State.Rooted _ held := fun held member =>
      (carries.rooted held member).mono path.keeps.vars (by rw [creates.links]; exact id)
    have waiting := State.Carries.rooted_push rooted there rootRun fits false
    have binds := (carries.binds.along path rfl).step rootRun (by simp)
    have holds := L.constant creates rootRun fits carries.holds
    obtain ⟨rfl, rfl⟩ := rootChain_ok rootRun
    exact ⟨carries.current, binds, waiting, holds⟩

/-! ### Computations -/

theorem quiet_reorder (value : ValueId) (lanes : Lanes) (width : UInt8) : Quiet L f (reorder value lanes width) := by
  refine spends_of_runs (by simp) fun {s v t done live} run fits carries => ?_
  rw [List.append_nil]
  obtain ⟨d, found, ⟨-, -, rfl⟩ | ⟨-, inside, run⟩⟩ := reorder_ok run
  · exact carries
  obtain ⟨-, rfl, -⟩ := emitValue_ok run
  refine carries.compute (List.forall_mem_singleton.mpr (.moved ?_ found inside)) (fun mode => ?_) fits
  · cases s.scope.nativeIntegers <;> rfl
  · rw [mode]
    rfl

theorem quiet_convert (src dst : ShaderType) (value : ValueId) : Quiet L f (convert src dst value) := by
  refine spends_of_runs (by simp) fun {s v t done live} run fits carries => ?_
  rw [List.append_nil]
  obtain ⟨d, _, _, found, -, -, run⟩ := convert_ok run
  obtain ⟨native, run⟩ | ⟨-, ⟨-, zero, u, zeroRun, run⟩ | ⟨-, run⟩⟩ := run
  · obtain ⟨-, rfl, -⟩ := emitValue_ok run
    exact carries.compute (List.forall_mem_singleton.mpr (.spread found)) (by simp [native]) fits
  · have before := quiet_emitZero.keeps zeroRun (run.fits_before (by simp) fits) carries
    rw [List.append_nil] at before
    have path : Path .value s u := (stepwise_emitValue _ _ _).path zeroRun
    have kept : u.program.value? value = some d := path.keeps.values found
    obtain ⟨-, rfl, -⟩ := emitValue_ok run
    refine before.compute (List.forall_mem_cons.mpr ⟨.spread kept, ?_⟩) (fun _ => rfl) fits
    exact List.forall_mem_singleton.mpr (.first zero)
  · obtain ⟨-, rfl, -⟩ := emitValue_ok run
    refine carries.compute (List.forall_mem_singleton.mpr (.spread found)) (fun _ => ?_) fits
    split <;> rfl

theorem fetches_of_spreads {values : List ValueId} {srcs : List AluSrc} (h : List.Forall₂ (Spreads p) values srcs)
    (op : AluOp) (width : UInt8) : ∀ src ∈ srcs, Fetches p op width src := by
  induction h with
  | nil => simp
  | cons first _ ih =>
    obtain ⟨d, found, rfl⟩ := first
    exact List.forall_mem_cons.mpr ⟨.spread found, ih⟩

theorem quiet_compute (op : ExprOp) (type : ShaderType) (types : List ShaderType) (values : List ValueId) :
    Quiet L f (compute op type types values) := by
  refine spends_of_runs (by simp) fun {s v t done live} run fits carries => ?_
  rw [List.append_nil]
  obtain ⟨_, opcode, _, srcs, -, chosen, -, taken, run⟩ := compute_ok run
  obtain ⟨-, rfl, -⟩ := emitValue_ok run
  refine carries.compute ?_ (fun mode => Selection.opcode_isInteger mode chosen) fits
  obtain ⟨-, rfl⟩ | ⟨-, spreads⟩ := taken
  · exact List.forall_mem_map.mpr fun v _ => .first v
  · exact fetches_of_spreads spreads _ _

theorem quiet_checkLoadable (type : ShaderType) : Quiet L f (checkLoadable type) := by
  unfold checkLoadable
  split
  · exact weaves_abort _ _
  · exact quiet_pure _

/-! ### Values and places -/

theorem builds_var {id : Source.VarId} {type : ShaderType}
    (typed : L.fine → (Place.var id type).varsTyped source = true) :
    Builds L f [] (placeChain source (.var id type)) (⟨·, true, source.inBuffer (.var id type)⟩) where
  grows _ _ _ run := run.noLarger (by simp)
  weaves s c t done live run fits carries := by
    obtain ⟨v, resolved, rootRun⟩ := placeChain_var run
    have bound := resolveVariable_ok resolved
    obtain ⟨decl, x, declared, there, same, stored⟩ := carries.binds bound
    have place : source.inBuffer (.var id type) = x.storage.isBuffer := by
      rw [stored]
      simp [Program.inBuffer, Place.root, declared]
    rw [List.append_nil] at carries ⊢
    rw [place]
    refine carries.rootChain (.inl ⟨_, bound⟩) there (fun isFine => ?_) rootRun fits
    have agrees := typed isFine
    rw [Place.varsTyped, declared, Option.map_some, decide_eq_true_iff] at agrees
    rw [same, Option.some.inj agrees]

theorem interpolation?_still {op : ExprOp} {intrinsic : IntrinsicOp} (h : interpolation? op = some intrinsic)
    (srcs : List Src) (indices : Indices) : (Operation.intrinsic intrinsic srcs indices).destinations = [] := by
  cases op <;> cases h <;> rfl

section
variable (source)

mutual

/-- Evaluation hands every chain that it builds to an instruction. -/
theorem evaluate_spends : ∀ r : Rvalue,
    (L.fine → r.varsTyped source = true) → Spends L f (r.products source f) [] (evaluate source r)
  | .place p, typed => by
    simp only [Rvalue.varsTyped] at typed
    unfold evaluate Rvalue.products
    exact weaves_quiet (quiet_checkLoadable _) fun _ => weaves_chain (placeChain_builds p typed) fun c =>
      spends_loadLocation ⟨c, true, source.inBuffer p⟩ p.type
  | .constant l, _ => by
    unfold evaluate Rvalue.products
    exact weaves_quiet (quiet_checkLoadable _) fun _ => weaves_chain_last (builds_constantChain l) fun c =>
      spends_loadLocation ⟨c, false, false⟩ l.type
  | .swizzle value lanes width, typed => by
    simp only [Rvalue.varsTyped] at typed
    unfold evaluate Rvalue.products
    exact weaves_last (evaluate_spends value typed) fun _ => quiet_reorder _ _ _
  | .texture texture, typed => by
    simp only [Rvalue.varsTyped] at typed
    unfold evaluate Rvalue.products
    exact evaluateTexture_spends texture typed
  | .expression op type operands, typed => by
    simp only [Rvalue.varsTyped] at typed
    have operand := evaluateOperand_spends op operands typed
    unfold evaluate Rvalue.products
    refine weaves_unless ?_
    split
    · exact weaves_next (operand 0 0) fun block => weaves_next (operand 1 1) fun offset =>
        weaves_quiet quiet_nativeIntegers fun _ => spends_emitLoad rfl rfl rfl _ _ _
    split
    · exact weaves_last (operand 0 0) fun block => spends_emitValue rfl rfl rfl _ _
    cases isInterpolation : interpolation? op with
    | some intrinsic =>
      have still := interpolation?_still isInterpolation
      obtain ⟨b, built⟩ : ∃ b, Builds L f _ _ (⟨·, true, b⟩) := interpolantChain_builds op operands typed
      rw [Option.isSome_some, if_pos rfl]
      refine weaves_chain built fun chain => ?_
      simp only [pure_bind]
      split
      · exact weaves_quiet quiet_nativeIntegers fun _ => spends_emitValue rfl (still _ _) rfl _ _
      · exact weaves_last (operand 1 1) fun _ => weaves_quiet quiet_nativeIntegers fun _ =>
          spends_emitValue rfl (still _ _) rfl _ _
    | none =>
      rw [Option.isSome_none, if_neg Bool.false_ne_true]
      refine weaves_unless (weaves_last (evaluateAll_spends operands typed) fun values => ?_)
      split
      · split
        · exact quiet_convert _ _ _
        · exact weaves_abort _ _
      · exact quiet_compute _ _ _ _

theorem evaluateAll_spends : ∀ rs : List Rvalue,
    (L.fine → allVarsTyped source rs = true) → Spends L f (productsOf source f rs) [] (evaluateAll source rs)
  | [], _ => by
    unfold evaluateAll productsOf
    exact quiet_pure _
  | r :: rs, typed => by
    simp only [allVarsTyped, Bool.and_eq_true, imp_and] at typed
    unfold evaluateAll productsOf
    exact weaves_next (evaluate_spends r typed.1) fun _ =>
      weaves_last (evaluateAll_spends rs typed.2) fun _ => quiet_pure _

theorem evaluateOperand_spends (op : ExprOp) : ∀ rs : List Rvalue,
    (L.fine → allVarsTyped source rs = true) → ∀ number skip : Nat,
      Spends L f (operandProducts source f skip rs) [] (evaluateOperand source op number skip rs)
  | [], _, _, _ => by
    unfold evaluateOperand
    exact weaves_abort _ _
  | r :: rs, typed, number, 0 => by
    simp only [allVarsTyped, Bool.and_eq_true, imp_and] at typed
    unfold evaluateOperand operandProducts
    exact evaluate_spends r typed.1
  | r :: rs, typed, number, skip + 1 => by
    simp only [allVarsTyped, Bool.and_eq_true, imp_and] at typed
    unfold evaluateOperand operandProducts
    exact evaluateOperand_spends op rs typed.2 number skip

theorem interpolantChain_builds (op : ExprOp) : ∀ rs : List Rvalue,
    (L.fine → allVarsTyped source rs = true) →
      ∃ b, Builds L f (interpolantProducts source f rs) (interpolantChain source op rs) (⟨·, true, b⟩)
  | [], _ => by
    unfold interpolantChain
    exact ⟨false, weaves_abort _ _⟩
  | .place p :: rs, typed => by
    simp only [allVarsTyped, Rvalue.varsTyped, Bool.and_eq_true, imp_and] at typed
    unfold interpolantChain interpolantProducts
    exact ⟨_, placeChain_builds p typed.1⟩
  | .expression .. :: _, _ | .swizzle .. :: _, _ | .texture _ :: _, _ | .constant _ :: _, _ => by
    unfold interpolantChain
    exact ⟨false, weaves_abort _ _⟩

/-- The chain of a place waits while the indices behind it are evaluated. -/
theorem placeChain_builds : ∀ p : Place,
    (L.fine → p.varsTyped source = true) →
      Builds L f (p.products source f) (placeChain source p) (⟨·, true, source.inBuffer p⟩)
  | .var id type, typed => by
    unfold Place.products
    exact builds_var typed
  | .field record index type, typed => by
    simp only [Place.varsTyped] at typed
    unfold placeChain Place.products
    exact weaves_chain_last (placeChain_builds record typed) fun c =>
      weaves_appendLink ⟨c, true, source.inBuffer record⟩ _ _
  | .element array index type, typed => by
    simp only [Place.varsTyped, Bool.and_eq_true, imp_and] at typed
    have value := evaluate_spends index typed.2
    unfold placeChain Place.products
    refine weaves_chain (placeChain_builds array typed.1) fun chain => ?_
    let held : Held := ⟨chain, true, source.inBuffer array⟩
    cases index with
    | constant l => exact weaves_quiet (quiet_check _) fun _ => weaves_appendLink held _ _
    | expression op type operands | swizzle inner lanes width | texture texture | place inner =>
      exact weaves_last value fun _ => weaves_quiet (quiet_pure _) fun _ => weaves_appendLink held _ _

theorem evaluateTexture_spends : ∀ t : Texture,
    (L.fine → t.varsTyped source = true) → Spends L f (t.products source f) [] (evaluateTexture source t)
  | ⟨op, type, sampler, coordinate, projector, comparator, offset, lod⟩, typed => by
    simp only [Texture.varsTyped, Bool.and_eq_true, imp_and, and_assoc] at typed
    obtain ⟨first, second, third, fourth, fifth, sixth⟩ := typed
    unfold evaluateTexture Texture.products
    refine weaves_quiet (quiet_check _) fun _ => weaves_quiet (quiet_check _) fun _ => ?_
    refine weaves_chain (placeChain_builds sampler first) fun chain => ?_
    refine weaves_next (textureSource_spends _ coordinate second) fun _ => ?_
    refine weaves_next (textureSource_spends _ projector third) fun _ => ?_
    refine weaves_next (textureSource_spends _ comparator fourth) fun _ => ?_
    refine weaves_quiet (quiet_check _) fun _ => ?_
    refine weaves_next (textureSource_spends _ offset fifth) fun _ => ?_
    refine weaves_last (lodSources_spends op lod sixth) fun _ => ?_
    exact weaves_unless (spends_emitValue rfl rfl rfl _ _)

theorem textureSource_spends (kind : TexSrcKind) : ∀ r : Option Rvalue,
    (L.fine → anyVarsTyped source r = true) → Spends L f (sourceProducts source f r) [] (textureSource source kind r)
  | none, _ => by
    unfold textureSource sourceProducts
    exact quiet_pure _
  | some r, typed => by
    simp only [anyVarsTyped] at typed
    unfold textureSource sourceProducts
    exact weaves_last (evaluate_spends r typed) fun _ => quiet_pure _

theorem lodSources_spends (op : TextureOp) : ∀ lod : LodInfo,
    (L.fine → lod.varsTyped source = true) → Spends L f (lod.products source f) [] (lodSources source op lod)
  | .absent, _ => by
    unfold lodSources LodInfo.products
    exact weaves_unless (quiet_pure _)
  | .bias r, typed | .lod r, typed | .sampleIndex r, typed => by
    simp only [LodInfo.varsTyped] at typed
    unfold lodSources LodInfo.products
    exact weaves_unless (weaves_last (evaluate_spends r typed) fun _ => quiet_pure _)
  | .grad dpdx dpdy, typed => by
    simp only [LodInfo.varsTyped, Bool.and_eq_true, imp_and] at typed
    unfold lodSources LodInfo.products
    exact weaves_unless (weaves_next (evaluate_spends dpdx typed.1) fun _ =>
      weaves_last (evaluate_spends dpdy typed.2) fun _ => quiet_pure _)
  | .component r, _ => by
    unfold lodSources LodInfo.products
    exact weaves_unless (weaves_quiet (quiet_check _) fun _ => quiet_pure _)

end

end

end Lowering

end ShaderSSA
