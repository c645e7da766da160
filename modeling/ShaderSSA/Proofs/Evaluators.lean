import ShaderSSA.Proofs.Lockstep
import ShaderSSA.Proofs.Skeleton

/-!
What lowering is put together from. A property of computations that these parts have and that is kept in sequence is one
of all lowering below the top level. That nodes and links are only added is such a property, as a link is attached to a
chain only where the chain has just been started.
-/

namespace ShaderSSA

namespace Target

/-- The operation is one that evaluation emits. It computes a value that is defined. -/
def Operation.evaluates : Operation → Bool
  | .alu .. | .tex _ | .loadConst .. => true
  | .intrinsic op _ _ => op.computes
  | .undef | .call .. | .jump _ => false

/-- The operation may end the invocation. -/
def Operation.discards : Operation → Bool
  | .intrinsic .discard _ _ | .intrinsic .discardIf _ _ => true
  | _ => false

/-- The operation keeps the invocation. -/
def Operation.retains (op : Operation) : Bool := !op.discards

end Target

namespace Lowering
open Source Target Lower
variable {α : Type}

section
variable {α β : Type} {s u t : State} {m x : Lower α}

/-! ### Nodes and links that are added -/

/-- Nodes and links are only added. Of links this is said while each has a handle of its own. -/
structure State.Lengthens (s t : State) : Prop where
  region : s.region.toList <+: t.region.toList
  links : t.program.links.size ≤ UInt32.size → s.program.links.toList <+: t.program.links.toList

namespace State.Lengthens

theorem of_same (region : t.region = s.region) (links : t.program.links = s.program.links) : s.Lengthens t :=
  ⟨region ▸ List.prefix_refl _, fun _ => links ▸ List.prefix_refl _⟩

theorem push {p : Target.Program} (links : p.links = s.program.links) (id : InstId) (op : Operation) :
    s.Lengthens (s.pushed p id op) :=
  ⟨by simp [State.pushed, Region.pushInstr], fun _ => links ▸ List.prefix_refl _⟩

theorem size_le (h : s.Lengthens t) (small : t.program.links.size ≤ UInt32.size) :
    s.program.links.size ≤ t.program.links.size :=
  (h.links small).length_le

theorem trans (h : s.Lengthens u) (h' : u.Lengthens t) : s.Lengthens t :=
  ⟨h.region.trans h'.region, fun small => (h.links (Nat.le_trans (h'.size_le small) small)).trans (h'.links small)⟩

/-- A link that is attached behind the links of `s` leaves these alone. -/
theorem append (h : s.Lengthens t) {i : Nat} (behind : t.program.links.size ≤ UInt32.size → s.program.links.size ≤ i)
    (link : Link) (change : Link → Link) :
    s.Lengthens { t with program := { t.program with links := (t.program.links.push link).modify i change } } := by
  refine ⟨h.region, fun small => ?_⟩
  have before : t.program.links.size ≤ UInt32.size := by
    rw [Array.size_modify, Array.size_push] at small
    exact Nat.le_of_succ_le small
  have pushed : s.program.links.toList <+: (t.program.links.push link).toList :=
    (h.links before).trans (by simp)
  rw [List.prefix_iff_eq_take] at pushed ⊢
  rw [Array.toList_modify, List.take_modify, ← pushed, List.modify_eq_self (behind before)]

end State.Lengthens

/-- Every run of `m` lengthens the state, also where it fails. -/
def Appends (m : Lower α) : Prop := ∀ s : State, s.Lengthens (outcome m s).2

theorem appends_of_same (h : ∀ s, (outcome m s).2.region = s.region ∧
    (outcome m s).2.program.links = s.program.links) : Appends m :=
  fun s => .of_same (h s).1 (h s).2

theorem appends_of_runs (ok : ∀ s a t, Runs m s a t → s.Lengthens t) (failed : ∀ s t, Fails m s t → t = s) :
    Appends m := by
  intro s
  rcases result : outcome m s with ⟨e | a, t⟩
  · rw [failed s t ⟨e, result⟩]
    exact .of_same rfl rfl
  · exact ok s a t result

@[simp]
theorem appends_pure (x : α) : Appends (pure x) := appends_of_same fun _ => ⟨rfl, rfl⟩

@[simp]
theorem appends_check (e : Except Fault α) : Appends (check e) := by
  cases e <;> exact appends_of_same fun _ => ⟨rfl, rfl⟩

@[simp]
theorem appends_scope : Appends scope := appends_of_same fun _ => ⟨rfl, rfl⟩

theorem Appends.lengthens (h : Appends m) {a : α} (run : Runs m s a t) : s.Lengthens t := by
  have after := h s
  rwa [run] at after

theorem State.Lengthens.bind {f : α → Lower β} (first : s.Lengthens (outcome x u).2)
    (rest : ∀ a t, Runs x u a t → s.Lengthens (outcome (f a) t).2) : s.Lengthens (outcome (x >>= f) u).2 := by
  rw [outcome_bind]
  rcases result : outcome x u with ⟨e | a, t⟩
  · rwa [result] at first
  · exact rest a t result

theorem appends_bind {f : α → Lower β} (hx : Appends x) (hf : ∀ a, Appends (f a)) : Appends (x >>= f) :=
  fun s => (hx s).bind fun a t run => (hx.lengthens run).trans (hf a t)

theorem appends_read {f : Target.Program → Lower β} (hf : ∀ p, Appends (f p)) : Appends (program >>= f) :=
  appends_bind (appends_of_same fun _ => ⟨rfl, rfl⟩) hf

theorem appends_emitEffect (op : Operation) : Appends (emitEffect op) := by
  refine appends_of_runs (fun s a t run => ?_) fun s t failed => (emitEffect_fails failed).1
  rw [emitEffect_ok run]
  exact .push (by rfl) _ op

theorem appends_emitValue (op : Operation) (width bitSize : UInt8) : Appends (emitValue op width bitSize) := by
  refine appends_of_runs (fun s a t run => ?_) fun s t failed => (emitValue_fails failed).1
  rw [(emitValue_ok run).2.1]
  exact .push (by rfl) _ op

theorem appends_rootChain (var : Target.VarId) (type : ShaderType) : Appends (rootChain var type) := by
  refine appends_of_runs (fun s a t run => ?_) (by simp)
  obtain ⟨-, rfl⟩ := rootChain_ok run
  exact ⟨List.prefix_refl _, fun _ => by simp⟩

@[simp]
theorem appends_addVariable (var : Variable) (owner : Option FuncId) : Appends (addVariable var owner) := by
  refine appends_of_same fun s => ?_
  rw [outcome_addVariable]
  exact ⟨rfl, (s.program.addVariable_frame var owner).2⟩

/-! ### Chains that have just been started -/

/-- The chain that `x` gives ends at a link that was not there before. -/
def Fresh (x : Lower Chain) : Prop :=
  ∀ ⦃s c t⦄, Runs x s c t → t.program.links.size ≤ UInt32.size → s.program.links.size ≤ c.tail.index.toNat

theorem index_nextId {links : Links} (small : links.size < UInt32.size) : links.nextId.index.toNat = links.size :=
  UInt32.toNat_ofNat_of_lt' small

theorem fresh_rootChain (var : Target.VarId) (type : ShaderType) : Fresh (rootChain var type) := by
  intro s c t run small
  obtain ⟨rfl, rfl⟩ := rootChain_ok run
  rw [Array.size_push] at small
  exact Nat.le_of_eq (index_nextId small).symm

theorem fresh_appendLink (c : Chain) (kind : LinkKind) (type : ShaderType) : Fresh (appendLink c kind type) := by
  intro s d t run small
  obtain ⟨links, appended, rfl⟩ := appendLink_ok run
  obtain ⟨_, -, -, rfl, rfl⟩ := append_ok appended
  rw [Array.size_modify, Array.size_push] at small
  exact Nat.le_of_eq (index_nextId small).symm

theorem fresh_bind {f : α → Lower Chain} (hx : Appends x) (hf : ∀ a, Fresh (f a)) : Fresh (x >>= f) := by
  intro s c t run small
  obtain ⟨a, u, first, next⟩ := runs_bind.mp run
  have later := hf a next small
  exact Nat.le_trans ((hx.lengthens first).size_le (Nat.le_trans later (Nat.le_of_lt c.tail.index.toNat_lt))) later

end

/-! ### Evaluation -/

/-- The computation is put together from what evaluation may do. -/
inductive Evaluates : {α : Type} → Lower α → Prop where
  | pure {α : Type} (x : α) : Evaluates (pure x)
  | check {α : Type} (e : Except Fault α) : Evaluates (check e)
  | scope : Evaluates scope
  | read {α : Type} {f : Target.Program → Lower α} (blind : ∀ p limit, f (p.limited limit) = f p)
      (hf : ∀ p, Evaluates (f p)) : Evaluates (program >>= f)
  | bind {α β : Type} {x : Lower α} {f : α → Lower β} (hx : Evaluates x) (hf : ∀ a, Evaluates (f a)) :
      Evaluates (x >>= f)
  | value {op : Operation} (h : op.evaluates = true) (width bitSize : UInt8) : Evaluates (emitValue op width bitSize)
  | root (var : Target.VarId) (type : ShaderType) : Evaluates (rootChain var type)
  | extend {α : Type} {x : Lower Chain} {f : Chain → Lower α} (hx : Evaluates x) (fresh : Fresh x)
      (hf : ∀ c, Evaluates (f c)) (kind : α → LinkKind) (type : ShaderType) :
      Evaluates (x >>= fun c => f c >>= fun a => appendLink c (kind a) type)
  | temporary {var : Variable} (stored : var.storage = .functionLocal) :
      Evaluates (Lower.scope >>= fun c => addVariable var c.current)

attribute [simp] Evaluates.pure Evaluates.check Evaluates.scope Evaluates.root

theorem Evaluates.appends {m : Lower α} (h : Evaluates m) : Appends m := by
  induction h with
  | pure x => exact appends_pure x
  | check e => exact appends_check e
  | scope => exact appends_scope
  | read _ _ ih => exact appends_read ih
  | bind _ _ first rest => exact appends_bind first rest
  | value _ width bitSize => exact appends_emitValue _ width bitSize
  | root var type => exact appends_rootChain var type
  | temporary _ => exact appends_bind appends_scope fun c => appends_addVariable _ c.current
  | @extend α x f _ fresh _ kind type first rest =>
    intro s
    refine (first s).bind fun c u built => ?_
    have started := first.lengthens built
    refine (started.trans (rest c u)).bind fun a v found => ?_
    have later := (rest c).lengthens found
    rcases result : outcome (appendLink c (kind a) type) v with ⟨e | d, t⟩
    · obtain ⟨rfl, -⟩ := appendLink_fails ⟨e, result⟩
      exact started.trans later
    · obtain ⟨links, appended, rfl⟩ := appendLink_ok result
      obtain ⟨_, -, -, -, rfl⟩ := append_ok appended
      exact (started.trans later).append (fun small => fresh built (Nat.le_trans (later.size_le small) small)) _ _

/-- Attaching a link to a chain that has just been started gives one again. -/
theorem builds_extend {x : Lower Chain} {f : Chain → Lower α} (hx : Evaluates x ∧ Fresh x)
    (hf : ∀ c, Evaluates (f c)) (kind : α → LinkKind) (type : ShaderType) :
    Evaluates (x >>= fun c => f c >>= fun a => appendLink c (kind a) type) ∧
      Fresh (x >>= fun c => f c >>= fun a => appendLink c (kind a) type) :=
  ⟨.extend hx.1 hx.2 hf kind type,
    fresh_bind hx.1.appends fun c => fresh_bind (hf c).appends fun a => fresh_appendLink c (kind a) type⟩

@[simp]
theorem evaluates_abort (d : Defect) : Evaluates (abort d : Lower α) := .check (.error (.defect d))

@[simp]
theorem evaluates_nativeIntegers : Evaluates nativeIntegers := .bind .scope fun _ => .pure _

@[simp]
theorem evaluates_valueDef (v : ValueId) : Evaluates (valueDef v) := .read (fun _ _ => rfl) fun _ => .check _

@[simp]
theorem evaluates_nonzeroTest (raw zero : ValueId) : Evaluates (nonzeroTest raw zero) :=
  .bind (evaluates_valueDef raw) fun _ => .value rfl _ _

@[simp]
theorem evaluates_emitZero : Evaluates emitZero := .value rfl 1 32

theorem evaluates_emitLoad {op : Operation} (h : op.evaluates = true) (raw : Bool) (width bitSize : UInt8) :
    Evaluates (emitLoad raw op width bitSize) := by
  unfold emitLoad
  repeat' first
    | with_reducible apply Evaluates.bind
    | intro _
    | split
    | exact .value h _ _
    | exact .value rfl _ _
    | simp

@[simp]
theorem evaluates_loadLocation (type : ShaderType) (head : LinkId) :
    Evaluates (loadLocation type head) := by
  refine .read (fun _ _ => rfl) fun p => ?_
  repeat' first | with_reducible apply Evaluates.bind | intro _ | exact evaluates_emitLoad rfl _ _ _ | simp

/-- The function that a constant belongs to is the one whose body is being lowered. -/
theorem constantChain_eq (literal : Literal) : constantChain literal = (do
    match (← scope).current with
    | none => abort (.constantOutsideFunction literal.type)
    | some _ =>
      let initializer ← check (constantOf (← nativeIntegers) literal)
      let var ← scope >>= fun c => addVariable
        { name := "const_temp", type := literal.type, storage := .functionLocal, readOnly := true,
          initializer := some initializer } c.current
      rootChain var literal.type) := by
  funext s
  change outcome (constantChain literal) s = outcome _ s
  rw [constantChain, outcome_scope, outcome_scope]
  cases current : s.scope.current with
  | none => rfl
  | some f =>
    -- nothing between the two readings of the scope changes it
    refine outcome_bind_congr fun native u found => outcome_bind_congr fun k t copied => ?_
    simp only [runs_nativeIntegers, runs_check] at found copied
    obtain ⟨-, rfl⟩ := found
    obtain ⟨-, rfl⟩ := copied
    rw [outcome_bind, outcome_bind, outcome_scope, current]

@[simp]
theorem evaluates_constantChain (literal : Literal) : Evaluates (constantChain literal) := by
  rw [constantChain_eq]
  repeat' first | exact .temporary rfl | with_reducible apply Evaluates.bind | intro _ | split | simp

@[simp]
theorem evaluates_reorder (value : ValueId) (lanes : Lanes) (width : UInt8) :
    Evaluates (reorder value lanes width) := by
  unfold reorder
  repeat' first | with_reducible apply Evaluates.bind | intro _ | split | exact .value rfl _ _ | simp

@[simp]
theorem evaluates_convert (src dst : ShaderType) (value : ValueId) :
    Evaluates (convert src dst value) := by
  unfold convert
  repeat' first | with_reducible apply Evaluates.bind | intro _ | split | exact .value rfl _ _ | simp

@[simp]
theorem evaluates_componentwise (values : List ValueId) : Evaluates (componentwise values) := by
  induction values with
  | nil => exact .pure _
  | cons v vs ih =>
    unfold componentwise
    repeat' first | with_reducible apply Evaluates.bind | intro _ | exact ih | simp

@[simp]
theorem evaluates_compute (op : ExprOp) (type : ShaderType) (types : List ShaderType) (values : List ValueId) :
    Evaluates (compute op type types values) := by
  unfold compute
  repeat' first | with_reducible apply Evaluates.bind | intro _ | split | exact .value rfl _ _ | simp

theorem evaluates_interpolation {op : ExprOp} {intrinsic : IntrinsicOp} (h : interpolation? op = some intrinsic)
    (srcs : List Src) (indices : Indices) (width bitSize : UInt8) :
    Evaluates (emitValue (.intrinsic intrinsic srcs indices) width bitSize) := by
  refine .value ?_ width bitSize
  cases op <;> cases h <;> rfl

section
variable (source : Source.Program)

mutual

theorem evaluates_evaluate : ∀ r : Rvalue, Evaluates (evaluate source r)
  | .place p => by
    have chain := (builds_placeChain p).1
    unfold evaluate checkLoadable
    repeat' first | with_reducible apply Evaluates.bind | intro _ | split | exact chain | simp
  | .constant l => by
    unfold evaluate checkLoadable
    repeat' first | with_reducible apply Evaluates.bind | intro _ | split | simp
  | .swizzle value lanes width => by
    have inner := evaluates_evaluate value
    unfold evaluate
    repeat' first | with_reducible apply Evaluates.bind | intro _ | exact inner | simp
  | .texture t => by
    unfold evaluate
    exact evaluates_evaluateTexture t
  | .expression op type operands => by
    have operand := evaluates_evaluateOperand op operands
    have interpolant := evaluates_interpolantChain op operands
    have all := evaluates_evaluateAll operands
    unfold evaluate
    repeat' first
      | with_reducible apply Evaluates.bind
      | intro _
      | split
      | exact operand _ _
      | exact interpolant
      | exact all
      | exact evaluates_emitLoad rfl _ _ _
      | exact .value rfl _ _
      | exact evaluates_interpolation (by assumption) _ _ _ _
      | simp

theorem evaluates_evaluateAll :
    ∀ rs : List Rvalue, Evaluates (evaluateAll source rs)
  | [] => by
    unfold evaluateAll
    exact .pure _
  | r :: rs => by
    have first := evaluates_evaluate r
    have rest := evaluates_evaluateAll rs
    unfold evaluateAll
    repeat' first | with_reducible apply Evaluates.bind | intro _ | exact first | exact rest | simp

theorem evaluates_evaluateOperand (op : ExprOp) : ∀ (rs : List Rvalue) (number skip : Nat),
    Evaluates (evaluateOperand source op number skip rs)
  | [], _, _ => by
    unfold evaluateOperand
    exact evaluates_abort _
  | r :: _, _, 0 => by
    unfold evaluateOperand
    exact evaluates_evaluate r
  | _ :: rs, number, skip + 1 => by
    unfold evaluateOperand
    exact evaluates_evaluateOperand op rs number skip

theorem evaluates_interpolantChain (op : ExprOp) :
    ∀ rs : List Rvalue, Evaluates (interpolantChain source op rs)
  | [] => by
    unfold interpolantChain
    exact evaluates_abort _
  | .place p :: _ => by
    unfold interpolantChain
    exact (builds_placeChain p).1
  | .expression .. :: _ | .swizzle .. :: _ | .texture _ :: _ | .constant _ :: _ => by
    unfold interpolantChain
    exact evaluates_abort _

theorem builds_placeChain :
    ∀ p : Place, Evaluates (placeChain source p) ∧ Fresh (placeChain source p)
  | .var id type => by
    unfold placeChain
    refine ⟨?_, fresh_bind appends_scope fun _ => fresh_bind (appends_check _) fun _ => fresh_rootChain _ type⟩
    repeat' first | with_reducible apply Evaluates.bind | intro _ | simp
  | .field record index type => by
    have chain := builds_placeChain record
    unfold placeChain
    exact builds_extend chain (fun _ => .pure index) .struct type
  | .element array index type => by
    have chain := builds_placeChain array
    have value := evaluates_evaluate index
    unfold placeChain
    cases index with
    | constant l => exact builds_extend chain (fun _ => .check (literalIndex l)) .array type
    | place p | swizzle r lanes width | texture t | expression op type operands =>
      exact builds_extend chain (fun _ => value) (fun v => .array (.indirect v)) _

theorem evaluates_evaluateTexture :
    ∀ t : Texture, Evaluates (evaluateTexture source t)
  | ⟨op, type, sampler, coordinate, projector, comparator, offset, lod⟩ => by
    have chain := (builds_placeChain sampler).1
    have first := evaluates_textureSource .coord coordinate
    have second := evaluates_textureSource .projector projector
    have third := evaluates_textureSource .comparator comparator
    have fourth := evaluates_textureSource .offset offset
    have details := evaluates_lodSources op lod
    unfold evaluateTexture
    repeat' first
      | with_reducible apply Evaluates.bind
      | intro _
      | split
      | exact chain
      | exact first
      | exact second
      | exact third
      | exact fourth
      | exact details
      | exact .value rfl _ _
      | simp

theorem evaluates_textureSource (kind : TexSrcKind) :
    ∀ r : Option Rvalue, Evaluates (textureSource source kind r)
  | none => by
    unfold textureSource
    exact .pure _
  | some r => by
    have value := evaluates_evaluate r
    unfold textureSource
    repeat' first | with_reducible apply Evaluates.bind | intro _ | exact value | simp

theorem evaluates_lodSources (op : TextureOp) :
    ∀ lod : LodInfo, Evaluates (lodSources source op lod)
  | .absent | .component _ => by
    unfold lodSources
    repeat' first | with_reducible apply Evaluates.bind | intro _ | split | simp
  | .bias r | .lod r | .sampleIndex r => by
    have value := evaluates_evaluate r
    unfold lodSources
    repeat' first | with_reducible apply Evaluates.bind | intro _ | split | exact value | simp
  | .grad dpdx dpdy => by
    have first := evaluates_evaluate dpdx
    have second := evaluates_evaluate dpdy
    unfold lodSources
    repeat' first | with_reducible apply Evaluates.bind | intro _ | split | exact first | exact second | simp

end

end

attribute [simp] evaluates_evaluate evaluates_evaluateAll evaluates_evaluateOperand evaluates_interpolantChain
  evaluates_textureSource evaluates_lodSources

@[simp]
theorem evaluates_placeChain (source : Source.Program) (p : Place) : Evaluates (placeChain source p) :=
  (builds_placeChain source p).1

@[simp]
theorem evaluates_locationChain (source : Source.Program) (r : Rvalue) : Evaluates (locationChain source r) := by
  cases r <;> simp [locationChain]

/-! ### Calls and statements -/

/-- Values only add to the program, statements also bind variables, and the top level also sets up
functions. -/
inductive Layer where
  | value
  | statement
  | program

/-- The computation is put together from what lowering may do below the top level. In a `quiet` one only a discard may
end the invocation. -/
inductive Composes (quiet : Bool) (layer : Layer) : {α : Type} → Lower α → Prop where
  | evaluates {α : Type} {m : Lower α} (h : Evaluates m) : Composes quiet layer m
  | read {α : Type} {f : Target.Program → Lower α} (blind : ∀ p limit, f (p.limited limit) = f p)
      (hf : ∀ p, Composes quiet layer (f p)) : Composes quiet layer (program >>= f)
  | select {α β : Type} {e : Except Fault α} {f : α → Lower β} (hf : ∀ a, e = .ok a → Composes quiet layer (f a)) :
      Composes quiet layer (check e >>= f)
  | bind {α β : Type} {x : Lower α} {f : α → Lower β} (hx : Composes quiet layer x)
      (hf : ∀ a, Composes quiet layer (f a)) : Composes quiet layer (x >>= f)
  | effect {op : Operation} (h : quiet = true → op.retains = true) : Composes quiet layer (emitEffect op)
  | value {op : Operation} (h : quiet = true → op.retains = true) (width bitSize : UInt8) :
      Composes quiet layer (emitValue op width bitSize)
  | discard {op : Operation} (h : op.discards = true) : Composes quiet layer (do
      emitEffect op
      let p ← program
      setProgram { p with info := { p.info with usesDiscard := true } })
  | inRegion {m : Lower Unit} (h : Composes quiet layer m) : Composes quiet layer (inRegion m)
  | attach {change : Region → Region} (grows : ∀ r, r.toList <+: (change r).toList) :
      Composes quiet layer (modifyRegion change)
  | declare (here : layer = .statement) (source : Source.Program) (id : Source.VarId) :
      Composes quiet layer (declare source id)

attribute [simp] Composes.evaluates

section
variable {quiet : Bool} {layer : Layer} (source : Source.Program)

@[simp]
theorem composes_emitUndef : Composes quiet layer emitUndef := .value (fun _ => rfl) 1 32

@[simp]
theorem composes_emitLoad {op : Operation} (h : quiet = true → op.retains = true) (raw : Bool) (width bitSize : UInt8) :
    Composes quiet layer (emitLoad raw op width bitSize) := by
  unfold emitLoad
  repeat' first
    | with_reducible apply Composes.bind
    | intro _
    | split
    | exact .value h _ _
    | exact .value (fun _ => rfl) _ _
    | simp

@[simp]
theorem composes_storeLocation (head : LinkId) (value : ValueId) (mask : UInt8) :
    Composes quiet layer (storeLocation head value mask) := by
  unfold storeLocation
  repeat' first | with_reducible apply Composes.bind | intro _ | exact .effect fun _ => rfl | simp

@[simp]
theorem composes_copyLocation (dst src : LinkId) : Composes quiet layer (copyLocation dst src) := .effect fun _ => rfl

@[simp]
theorem evaluates_locations (rs : List Rvalue) : Evaluates (locations source rs) := by
  induction rs with
  | nil => exact .pure _
  | cons r rs ih =>
    unfold locations
    repeat' first | with_reducible apply Evaluates.bind | intro _ | exact ih | simp

@[simp]
theorem composes_callFunction (call : Source.Call) : Composes quiet layer (callFunction source call) := by
  unfold callFunction
  repeat' first | with_reducible apply Composes.bind | intro _ | split | exact .effect fun _ => rfl | simp

@[simp]
theorem evaluates_valueSources (params : List Rvalue) : Evaluates (valueSources source params) := by
  unfold valueSources
  repeat' first | with_reducible apply Evaluates.bind | intro _ | simp

@[simp]
theorem composes_imageCoordinate (coordinate : ValueId) (used : UInt8) :
    Composes quiet layer (imageCoordinate coordinate used) := by
  unfold imageCoordinate
  repeat' first | with_reducible apply Composes.bind | intro _ | split | exact .value (fun _ => rfl) _ _ | simp

section
variable {op : IntrinsicOp}
  (keeps : quiet = true → ∀ srcs indices, (Operation.intrinsic op srcs indices).retains = true)
include keeps

@[simp]
theorem composes_emitResult (srcs : List Src) (indices : Indices) (width bitSize : UInt8) :
    Composes quiet layer (emitResult op srcs indices width bitSize) :=
  .bind (.value (fun h => keeps h srcs indices) width bitSize) fun _ => .evaluates (.pure _)

@[simp]
theorem composes_emitNoResult (srcs : List Src) (indices : Indices) :
    Composes quiet layer (emitNoResult op srcs indices) :=
  .bind (.effect fun h => keeps h srcs indices) fun _ => .evaluates (.pure _)

@[simp]
theorem composes_emitStream (kind : String) (stream : Rvalue) : Composes quiet layer (emitStream op kind stream) := by
  unfold emitStream
  split
  · exact .effect fun h => keeps h _ _
  · simp

@[simp]
theorem composes_imageAccess (id : IntrinsicId) (image : ImageType) (result : Option ShaderType)
    (params : List Rvalue) : Composes quiet layer (imageAccess source id op image result params) := by
  unfold imageAccess
  repeat' first
    | with_reducible apply Composes.bind
    | intro _
    | split
    | exact composes_emitResult keeps _ _ _ _
    | exact composes_emitNoResult keeps _ _
    | exact .value (fun _ => rfl) _ _
    | simp

@[simp]
theorem composes_memoryStore (id : IntrinsicId) (base : Option Int32) (address : List Rvalue) (value mask : Rvalue) :
    Composes quiet layer (memoryStore source id op base address value mask) := by
  unfold memoryStore
  repeat' first | with_reducible apply Composes.bind | intro _ | exact composes_emitNoResult keeps _ _ | simp

@[simp]
theorem composes_applyRecipe (id : IntrinsicId) (recipe : Recipe) (result : Option ShaderType) (params : List Rvalue) :
    Composes quiet layer (applyRecipe source id op recipe result params) := by
  unfold applyRecipe
  repeat' first
    | with_reducible apply Composes.bind
    | intro _
    | split
    | exact composes_emitResult keeps _ _ _ _
    | exact composes_emitNoResult keeps _ _
    | exact composes_imageAccess source keeps _ _ _ _
    | exact composes_memoryStore source keeps _ _ _ _ _
    | exact composes_emitLoad (fun h => keeps h _ _) _ _ _
    | simp

end

def OpChoice.ops : OpChoice → List IntrinsicOp
  | .fixed op => [op]
  | .bySignedness signed unsigned => [signed, unsigned]

theorem chooseOp_mem {id : IntrinsicId} {type : Option ShaderType} {op : IntrinsicOp} {choice : OpChoice}
    (h : chooseOp id type choice = .ok op) : op ∈ choice.ops := by
  cases choice with
  | fixed fixed =>
    obtain rfl := Except.ok.inj h
    exact List.mem_cons_self
  | bySignedness signed unsigned =>
    simp only [chooseOp] at h
    split at h
    · obtain rfl := Except.ok.inj h
      split <;> simp [OpChoice.ops]
    · cases h

theorem ruleOf_retains (id : IntrinsicId) : ∀ op ∈ (ruleOf id).op.ops, op ≠ .discard ∧ op ≠ .discardIf := by
  cases id <;> decide

@[simp]
theorem composes_callIntrinsic (id : IntrinsicId) (call : Source.Call) :
    Composes quiet layer (callIntrinsic source id call) := by
  unfold callIntrinsic
  refine .select fun op chosen => ?_
  have keeps : quiet = true → ∀ srcs indices, (Operation.intrinsic op srcs indices).retains = true := by
    intro _ srcs indices
    obtain ⟨always, never⟩ := ruleOf_retains id op (chooseOp_mem chosen)
    cases op <;> first | rfl | exact absurd rfl always | exact absurd rfl never
  repeat' first
    | with_reducible apply Composes.bind
    | intro _
    | split
    | exact composes_applyRecipe source keeps _ _ _ _
    | simp

@[simp]
theorem composes_lowerCall (call : Source.Call) : Composes quiet layer (lowerCall source call) := by
  unfold lowerCall
  repeat' first | with_reducible apply Composes.bind | intro _ | split | simp

@[simp]
theorem composes_guarded (condition : Option Rvalue) {emission : Lower Unit} (h : Composes quiet layer emission) :
    Composes quiet layer (guarded source condition emission) := by
  unfold guarded
  repeat' first
    | with_reducible apply Composes.bind
    | intro _
    | split
    | exact h
    | exact .inRegion h
    | exact .attach fun _ => by simp [Region.pushBranch]
    | simp

@[simp]
theorem composes_assign (target : Place) (value : Rvalue) (mask : UInt8) (condition : Option Rvalue) :
    Composes quiet layer (assign source target value mask condition) := by
  unfold assign
  repeat' first
    | with_reducible apply Composes.bind
    | intro _
    | split
    | exact composes_guarded _ _ (composes_copyLocation _ _)
    | exact composes_guarded _ _ (composes_storeLocation _ _ _)
    | simp

@[simp]
theorem evaluates_returnVariable : Evaluates returnVariable := by
  unfold returnVariable
  repeat' first
    | refine .read (fun _ _ => rfl) fun p => ?_
    | with_reducible apply Evaluates.bind
    | intro _
    | split
    | simp

@[simp]
theorem composes_storeReturn (value : Rvalue) : Composes quiet layer (storeReturn source value) := by
  unfold storeReturn
  repeat' first
    | refine .read (fun _ _ => rfl) fun p => ?_
    | with_reducible apply Composes.bind
    | intro _
    | split
    | simp

@[simp]
theorem composes_discard (condition : Option Rvalue) :
    Composes quiet layer (lowerStmt source (.discard condition)) := by
  unfold lowerStmt
  cases condition with
  | none => exact .discard rfl
  | some c => exact .bind (.evaluates (evaluates_evaluate source c)) fun _ => .discard rfl

@[simp]
theorem composes_ret (value : Option Rvalue) : Composes quiet layer (lowerStmt source (.ret value)) := by
  unfold lowerStmt
  cases value <;> repeat' first | with_reducible apply Composes.bind | intro _ | exact .effect fun _ => rfl | simp

end

mutual

theorem composes_lowerStmt (quiet : Bool) (source : Source.Program) :
    ∀ stmt : Stmt, Composes quiet .statement (lowerStmt source stmt)
  | .declare id => by
    unfold lowerStmt
    exact .bind (.declare rfl source id) fun _ => .evaluates (.pure _)
  | .function name _ => by
    unfold lowerStmt
    simp
  | .loop body => by
    have inner := composes_lowerStmts quiet source body
    unfold lowerStmt
    exact .bind (.inRegion inner) fun _ => .attach fun _ => by simp [Region.pushLoop]
  | .branch condition thenBody elseBody => by
    have first := composes_lowerStmts quiet source thenBody
    have second := composes_lowerStmts quiet source elseBody
    unfold lowerStmt
    refine .bind (by simp) fun c => .bind (.inRegion first) fun _ => .bind (.inRegion second) fun _ => ?_
    exact .attach fun _ => by simp [Region.pushBranch]
  | .discard condition => composes_discard source condition
  | .jump _ | .barrier => by
    unfold lowerStmt
    exact .effect fun _ => rfl
  | .emitVertex stream | .endPrimitive stream => by
    unfold lowerStmt
    exact composes_emitStream (fun _ _ _ => rfl) _ stream
  | .ret value => composes_ret source value
  | .call call => by
    unfold lowerStmt
    simp
  | .assign target value mask condition => by
    unfold lowerStmt
    simp

theorem composes_lowerStmts (quiet : Bool) (source : Source.Program) :
    ∀ stmts : List Stmt, Composes quiet .statement (lowerStmts source stmts)
  | [] => by
    unfold lowerStmts
    simp
  | stmt :: stmts => by
    unfold lowerStmts
    exact .bind (composes_lowerStmt quiet source stmt) fun _ => composes_lowerStmts quiet source stmts

end

end Lowering

end ShaderSSA
