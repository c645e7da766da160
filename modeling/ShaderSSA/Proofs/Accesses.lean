import ShaderSSA.Proofs.Calls
import ShaderSSA.Proofs.Shapes

/-!
What accesses to buffer and shared memory give. The value that is stored in the result of such a call has
the components of the result's type. Its bit size follows the type in loads from buffer memory only:
atomic operations there give words, and accesses to shared memory ignore that a target without native
integers has words in the place of all integers.
-/

namespace ShaderSSA.Lowering
open Source Target Lower

namespace Recipe

/-- The bit size of the value that an access to buffer or shared memory gives to a result of the type. -/
def accessBits? (native : Bool) (type : ShaderType) : Recipe → Option UInt8
  | .ssboLoad => some (valueBits native type)
  | .ssboAtomic _ => some 32
  | .sharedLoad | .sharedAtomic _ => some type.bitSize
  | _ => none

/-- The access to shared memory that an access to buffer memory corresponds to. -/
def shared? : Recipe → Option Recipe
  | .ssboLoad => some .sharedLoad
  | .ssboAtomic data => some (.sharedAtomic data)
  | _ => none

/-- What the access gives is as wide as a load of the base type. -/
def keepsWidth (native : Bool) (base : BaseType) : Recipe → Bool
  | .ssboAtomic _ => base.bitSize = 32 || (!native && !base.isFloat)
  | .sharedLoad | .sharedAtomic _ => base.bitSize = 32 || native || base.isFloat
  | _ => true

variable {native : Bool} {type : ShaderType} {base : BaseType} {bits : UInt8} {recipe : Recipe}

theorem accessBits?_eq_valueBits (numeric : type.baseType? = some base)
    (access : recipe.accessBits? native type = some bits) :
    bits = valueBits native type ↔ recipe.keepsWidth native base = true := by
  have own : type.bitSize = base.bitSize := by simp [ShaderType.bitSize, numeric]
  have stored : valueBits native type = storedBits native base := by simp [valueBits_eq, numeric]
  cases recipe with
  | ssboLoad =>
    obtain rfl := Option.some.inj access
    simp [keepsWidth]
  | ssboAtomic data =>
    obtain rfl := Option.some.inj access
    rw [stored, eq_comm]
    cases native <;> cases float : base.isFloat <;> simp [storedBits, keepsWidth, float]
  | sharedLoad | sharedAtomic data =>
    obtain rfl := Option.some.inj access
    rw [stored, own]
    cases native <;> cases float : base.isFloat <;> simp [storedBits, keepsWidth, float]
  | _ => cases access

theorem shared?_accessBits? (numeric : type.baseType? = some base)
    (access : recipe.accessBits? native type = some bits) {other : Recipe} (shared : recipe.shared? = some other) :
    other.accessBits? native type = some bits ↔
      base.bitSize = 32 ∨ recipe = .ssboLoad ∧ (native = true ∨ base.isFloat = true) := by
  have own : type.bitSize = base.bitSize := by simp [ShaderType.bitSize, numeric]
  have stored : valueBits native type = storedBits native base := by simp [valueBits_eq, numeric]
  cases recipe with
  | ssboLoad =>
    obtain rfl := Option.some.inj access
    obtain rfl := Option.some.inj shared
    rw [accessBits?, stored, own]
    cases native <;> cases float : base.isFloat <;> simp [storedBits, float]
  | ssboAtomic data =>
    obtain rfl := Option.some.inj access
    obtain rfl := Option.some.inj shared
    rw [accessBits?, own]
    simp
  | _ => cases shared

end Recipe

variable {source : Source.Program} {s t : State} {bits : UInt8} {id : IntrinsicId}

theorem applyRecipe_access {op : IntrinsicOp} {recipe : Recipe} {type : ShaderType} {params : List Rvalue}
    {value : Option ValueId} (access : recipe.accessBits? s.scope.nativeIntegers type = some bits)
    (run : Runs (applyRecipe source id op recipe (some type) params) s value t)
    (small : t.program.values.size ≤ UInt32.size) : ∃ v, value = some v ∧ t.program.Shapes v type.rows bits := by
  cases recipe with
  | ssboLoad =>
    obtain rfl := Option.some.inj access
    simp only [applyRecipe, resultType, runs_bind, runs_check, Except.ok.injEq, runs_nativeIntegers, runs_pure] at run
    obtain ⟨_, _, ⟨rfl, rfl⟩, srcs, u, srcsRun, _, _, ⟨rfl, rfl⟩, v, _, load, rfl, rfl⟩ := run
    have shapes := emitLoad_shapes load small
    rw [tested_eq_valueBits fun raw => raw, srcsRun.native_eq (by simp)] at shapes
    exact ⟨v, rfl, shapes⟩
  | ssboAtomic data | sharedLoad | sharedAtomic data =>
    obtain rfl := Option.some.inj access
    simp only [applyRecipe, resultType, emitResult, runs_bind, runs_check, Except.ok.injEq, runs_pure] at run
    obtain ⟨srcs, u, srcsRun, _, _, ⟨rfl, rfl⟩, v, _, emitted, rfl, rfl⟩ := run
    exact ⟨v, rfl, emitValue_shapes emitted small⟩
  | _ => cases access

/-- A call that accesses buffer or shared memory stores all components of what the access gives in its result. -/
theorem callIntrinsic_access {call : Source.Call} {place : Place}
    (access : (ruleOf id).recipe.accessBits? s.scope.nativeIntegers place.type = some bits)
    (target : call.result = some place) (run : Runs (callIntrinsic source id call) s () t)
    (small : t.program.values.size ≤ UInt32.size) :
    ∃ u chain w v mask, Runs (placeChain source place) u chain w ∧ fullMask place.type.rows = .ok mask ∧
      t = w.withEffect (.intrinsic .storeDeref [.location chain.head, .ssa v]
        { width := place.type.rows, writeMask := some mask }) ∧ t.program.Shapes v place.type.rows bits := by
  simp only [callIntrinsic, target, Option.map_some, runs_bind, runs_check] at run
  obtain ⟨op, _, ⟨-, rfl⟩, arity, _, ⟨-, rfl⟩, _, _, ⟨-, rfl⟩, value, u, applied, run⟩ := run
  cases value with
  | none => exact (runs_abort run).elim
  | some v =>
    simp only [runs_bind, runs_valueDef, runs_check] at run
    obtain ⟨chain, _, chainRun, d, _, ⟨found, rfl⟩, mask, w, ⟨masked, rfl⟩, stored⟩ := run
    obtain ⟨d', again, rfl⟩ := storeLocation_emits stored
    obtain rfl := Option.some.inj (again.symm.trans found)
    have path : Path .value u w := (evaluates_placeChain source place).stepwise.path chainRun
    -- what the access gives keeps its shape while the place is looked up
    obtain ⟨v', same, d, there, width, size⟩ :=
      applyRecipe_access access applied (Nat.le_trans path.noLarger.values small)
    obtain rfl := Option.some.inj same
    obtain rfl := Option.some.inj ((path.keeps.values there).symm.trans found)
    rw [width] at masked ⊢
    exact ⟨u, chain, w, _, mask, chainRun, masked, rfl, _, found, width, size⟩

/-- A call that accesses buffer or shared memory stores a value with the components of its result. The value is as wide
as loads of the result's type exactly where the access keeps the width of the base type. -/
theorem lowerCall_result_width_iff {signature : Signature} {id : IntrinsicId} {call : Source.Call} {place : Place}
    {base : BaseType} {bits : UInt8} (found : source.signature? call.callee = some signature)
    (builtin : signature.intrinsic = some id)
    (access : (ruleOf id).recipe.accessBits? s.scope.nativeIntegers place.type = some bits)
    (target : call.result = some place) (numeric : place.type.baseType? = some base)
    (run : Runs (lowerCall source call) s () t) (small : t.program.values.size ≤ UInt32.size) :
    (∃ u chain w v mask, Runs (placeChain source place) u chain w ∧ fullMask place.type.rows = .ok mask ∧
      t = w.withEffect (.intrinsic .storeDeref [.location chain.head, .ssa v]
        { width := place.type.rows, writeMask := some mask }) ∧ t.program.Shapes v place.type.rows bits) ∧
    (bits = valueBits s.scope.nativeIntegers place.type ↔
      (ruleOf id).recipe.keepsWidth s.scope.nativeIntegers base = true) ∧
    ∀ other, (ruleOf id).recipe.shared? = some other →
      (other.accessBits? s.scope.nativeIntegers place.type = some bits ↔ base.bitSize = 32 ∨
        (ruleOf id).recipe = .ssboLoad ∧ (s.scope.nativeIntegers = true ∨ base.isFloat = true)) := by
  simp only [lowerCall, runs_bind, runs_check, getSignature_ok] at run
  obtain ⟨_, _, ⟨again, rfl⟩, run⟩ := run
  obtain rfl := Option.some.inj (found.symm.trans again)
  rw [builtin] at run
  exact ⟨callIntrinsic_access access target run small, Recipe.accessBits?_eq_valueBits numeric access,
    fun other => Recipe.shared?_accessBits? numeric access⟩

namespace Tally

def total : Place := .var ⟨0⟩ (.scalar .int64)

def cell : Rvalue := .place (.var ⟨1⟩ (.scalar .uint))

def shared : Source.Call := { callee := ⟨0⟩, parameters := [cell, cell], result := some total }

def buffered : Source.Call := { callee := ⟨1⟩, parameters := [cell, cell, cell], result := some total }

def builtin (name : String) (id : IntrinsicId) : Signature :=
  { name, returnType := .scalar .int64, parameters := [], body := [], isDefined := false, intrinsic := some id }

def program : Source.Program where
  name := "tally"
  layout := .fragment false .none false
  vars := #[
    { name := "total", type := .scalar .int64, mode := .shaderOut },
    { name := "cell", type := .scalar .uint, mode := .uniform }]
  signatures := #[builtin "addShared" .sharedAtomicAdd, builtin "addBuffer" .ssboAtomicAdd]

def declared : State := (outcome (do let _ ← declare program ⟨0⟩; declare program ⟨1⟩) (.initial program {})).2

def after (call : Source.Call) : State := (outcome (lowerCall program call) declared).2

theorem runs (call : Source.Call) (h : (outcome (lowerCall program call) declared).1.isOk = true) :
    Runs (lowerCall program call) declared () (after call) := by
  obtain ⟨_, run⟩ := runs_of_isOk h
  exact run

end Tally

theorem lowerCall_result_width_iff_tally :
    Runs (lowerCall Tally.program Tally.shared) Tally.declared () (Tally.after Tally.shared) ∧
      (∃ chain w v, Tally.after Tally.shared = State.withEffect w (.intrinsic .storeDeref [.location chain, .ssa v]
        { width := 1, writeMask := some 1 }) ∧ (Tally.after Tally.shared).program.Shapes v 1 64) ∧
      valueBits Tally.declared.scope.nativeIntegers Tally.total.type = 64 := by
  have run := Tally.runs Tally.shared (by decide +kernel)
  obtain ⟨⟨_, chain, w, v, mask, -, full, stored, shapes⟩, same, -⟩ :=
    lowerCall_result_width_iff rfl rfl rfl rfl rfl run (by decide +kernel)
  obtain rfl := Except.ok.inj full
  exact ⟨run, ⟨chain.head, w, v, stored, shapes⟩, (same.mpr (by decide +kernel)).symm⟩

/-- The result of an atomic addition to buffer memory is a word, but loads of its place have 64 bits. -/
theorem lowerCall_stores_word :
    Runs (lowerCall Tally.program Tally.buffered) Tally.declared () (Tally.after Tally.buffered) ∧
      (∃ head v d, (Tally.after Tally.buffered).program.instrs.back?.map Instr.operation =
        some (.intrinsic .storeDeref [.location head, .ssa v] { width := 1, writeMask := some 1 }) ∧
        (Tally.after Tally.buffered).program.value? v = some d ∧ d.bitSize = 32) ∧
      valueBits Tally.declared.scope.nativeIntegers Tally.total.type = 64 := by
  refine ⟨Tally.runs Tally.buffered (by decide +kernel), ⟨⟨3⟩, ⟨3⟩, ⟨1, 32, ⟨3⟩⟩, ?_, ?_, rfl⟩, by decide +kernel⟩
  · decide +kernel
  · decide +kernel

end ShaderSSA.Lowering
