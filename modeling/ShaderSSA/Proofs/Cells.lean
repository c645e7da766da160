import Mathlib.Logic.Function.Basic
import ShaderSSA.Proofs.Growth
import ShaderSSA.Proofs.Skeleton

/-!
A machine for the code of single assignments, over components and locations of any kind: what other
instructions compute, where chains lead and which conditions hold are left open. Code that only computes
leaves memory alone, and a store overwrites the channels that its mask selects.
-/

namespace ShaderSSA.Target

variable {mask width : UInt8} {v : ValueId} {head : LinkId} {kinds : List LinkKind}

/-- What is left open about a machine. -/
structure Interpretation (α L : Type) where
  /-- What is read where there is no component. -/
  undefined : α
  /-- Where a chain leads. -/
  locate : (ValueId → List α) → List LinkKind → L
  /-- What other instructions compute. -/
  compute : (ValueId → List α) → (L → List α) → Operation → (width : Nat) → Vector α width
  isTrue : List α → Bool

/-- The components of values and of locations. -/
structure Cells (α L : Type) where
  values : ValueId → List α
  memory : L → List α

def Cells.write {α L : Type} [DecidableEq L] (x : Cells α L) (place : L) (components : List α) : Cells α L :=
  { x with memory := Function.update x.memory place components }

namespace Interpretation
variable {α L : Type} [DecidableEq L] (I : Interpretation α L) (p : Program)

def read (values : ValueId → List α) (src : AluSrc) (i : Nat) : α :=
  (src.lanes.toList[i]?.bind fun c => (values src.value)[c.toNat]?).getD I.undefined

def result (x : Cells α L) (op : Operation) (width : Nat) : List α :=
  match op with
  | .alu .imov [src] | .alu .fmov [src] => (List.range width).map (I.read x.values src)
  | op => (I.compute x.values x.memory op width).toList

/-- The channels that the mask writes take the components of the value. -/
def overwrite (mask : UInt8) (value old : List α) : List α :=
  old.mapIdx fun i x => if mask.toNat.testBit i then value.getD i I.undefined else x

/-- Execute one instruction. Only stores have an effect. -/
def perform (x : Cells α L) (i : Instr) : Option (Cells α L) :=
  match i.operation with
  | .intrinsic .storeDeref [.location head, .ssa v] indices => do
    let place := I.locate x.values (← p.chain? head)
    let mask ← indices.writeMask
    return x.write place (I.overwrite mask (x.values v) (x.memory place))
  | op =>
    if op.computes then
      match i.dest with
      | none => some x
      | some v => (p.value? v).map fun d =>
        { x with values := Function.update x.values v (I.result x op d.width.toNat) }
    else none

mutual

def runNode : Node → Cells α L → Option (Cells α L)
  | .instr id, x => (p.instr? id).bind (I.perform p x)
  | .branch condition thenBody elseBody, x =>
    if I.isTrue (x.values condition) then runNodes thenBody x else runNodes elseBody x
  | .loop _, _ => none

def runNodes : List Node → Cells α L → Option (Cells α L)
  | [], x => some x
  | n :: ns, x => (runNode n x).bind (runNodes ns)

end

def passes (x : Cells α L) (guard : Option ValueId) : Bool := guard.all fun c => I.isTrue (x.values c)

variable {I p} {a b : List Node} {x : Cells α L}

theorem runNodes_append : I.runNodes p (a ++ b) x = (I.runNodes p a x).bind (I.runNodes p b) := by
  induction a generalizing x with
  | nil => simp [runNodes]
  | cons n a ih =>
    simp only [List.cons_append, runNodes, Option.bind_assoc]
    congr 1
    funext y
    exact ih

theorem runNodes_singleton (n : Node) : I.runNodes p [n] x = I.runNode p n x := by
  simp [runNodes]

omit [DecidableEq L] in
theorem length_result (op : Operation) (width : Nat) : (I.result x op width).length = width := by
  unfold result
  split <;> simp

theorem perform_computing {i : Instr} (computes : i.operation.computes = true)
    (known : ∀ v, i.dest = some v → ∃ d, p.value? v = some d) (x : Cells α L) :
    ∃ y, I.perform p x i = some y ∧ y.memory = x.memory ∧ (∀ v, i.dest ≠ some v → y.values v = x.values v) ∧
      ∀ v d, i.dest = some v → p.value? v = some d → y.values v = I.result x i.operation d.width.toNat := by
  unfold perform
  split
  · rename_i is
    rw [is] at computes
    cases computes
  rw [if_pos computes]
  cases dest : i.dest with
  | none => exact ⟨x, rfl, rfl, fun _ _ => rfl, by simp⟩
  | some v =>
    obtain ⟨d, found⟩ := known v dest
    simp only [found, Option.map_some]
    refine ⟨_, rfl, rfl, fun w other => Function.update_of_ne ?_ _ _, ?_⟩
    · rintro rfl
      exact other rfl
    · intro w e same there
      obtain rfl := Option.some.inj same
      obtain rfl := Option.some.inj (found.symm.trans there)
      exact Function.update_self ..

end Interpretation

/-! ### Code that only computes -/

/-- The nodes are instructions that only compute, into values from number `first` on. -/
def Program.Simple (p : Program) (first : Nat) (nodes : List Node) : Prop :=
  ∀ n ∈ nodes, ∃ id i, n = .instr id ∧ p.instr? id = some i ∧ i.operation.computes = true ∧
    ∀ v, i.dest = some v → first ≤ v.index.toNat ∧ ∃ d, p.value? v = some d

namespace Program.Simple
variable {p q : Program} {first second : Nat} {a b : List Node}

theorem mono (h : p.Simple first a) (kept : p.Extends q) : q.Simple first a := by
  intro n member
  obtain ⟨id, i, is, found, computes, fresh⟩ := h n member
  refine ⟨id, i, is, kept.instrs found, computes, fun v dest => ?_⟩
  obtain ⟨late, d, there⟩ := fresh v dest
  exact ⟨late, d, kept.values there⟩

theorem append (h : p.Simple first a) (h' : p.Simple second b) (later : first ≤ second) : p.Simple first (a ++ b) := by
  intro n member
  rcases List.mem_append.mp member with member | member
  · exact h n member
  · obtain ⟨id, i, is, found, computes, fresh⟩ := h' n member
    exact ⟨id, i, is, found, computes, fun v dest => ⟨Nat.le_trans later (fresh v dest).1, (fresh v dest).2⟩⟩

theorem not_mem_dests (h : p.Simple first a) (early : v.index.toNat < first) : v ∉ destsOf p a := by
  intro member
  obtain ⟨n, inside, dest⟩ := List.mem_flatMap.mp member
  obtain ⟨id, i, rfl, found, -, fresh⟩ := h n inside
  simp only [Node.dests, found, Option.bind_some, Option.mem_toList] at dest
  have late := (fresh v dest).1
  omega

variable {α L : Type} [DecidableEq L] {I : Interpretation α L}

/-- What computes leaves memory and other values alone, and gives its values as many components as they are
wide. -/
theorem run (h : p.Simple first a) (x : Cells α L) : ∃ y, I.runNodes p a x = some y ∧ y.memory = x.memory ∧
    (∀ v ∉ destsOf p a, y.values v = x.values v) ∧
    ∀ v ∈ destsOf p a, ∀ d, p.value? v = some d → (y.values v).length = d.width.toNat := by
  induction a generalizing x with
  | nil => exact ⟨x, rfl, rfl, fun _ _ => rfl, by simp [destsOf]⟩
  | cons n a ih =>
    obtain ⟨id, i, rfl, found, computes, fresh⟩ := h n List.mem_cons_self
    obtain ⟨y, performed, memory, others, own⟩ :=
      Interpretation.perform_computing (I := I) computes (fun v dest => (fresh v dest).2) x
    obtain ⟨z, rest, memory', others', own'⟩ := ih (fun n member => h n (List.mem_cons_of_mem _ member)) y
    have dests : ∀ v, v ∈ destsOf p (.instr id :: a) ↔ i.dest = some v ∨ v ∈ destsOf p a := by
      intro v
      simp [destsOf, Node.dests, found]
    refine ⟨z, ?_, memory'.trans memory, fun v outside => ?_, fun v inside d there => ?_⟩
    · simp [Interpretation.runNodes, Interpretation.runNode, found, performed, rest]
    · rw [dests, not_or] at outside
      rw [others' v outside.2, others v outside.1]
    · by_cases later : v ∈ destsOf p a
      · exact own' v later d there
      · obtain dest | absurd := (dests v).mp inside
        · rw [others' v later, own v d dest there, Interpretation.length_result]
        · exact (later absurd).elim

end Program.Simple

/-! ### Stores -/

/-- A node, in the branch of a guard if there is one. -/
def under (guard : Option ValueId) (n : Node) : Node :=
  match guard with
  | none => n
  | some c => .branch c [n] []

def storing (head : LinkId) (v : ValueId) (width mask : UInt8) : Operation :=
  .intrinsic .storeDeref [.location head, .ssa v] { width, writeMask := some mask }

section
variable {α L : Type} [DecidableEq L] {I : Interpretation α L} {p : Program} {x : Cells α L}

theorem run_under (guard : Option ValueId) (n : Node) :
    I.runNodes p [under guard n] x = if I.passes x guard then I.runNode p n x else some x := by
  cases guard with
  | none => simp [under, Interpretation.runNodes, Interpretation.passes]
  | some c =>
    rw [under, Interpretation.runNodes_singleton, Interpretation.runNode, Interpretation.runNodes_singleton]
    rfl

theorem perform_storing (chain : p.chain? head = some kinds) :
    I.perform p x ⟨storing head v width mask, none⟩ =
      some (x.write (I.locate x.values kinds)
        (I.overwrite mask (x.values v) (x.memory (I.locate x.values kinds)))) := by
  simp [Interpretation.perform, storing, chain]

/-- A store changes no more than the location at the end of its chain, and that only where its guard holds. -/
theorem run_storing {guard : Option ValueId} {id : InstId}
    (found : p.instr? id = some ⟨storing head v width mask, none⟩) (chain : p.chain? head = some kinds) :
    ∃ y place, I.runNodes p [under guard (.instr id)] x = some y ∧
      y.values = x.values ∧ (p.chain? head).map (I.locate x.values) = some place ∧
      (I.passes x guard = false → y.memory = x.memory) ∧
      (I.passes x guard = true → (∀ l, l ≠ place → y.memory l = x.memory l) ∧
        y.memory place = I.overwrite mask (x.values v) (x.memory place)) := by
  rw [run_under, Interpretation.runNode, found, Option.bind_some, perform_storing chain, chain, Option.map_some]
  cases pass : I.passes x guard with
  | false => exact ⟨x, _, rfl, rfl, rfl, fun _ => rfl, by simp⟩
  | true =>
    refine ⟨_, _, rfl, rfl, rfl, by simp, fun _ => ⟨fun l other => ?_, ?_⟩⟩
    · exact Function.update_of_ne other ..
    · exact Function.update_self ..

end

theorem overwrite_getElem? {α L : Type} (I : Interpretation α L) {value old : List α} {i : Nat}
    (inside : i < old.length) : (I.overwrite mask value old)[i]? =
      if mask.toNat.testBit i then some (value.getD i I.undefined) else old[i]? := by
  rw [Interpretation.overwrite, List.getElem?_mapIdx, List.getElem?_eq_getElem inside, Option.map_some]
  split <;> rfl

end ShaderSSA.Target
