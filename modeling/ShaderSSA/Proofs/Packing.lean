import ShaderSSA.Proofs.Meaning
import ShaderSSA.Proofs.Success

/-!
Packing. A value that is assigned to some channels of a place is spread over them: a written channel takes
the component whose number is that of the written channels below it. Packing fails exactly when there are
more written channels than components.
-/

namespace ShaderSSA.Lowering
open Source Target Lower
variable {mask width : UInt8} {i : Nat}

/-! ### Written channels -/

def rank (mask : UInt8) (i : Nat) : Nat := (List.range i).countP mask.toNat.testBit

theorem rank_succ (mask : UInt8) (i : Nat) :
    rank mask (i + 1) = rank mask i + if mask.toNat.testBit i then 1 else 0 := by
  simp [rank, List.range_succ, List.countP_append, List.countP_singleton]

theorem rank_le (mask : UInt8) (i : Nat) : rank mask i ≤ i := by
  have counted := List.countP_le_length (p := mask.toNat.testBit) (l := List.range i)
  rwa [List.length_range] at counted

theorem rank_mono (mask : UInt8) {j : Nat} (below : i ≤ j) : rank mask i ≤ rank mask j :=
  (List.range_sublist.mpr below).countP_le

theorem rank_lt {j : Nat} (written : mask.toNat.testBit i = true) (below : i < j) : rank mask i < rank mask j := by
  have next := rank_mono mask (Nat.succ_le_of_lt below)
  rw [rank_succ, if_pos written] at next
  omega

theorem exists_rank {k n : Nat} (below : k < rank mask n) : ∃ i < n, mask.toNat.testBit i = true ∧ rank mask i = k := by
  induction n with
  | zero => simp [rank] at below
  | succ n ih =>
    rw [rank_succ] at below
    by_cases early : k < rank mask n
    · obtain ⟨i, inside, written, is⟩ := ih early
      exact ⟨i, by omega, written, is⟩
    · split at below
      · rename_i written
        exact ⟨n, by omega, written, by omega⟩
      · omega

theorem rank_of_full {full : UInt8} (narrow : width ≤ 4) (isFull : fullMask width = .ok full)
    (inside : i ≤ width.toNat) : rank full i = i := by
  have four : width.toNat ≤ 4 := UInt8.le_iff_toNat_le.mp narrow
  have small : 2 ^ width.toNat ≤ 2 ^ 4 := Nat.pow_le_pow_right (by decide) four
  have bits : full.toNat = 2 ^ width.toNat - 1 := by
    rw [fullMask] at isFull
    split at isFull
    · obtain rfl := Except.ok.inj isFull
      rw [UInt8.toNat_ofNat', Nat.pow_eq]
      exact Nat.mod_eq_of_lt (by omega)
    · cases isFull
  have all : ∀ j ∈ List.range i, full.toNat.testBit j = true := by
    intro j member
    have below := List.mem_range.mp member
    rw [bits, Nat.testBit_two_pow_sub_one, decide_eq_true_eq]
    omega
  rw [rank, List.countP_eq_length.mpr all, List.length_range]

theorem lt_width_of_written (inside : mask.toNat < 2 ^ width.toNat)
    (written : mask.toNat.testBit i = true) : i < width.toNat := by
  by_contra outside
  have large : 2 ^ width.toNat ≤ 2 ^ i := Nat.pow_le_pow_right (by decide) (by omega)
  rw [Nat.testBit_lt_two_pow (Nat.lt_of_lt_of_le inside large)] at written
  cases written

theorem channels_pos (nonzero : 0 < mask) (inside : mask.toNat < 2 ^ width.toNat) : 0 < channels mask width := by
  have positive : mask.toNat ≠ 0 := by
    rw [UInt8.lt_iff_toNat_lt] at nonzero
    exact Nat.ne_of_gt nonzero
  obtain ⟨i, written⟩ := Nat.exists_testBit_of_ne_zero positive
  exact Nat.lt_of_le_of_lt (Nat.zero_le _) (rank_lt written (lt_width_of_written inside written))

/-! ### Selectors -/

theorem packedLane_of_written (inside : i < width.toNat)
    (written : mask.toNat.testBit i = true) : (packedLane mask width i).toNat = rank mask i := by
  have counted : (List.range i).countP (fun j => decide (j < width.toNat) && mask.toNat.testBit j) = rank mask i := by
    refine List.countP_congr fun j member => ?_
    have below : j < width.toNat := Nat.lt_trans (List.mem_range.mp member) inside
    simp [below]
  have small : rank mask i < 256 := by
    have bounded := rank_le mask i
    have word := width.toNat_lt
    omega
  simp only [packedLane, inside, written, decide_true, Bool.and_self, if_true, counted]
  rw [UInt8.toNat_ofNat']
  exact Nat.mod_eq_of_lt small

theorem packedLanes_getElem? (narrow : width ≤ 4) (inside : i < width.toNat) :
    ((packedLanes mask width).take width)[i]? = some (packedLane mask width i) := by
  have four : i < 4 := Nat.lt_of_lt_of_le inside (UInt8.le_iff_toNat_le.mp narrow)
  rw [Lanes.take, List.getElem?_take_of_lt inside]
  obtain rfl | rfl | rfl | rfl : i = 0 ∨ i = 1 ∨ i = 2 ∨ i = 3 := by omega
  all_goals rfl

theorem packedLanes_outside {d : UInt8} (narrow : width ≤ 4) (writes : 0 < channels mask width) :
    (∃ c ∈ (packedLanes mask width).take width, d ≤ c) ↔ d.toNat < channels mask width := by
  constructor
  · rintro ⟨c, member, beyond⟩
    by_contra few
    have one : 1 ≤ d := by
      rw [UInt8.le_iff_toNat_le]
      exact Nat.le_trans writes (by omega)
    exact absurd (packedLanes_lt (by omega) one c member) (UInt8.not_lt.mpr beyond)
  · intro many
    obtain ⟨i, inside, written, is⟩ := exists_rank many
    refine ⟨_, List.mem_of_getElem? (packedLanes_getElem? narrow inside), ?_⟩
    rw [UInt8.le_iff_toNat_le, packedLane_of_written inside written]
    exact Nat.le_of_eq is.symm

/-! ### Aborting -/

section
variable {α β : Type} {s t : State}

/-- Lowering finds the program at fault, as opposed to running out of room. -/
def Aborts (m : Lower α) (s : State) : Prop := ∃ f t, outcome m s = (.error (.fault f), t)

theorem outcome_of_runs {x : Lower α} {f : α → Lower β} {a : α} (run : Runs x s a t) :
    outcome (x >>= f) s = outcome (f a) t := by
  rw [Runs] at run
  rw [outcome_bind, run]

theorem aborts_of_runs {x : Lower α} {f : α → Lower β} {a : α} (run : Runs x s a t) :
    Aborts (x >>= f) s ↔ Aborts (f a) t := by
  rw [Aborts, outcome_of_runs run, Aborts]

theorem aborts_abort (d : Defect) : Aborts (abort d : Lower α) s := ⟨_, _, rfl⟩

theorem not_aborts_of_runs {m : Lower α} {a : α} (run : Runs m s a t) : ¬ Aborts m s := by
  rintro ⟨f, u, failed⟩
  rw [Runs, failed] at run
  cases run

theorem not_aborts_emitValue {op : Operation} {bitSize : UInt8} (fine : ¬ (width = 0 ∨ 4 < width)) :
    ¬ Aborts (emitValue op width bitSize) s := by
  rintro ⟨f, t, failed⟩
  have read : outcome program s = (.ok s.program, s) := rfl
  rw [emitValue, if_neg fine, outcome_bind, read] at failed
  cases added : s.program.addValue op width bitSize with
  | error | ok =>
    simp only [added] at failed
    cases failed

end

/-! ### The packing step -/

variable {source : Source.Program} {s t : State} {full mask width : UInt8} {condition : Option Rvalue} {d : ValueDef}
  {target : Place} {v : ValueId} {value : Rvalue}

/-- Spread a value over the channels that the mask writes, unless it writes all of them. -/
def packing (full mask width : UInt8) (v : ValueId) : Lower ValueId :=
  if mask = full then pure v else reorder v (packedLanes mask width) width

@[simp]
theorem stepwise_packing {layer : Layer} (full mask width : UInt8) (v : ValueId) :
    Stepwise layer (packing full mask width v) := by
  unfold packing
  split <;> simp

theorem assign_eq (isFull : fullMask target.type.rows = .ok full) (nonzero : mask ≠ 0)
    (stored : (value.isStored && mask = full) = false) :
    assign source target value mask condition = (do
      let dst ← placeChain source target
      let v ← evaluate source value
      let x ← packing full mask target.type.rows v
      guarded source condition (storeLocation dst.head x mask)) := by
  have known : check (fullMask target.type.rows) = (pure full : Lower UInt8) := by rw [isFull]; rfl
  have notCopied : (value.isStored && (mask = full || mask = 0)) = false := by
    rw [decide_eq_false nonzero, Bool.or_false]
    exact stored
  simp only [assign, known, pure_bind, notCopied, Bool.false_eq_true, if_false, if_neg nonzero, packing]
  split
  · simp only [pure_bind]
  · rfl

theorem assign_zero (isFull : fullMask target.type.rows = .ok full) :
    assign source target value 0 condition = assign source target value full condition := by
  have known : check (fullMask target.type.rows) = (pure full : Lower UInt8) := by rw [isFull]; rfl
  simp only [assign, known, pure_bind, decide_true, Bool.or_true, Bool.true_or, if_true, ite_self]

/-- Packing fails exactly if the mask leaves channels out and writes more of them than there are components. -/
theorem packing_aborts_iff (found : s.program.value? v = some d) (low : 1 ≤ width) (narrow : width ≤ 4)
    (writes : 0 < channels mask width) :
    Aborts (packing full mask width v) s ↔ mask ≠ full ∧ d.width.toNat < channels mask width := by
  have read : Runs (valueDef v) s d s := runs_valueDef.mpr ⟨found, rfl⟩
  by_cases whole : mask = full
  · rw [packing, if_pos whole]
    exact ⟨fun aborts => absurd aborts (not_aborts_of_runs (runs_pure.mpr ⟨rfl, rfl⟩)), fun h => absurd whole h.1⟩
  rw [packing, if_neg whole, reorder, aborts_of_runs read, ← packedLanes_outside narrow writes]
  simp only [ne_eq, whole, not_false_eq_true, true_and]
  split
  · rename_i identity
    simp only [Bool.and_eq_true, decide_eq_true_eq] at identity
    -- no selector of an identity is out of range
    refine ⟨fun aborts => absurd aborts (not_aborts_of_runs (runs_pure.mpr ⟨rfl, rfl⟩)), ?_⟩
    rintro outside
    rw [packedLanes_outside narrow writes, ← identity.1] at outside
    exact absurd outside (Nat.not_lt.mpr (rank_le mask _))
  · split
    · rename_i c first
      have beyond := List.find?_some first
      exact ⟨fun _ => ⟨c, List.mem_of_find?_eq_some first, by simpa using beyond⟩, fun _ => aborts_abort _⟩
    · rename_i inside
      have native : Runs nativeIntegers s s.scope.nativeIntegers s := runs_nativeIntegers.mpr ⟨rfl, rfl⟩
      rw [aborts_of_runs native]
      refine ⟨fun aborts => absurd aborts (not_aborts_emitValue ?_), ?_⟩
      · rw [UInt8.le_iff_toNat_le] at low narrow
        rintro (rfl | wide)
        · exact absurd low (by decide)
        · exact absurd (UInt8.lt_iff_toNat_lt.mp wide) (by simpa using narrow)
      · rintro ⟨c, member, beyond⟩
        have never := List.find?_eq_none.mp inside c member
        simp [beyond] at never

/-- A packed value is the value itself, or a move of it in which each written channel takes its component. -/
theorem packing_ok {w : ValueId} (found : s.program.value? v = some d) (narrow : width ≤ 4)
    (run : Runs (packing full mask width v) s w t) :
    (w = v ∧ t = s ∧ (mask = full ∨ d.width = width ∧
        ∀ i < width.toNat, mask.toNat.testBit i = true → rank mask i = i)) ∨
      (mask ≠ full ∧ w = s.nextValue ∧
        t = s.withValue (.alu (moveOp s.scope.nativeIntegers) [⟨v, packedLanes mask width⟩]) width d.bitSize) := by
  by_cases whole : mask = full
  · rw [packing, if_pos whole] at run
    obtain ⟨rfl, rfl⟩ := runs_pure.mp run
    exact .inl ⟨rfl, rfl, .inl whole⟩
  rw [packing, if_neg whole] at run
  obtain ⟨d', there, moved⟩ := reorder_ok run
  obtain rfl := Option.some.inj (found.symm.trans there)
  obtain ⟨identity, rfl, rfl⟩ | ⟨-, -, run⟩ := moved
  · refine .inl ⟨rfl, rfl, .inr ⟨identity.1.symm, fun i inside written => ?_⟩⟩
    rw [← packedLane_of_written inside written]
    exact identity_getElem? identity.2 (packedLanes_getElem? narrow inside)
  · obtain ⟨rfl, rfl, -⟩ := emitValue_ok run
    exact .inr ⟨whole, rfl, rfl⟩

end ShaderSSA.Lowering
