import ShaderSSA.Target.Program

/-!
How programs grow. A later program has what an earlier one has, and instructions are numbered in the order
in which they are added. Handles are 32-bit words, so what holds of a finished program is said of programs
that `Fit`: none of their arenas has outgrown a handle.
-/

namespace ShaderSSA.Target

theorem getElem?_push_of_some {α : Type} {xs : Array α} {i : Nat} {x y : α} (found : xs[i]? = some x) :
    (xs.push y)[i]? = some x := by
  obtain ⟨bound, -⟩ := Array.getElem?_eq_some_iff.mp found
  rw [Array.getElem?_push_lt bound, ← Array.getElem?_eq_getElem bound, found]

namespace Program

/-- Every entry of every arena has a handle of its own. -/
structure Fits (p : Program) : Prop where
  instrs : p.instrs.size < UInt32.size
  values : p.values.size < UInt32.size
  vars : p.vars.size < UInt32.size
  links : p.links.size < UInt32.size
  functions : p.functions.size < UInt32.size

instance (p : Program) : Decidable p.Fits :=
  decidable_of_iff (p.instrs.size < UInt32.size ∧ p.values.size < UInt32.size ∧ p.vars.size < UInt32.size ∧
    p.links.size < UInt32.size ∧ p.functions.size < UInt32.size)
    ⟨fun ⟨instrs, values, vars, links, functions⟩ => ⟨instrs, values, vars, links, functions⟩,
      fun h => ⟨h.instrs, h.values, h.vars, h.links, h.functions⟩⟩

/-- No arena of `p` is larger than that of `q`. -/
structure NoLarger (p q : Program) : Prop where
  instrs : p.instrs.size ≤ q.instrs.size
  values : p.values.size ≤ q.values.size
  vars : p.vars.size ≤ q.vars.size
  links : p.links.size ≤ q.links.size
  functions : p.functions.size ≤ q.functions.size

theorem NoLarger.refl (p : Program) : p.NoLarger p :=
  ⟨Nat.le_refl _, Nat.le_refl _, Nat.le_refl _, Nat.le_refl _, Nat.le_refl _⟩

theorem NoLarger.trans {p q r : Program} (h : p.NoLarger q) (h' : q.NoLarger r) : p.NoLarger r :=
  ⟨Nat.le_trans h.instrs h'.instrs, Nat.le_trans h.values h'.values, Nat.le_trans h.vars h'.vars,
    Nat.le_trans h.links h'.links, Nat.le_trans h.functions h'.functions⟩

theorem Fits.of_noLarger {p q : Program} (fits : q.Fits) (h : p.NoLarger q) : p.Fits :=
  ⟨Nat.lt_of_le_of_lt h.instrs fits.instrs, Nat.lt_of_le_of_lt h.values fits.values,
    Nat.lt_of_le_of_lt h.vars fits.vars, Nat.lt_of_le_of_lt h.links fits.links,
    Nat.lt_of_le_of_lt h.functions fits.functions⟩

/-! ### Earlier and later programs -/

/-- `q` has all that `p` has, but for links at positions that are not settled. -/
structure Keeps (settled : Nat → Prop) (p q : Program) : Prop where
  instrs : ∀ {i : Nat} {x}, p.instrs[i]? = some x → q.instrs[i]? = some x
  values : ∀ {i : Nat} {x}, p.values[i]? = some x → q.values[i]? = some x
  vars : ∀ {i : Nat} {x}, p.vars[i]? = some x → q.vars[i]? = some x
  links : ∀ {i : Nat} {x}, settled i → p.links[i]? = some x → q.links[i]? = some x

/-- `q` has all that `p` has. -/
abbrev Extends (p q : Program) : Prop := Keeps (fun _ => True) p q

namespace Keeps
variable {settled other : Nat → Prop} {p q r : Program}

theorem refl : Keeps settled p p := ⟨id, id, id, fun _ => id⟩

theorem trans (h : Keeps settled p q) (h' : Keeps other q r) (both : ∀ i, settled i → other i) :
    Keeps settled p r :=
  ⟨h'.instrs ∘ h.instrs, h'.values ∘ h.values, h'.vars ∘ h.vars,
    fun {i _} inside found => h'.links (both i inside) (h.links inside found)⟩

theorem mono (h : Keeps settled p q) (fewer : ∀ i, other i → settled i) : Keeps other p q :=
  ⟨h.instrs, h.values, h.vars, fun {i _} inside => h.links (fewer i inside)⟩

theorem size_le {α : Type} {a b : Array α} (h : ∀ {i : Nat} {x}, a[i]? = some x → b[i]? = some x) :
    a.size ≤ b.size := by
  rcases Nat.eq_zero_or_pos a.size with none | some
  · omega
  · have last := h (Array.getElem?_eq_getElem (Nat.sub_lt some Nat.one_pos))
    obtain ⟨bound, -⟩ := Array.getElem?_eq_some_iff.mp last
    omega

end Keeps

end Program

/-! ### Numbering -/

/-- The handles of the instructions from `a` up to `b`. -/
def instsBetween (a b : Nat) : List InstId :=
  (List.range' a (b - a)).map fun i => ⟨UInt32.ofNat i⟩

theorem instsBetween_self (a : Nat) : instsBetween a a = [] := by
  simp [instsBetween]

theorem instsBetween_append {a b c : Nat} (h : a ≤ b) (h' : b ≤ c) :
    instsBetween a b ++ instsBetween b c = instsBetween a c := by
  have joined := List.range'_append_1 (s := a) (m := b - a) (n := c - b)
  rw [show a + (b - a) = b by omega, show b - a + (c - b) = c - a by omega] at joined
  rw [instsBetween, instsBetween, instsBetween, ← List.map_append, joined]

theorem instsBetween_succ (a : Nat) : instsBetween a (a + 1) = [⟨UInt32.ofNat a⟩] := by
  simp [instsBetween]

@[simp]
theorem instrsOf_append (a b : List Node) : instrsOf (a ++ b) = instrsOf a ++ instrsOf b := by
  induction a with
  | nil => simp [instrsOf]
  | cons n a ih => simp [instrsOf, ih]

end ShaderSSA.Target
