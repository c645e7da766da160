import Mathlib.Data.List.Forall2

/-!
Computations that may fail. A traversal succeeds exactly when it does at each element, with the results in the order
of the elements, and it fails as it does at one of them.
-/

namespace ShaderSSA
variable {α β ε : Type} {m : Except ε α} {f : α → Except ε β} {a a' x : α} {b y : β} {e : ε} {xs : List α}
  {ys : List β} {R : α → β → Prop}

@[simp]
theorem ok_bind : (Except.ok a : Except ε α) >>= f = f a := rfl

@[simp]
theorem error_bind : (Except.error e : Except ε α) >>= f = .error e := rfl

@[simp]
theorem pure_def : (pure a : Except ε α) = .ok a := rfl

@[simp]
theorem throw_def : (throw e : Except ε α) = .error e := rfl

theorem bind_eq_ok : m >>= f = .ok b ↔ ∃ a, m = .ok a ∧ f a = .ok b := by cases m <;> simp

theorem pure_eq_ok : (pure a : Except ε α) = .ok a' ↔ a = a' := by simp

theorem bind_eq_error (h : m >>= f = .error e) : m = .error e ∨ ∃ a, m = .ok a ∧ f a = .error e := by
  cases m with
  | error d => exact .inl (congrArg _ (Except.error.inj h))
  | ok a => exact .inr ⟨a, rfl, h⟩

theorem bind_succeeds (first : ∃ a, m = .ok a) (rest : ∀ a, m = .ok a → ∃ b, f a = .ok b) :
    ∃ b, m >>= f = .ok b := by
  obtain ⟨a, found⟩ := first
  obtain ⟨b, done⟩ := rest a found
  exact ⟨b, by rw [found]; exact done⟩

theorem pure_succeeds (a : α) : ∃ b, (pure a : Except ε α) = .ok b := ⟨a, rfl⟩

theorem exists_of_forall₂ (all : List.Forall₂ R xs ys) (member : x ∈ xs) : ∃ y ∈ ys, R x y := by
  obtain ⟨i, inside, rfl⟩ := List.mem_iff_getElem.mp member
  have there : i < ys.length := all.length_eq ▸ inside
  exact ⟨ys[i], List.getElem_mem there, all.get inside there⟩

theorem mapM_eq_ok : xs.mapM f = .ok ys ↔ List.Forall₂ (fun x y => f x = .ok y) xs ys := by
  induction xs generalizing ys with
  | nil => simp [eq_comm]
  | cons x xs ih =>
    simp only [List.mapM_cons, bind_eq_ok, pure_eq_ok, ih, List.forall₂_cons_left_iff]
    constructor
    · rintro ⟨y, first, zs, rest, rfl⟩
      exact ⟨y, zs, first, rest, rfl⟩
    · rintro ⟨y, zs, first, rest, rfl⟩
      exact ⟨y, first, zs, rest, rfl⟩

theorem mem_mapM (h : xs.mapM f = .ok ys) (member : y ∈ ys) : ∃ x ∈ xs, f x = .ok y :=
  exists_of_forall₂ (R := fun y x => f x = .ok y) (mapM_eq_ok.mp h).flip member

theorem mapM_error (h : xs.mapM f = .error e) : ∃ x ∈ xs, f x = .error e := by
  induction xs with
  | nil => cases h
  | cons x xs ih =>
    rw [List.mapM_cons] at h
    rcases bind_eq_error h with first | ⟨y, -, h⟩
    · exact ⟨x, List.mem_cons_self, first⟩
    · rcases bind_eq_error h with rest | ⟨ys, -, h⟩
      · obtain ⟨z, member, failed⟩ := ih rest
        exact ⟨z, List.mem_cons_of_mem _ member, failed⟩
      · cases h

theorem mapM_ok (h : ∀ x ∈ xs, ∃ y, f x = .ok y) : ∃ ys, xs.mapM f = .ok ys := by
  cases result : xs.mapM f with
  | ok ys => exact ⟨ys, rfl⟩
  | error e =>
    obtain ⟨x, member, failed⟩ := mapM_error result
    obtain ⟨y, done⟩ := h x member
    cases failed.symm.trans done

end ShaderSSA
