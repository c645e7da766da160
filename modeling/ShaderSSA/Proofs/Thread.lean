import ShaderSSA.Proofs.Results
import ShaderSSA.Target.Chain

/-!
Chains in the arena. A chain is threaded through the arena by the child of each link; `Threaded` names
the positions it passes through, root first, in increasing order and up to a link without a child.
Walking a chain visits exactly these positions.
-/

namespace ShaderSSA.Target

/-- A link of a chain and where it lies in the arena. -/
structure Spot where
  position : Nat
  kind : LinkKind
  type : ShaderType

namespace Spot

def id (x : Spot) : LinkId := ⟨UInt32.ofNat x.position⟩

theorem id_index {x : Spot} (small : x.position < UInt32.size) : x.id.index.toNat = x.position :=
  UInt32.toNat_ofNat_of_lt' small

end Spot

/-- The value that a link reads its index from. -/
def LinkKind.index? : LinkKind → Option ValueId
  | .array (.indirect v) => some v
  | _ => none

namespace Links

/-- The links at the spots form a whole chain, root first. -/
inductive Threaded (links : Links) : List Spot → Prop where
  | last {x : Spot} (found : links[x.position]? = some ⟨x.kind, x.type, none⟩) : Threaded links [x]
  | step {x y : Spot} {rest : List Spot}
      (found : links[x.position]? = some ⟨x.kind, x.type, some y.id⟩) (later : x.position < y.position)
      (tail : Threaded links (y :: rest)) : Threaded links (x :: y :: rest)

variable {links links' : Links} {x : Spot} {rest spots : List Spot}

namespace Threaded

theorem lt_size (h : Threaded links spots) : ∀ x ∈ spots, x.position < links.size := by
  have inside : ∀ {i : Nat} {l : Link}, links[i]? = some l → i < links.size := by
    intro i l found
    obtain ⟨bound, -⟩ := Array.getElem?_eq_some_iff.mp found
    exact bound
  induction h with
  | last found =>
    intro x member
    obtain rfl := List.mem_singleton.mp member
    exact inside found
  | step found later tail ih =>
    intro x member
    rcases List.mem_cons.mp member with rfl | member
    · exact inside found
    · exact ih x member

theorem lt_of_mem_tail (h : Threaded links (x :: rest)) : ∀ y ∈ rest, x.position < y.position := by
  induction rest generalizing x with
  | nil => simp
  | cons y rest ih =>
    cases h with
    | step found later tail =>
      intro z member
      rcases List.mem_cons.mp member with rfl | member
      · exact later
      · exact Nat.lt_trans later (ih tail z member)

theorem congr (h : Threaded links spots)
    (same : ∀ x ∈ spots, ∀ l, links[x.position]? = some l → links'[x.position]? = some l) :
    Threaded links' spots := by
  induction h with
  | last found => exact .last (same _ (by simp) _ found)
  | step found later tail ih =>
    exact .step (same _ (by simp) _ found) later
      (ih fun x member => same x (List.mem_cons_of_mem _ member))

/-- Attaching a link behind the last spot lengthens the chain by it. -/
theorem append {kind : LinkKind} {type : ShaderType} {before : List Spot}
    (h : Threaded links (before ++ [x])) :
    Threaded ((links.push ⟨kind, type, none⟩).modify x.position
        fun l => { l with child := some links.nextId })
      (before ++ [x, ⟨links.size, kind, type⟩]) := by
  have small := h.lt_size
  induction before with
  | nil =>
    have bound := small x (by simp)
    cases h with
    | last found =>
      refine .step ?_ bound (.last ?_)
      · simp [Array.getElem?_modify, Array.getElem?_push_lt bound, (Array.getElem?_eq_some_iff.mp found).2,
          nextId, Spot.id]
      · have apart : x.position ≠ links.size := Nat.ne_of_lt bound
        rw [Array.getElem?_modify, if_neg apart, Array.getElem?_push_size]
  | cons y before ih =>
    -- every spot before the last lies at another position, so its link is untouched
    have first : y.position < x.position := h.lt_of_mem_tail x (by simp)
    have untouched : ((links.push ⟨kind, type, none⟩).modify x.position
        fun l => { l with child := some links.nextId })[y.position]? = links[y.position]? := by
      rw [Array.getElem?_modify, if_neg (Nat.ne_of_gt first), Array.getElem?_push_lt (small y (by simp)),
        Array.getElem?_eq_getElem]
    have onward : Threaded links (before ++ [x]) → _ :=
      fun tail => ih tail fun z member => small z (List.mem_cons_of_mem _ member)
    cases before with
    | nil | cons =>
      cases h with
      | step found later tail => exact .step (by rw [untouched, found]) later (onward tail)

end Threaded

/-! ### Walking a chain -/

def thread : List Spot → List (LinkId × Link)
  | [] => []
  | [x] => [(x.id, ⟨x.kind, x.type, none⟩)]
  | x :: y :: rest => (x.id, ⟨x.kind, x.type, some y.id⟩) :: thread (y :: rest)

theorem thread_getLast? (x : Spot) (rest : List Spot) : (thread (x :: rest)).getLast? =
    some (((x :: rest).getLast (List.cons_ne_nil _ _)).id, ⟨((x :: rest).getLast (List.cons_ne_nil _ _)).kind,
      ((x :: rest).getLast (List.cons_ne_nil _ _)).type, none⟩) := by
  induction rest generalizing x with
  | nil => rfl
  | cons y rest ih =>
    rw [thread, List.getLast_cons (List.cons_ne_nil _ _), ← ih y]
    cases found : thread (y :: rest) with
    | nil => cases rest <;> simp [thread] at found
    | cons l ls => rw [List.getLast?_cons_cons]

theorem thread_ids (spots : List Spot) : (thread spots).map Prod.fst = spots.map Spot.id := by
  fun_induction thread spots with
  | case1 => rfl
  | case2 x => rfl
  | case3 x y rest ih => simp [ih]

theorem thread_kinds (spots : List Spot) :
    (thread spots).map (fun l => l.2.kind) = spots.map Spot.kind := by
  fun_induction thread spots with
  | case1 => rfl
  | case2 x => rfl
  | case3 x y rest ih => simp [ih]

namespace Threaded

theorem visitFrom (h : Threaded links (x :: rest)) (small : links.size < UInt32.size) {fuel : Nat}
    (enough : rest.length < fuel) :
    links.visitFrom (fun id link => .ok (id, link)) fuel x.id = .ok (thread (x :: rest)) := by
  have position := Spot.id_index (Nat.lt_trans (h.lt_size x (by simp)) small)
  induction rest generalizing x fuel with
  | nil =>
    obtain ⟨fuel, rfl⟩ := Nat.exists_eq_succ_of_ne_zero (Nat.ne_of_gt enough)
    cases h with
    | last found =>
      simp [Links.visitFrom, Links.get, position, found, thread]
  | cons y rest ih =>
    obtain ⟨fuel, rfl⟩ := Nat.exists_eq_succ_of_ne_zero
      (Nat.ne_of_gt (Nat.lt_of_le_of_lt (Nat.zero_le _) enough))
    cases h with
    | step found later tail =>
      have onward := ih tail (Nat.lt_of_succ_lt_succ enough)
        (Spot.id_index (Nat.lt_trans (tail.lt_size y (by simp)) small))
      simp [Links.visitFrom, Links.get, position, found, onward, thread]

theorem length_le (h : Threaded links (x :: rest)) : x.position + rest.length < links.size := by
  induction rest generalizing x with
  | nil => exact h.lt_size x (by simp)
  | cons y rest ih =>
    cases h with
    | step found later tail =>
      have := ih tail
      simp only [List.length_cons]
      omega

/-- Walking a chain gives the links at its spots. -/
theorem walk (h : Threaded links (x :: rest)) (small : links.size < UInt32.size) :
    links.walk x.id = .ok (thread (x :: rest)) := by
  have short := h.length_le
  exact h.visitFrom small (by omega)

theorem rootVar (h : Threaded links (x :: rest)) (small : links.size < UInt32.size) {var : VarId}
    (root : x.kind = .var var) : links.rootVar x.id = .ok var := by
  have position := Spot.id_index (Nat.lt_trans (h.lt_size x (by simp)) small)
  cases h with
  | last found | step found =>
    simp [Links.rootVar, Links.get, position, found, root]

theorem chainType (h : Threaded links (x :: rest)) (small : links.size < UInt32.size) :
    links.chainType x.id = .ok ((x :: rest).getLast (List.cons_ne_nil _ _)).type := by
  rw [Links.chainType, h.walk small]
  simp only [thread_getLast?, ok_bind, pure_def]

end Threaded

end Links

theorem thread_links (spots : List Spot) :
    (Links.thread spots).map (fun l => (l.2.kind, l.2.type)) = spots.map fun x => (x.kind, x.type) := by
  fun_induction Links.thread spots with
  | case1 => rfl
  | case2 x => rfl
  | case3 x y rest ih => simp [ih]

end ShaderSSA.Target
