import Mathlib.Data.List.Chain
import ShaderSSA.Proofs.Growth
import ShaderSSA.Proofs.Visible

/-!
Arenas that are made of whole chains. The links of such an arena are those of strands, each of which is a root and
links that narrow it, and no link belongs to two strands. Starting a chain adds a strand, and attaching a link
lengthens one. In a program whose instructions name every strand once, walks along the named links visit the whole
arena.
-/

namespace ShaderSSA.Target

variable {kind : LinkKind} {link : Link} {q : Program} {type parent : ShaderType} {child : LinkId} {x : Spot}

namespace LinkKind

def isRoot : LinkKind → Bool
  | .var _ => true
  | .struct _ | .array _ => false

/-- The type that the link narrows a location of the given type to. -/
def narrows? : LinkKind → ShaderType → Option ShaderType
  | .var _, _ => none
  | .struct index, parent => parent.field? index
  | .array _, parent => parent.indexResult?

theorem narrows?_of_narrowed (h : Links.narrowed? kind parent = .ok (some type)) :
    kind.narrows? parent = some type := by
  cases kind with
  | var v => cases h
  | struct index | array index => exact Except.ok.inj h

theorem isRoot_of_narrows (h : kind.narrows? parent = some type) : kind.isRoot = false := by
  cases kind with
  | var v => cases h
  | struct index | array index => rfl

end LinkKind

/-! ### Strands -/

/-- A chain by the spots of its links, root first. -/
structure Strand where
  first : Spot
  rest : List Spot

namespace Strand

def spots (c : Strand) : List Spot := c.first :: c.rest

def head (c : Strand) : LinkId := c.first.id

def last (c : Strand) : Spot := c.spots.getLast (List.cons_ne_nil _ _)

def chain (c : Strand) : Chain := ⟨c.head, c.last.id⟩

def extend (c : Strand) (x : Spot) : Strand := { c with rest := c.rest ++ [x] }

theorem spots_extend (c : Strand) (x : Spot) : (c.extend x).spots = c.spots ++ [x] := rfl

theorem chain_extend (c : Strand) (x : Spot) : (c.extend x).chain = ⟨c.head, x.id⟩ := by
  simp only [chain, last, spots_extend, List.getLast_append_singleton]
  rfl

theorem last_mem (c : Strand) : c.last ∈ c.spots := List.getLast_mem _

theorem dropLast_last (c : Strand) : c.spots.dropLast ++ [c.last] = c.spots := List.dropLast_concat_getLast _

/-- The strand starts at a root, and every other link narrows the one before it. -/
structure Shaped (c : Strand) : Prop where
  root : c.first.kind.isRoot = true
  narrows : c.spots.IsChain fun x y => y.kind.narrows? x.type = some y.type

namespace Shaped
variable {c : Strand}

theorem extend (h : c.Shaped) (narrows : x.kind.narrows? c.last.type = some x.type) :
    (c.extend x).Shaped where
  root := h.root
  narrows := by
    rw [spots_extend, ← c.dropLast_last, List.append_assoc, List.singleton_append, List.isChain_append_cons_cons,
      c.dropLast_last]
    exact ⟨h.narrows, narrows, .singleton x⟩

theorem rest_isRoot (h : c.Shaped) : ∀ x ∈ c.rest, x.kind.isRoot = false := by
  have narrowed : ∀ {y : Spot} {rest : List Spot},
      (y :: rest).IsChain (fun x y => y.kind.narrows? x.type = some y.type) → ∀ x ∈ rest, x.kind.isRoot = false := by
    intro y rest chain
    induction rest generalizing y with
    | nil => simp
    | cons z rest ih =>
      obtain ⟨first, chain⟩ := List.isChain_cons_cons.mp chain
      intro x member
      rcases List.mem_cons.mp member with rfl | member
      · exact LinkKind.isRoot_of_narrows first
      · exact ih chain x member
  exact narrowed h.narrows

theorem roots (h : c.Shaped) : c.spots.filter (fun x => x.kind.isRoot) = [c.first] := by
  have others : c.rest.filter (fun x => x.kind.isRoot) = [] := by simpa using h.rest_isRoot
  simp [spots, h.root, others]

theorem branches (h : c.Shaped) : c.spots.filter (fun x => !x.kind.isRoot) = c.rest := by
  have others : c.rest.filter (fun x => !x.kind.isRoot) = c.rest := by simpa using h.rest_isRoot
  simp [spots, h.root, others]

end Shaped

end Strand

namespace Links

namespace Threaded
variable {links : Links} {spots : List Spot} {x : Spot}

theorem found_of_mem (h : Threaded links spots) (member : x ∈ spots) :
    ∃ child, links[x.position]? = some ⟨x.kind, x.type, child⟩ := by
  induction h with
  | last found =>
    obtain rfl := List.mem_singleton.mp member
    exact ⟨_, found⟩
  | step found later tail ih =>
    rcases List.mem_cons.mp member with rfl | member
    · exact ⟨_, found⟩
    · exact ih member

theorem next {R : Spot → Spot → Prop} (h : Threaded links spots) (related : spots.IsChain R) (member : x ∈ spots)
    (found : links[x.position]? = some link) (isChild : link.child = some child) :
    ∃ y ∈ spots, child = y.id ∧ x.position < y.position ∧ R x y := by
  induction h with
  | last there =>
    obtain rfl := List.mem_singleton.mp member
    obtain rfl := Option.some.inj (found.symm.trans there)
    cases isChild
  | @step y z rest there later tail ih =>
    obtain ⟨first, related⟩ := List.isChain_cons_cons.mp related
    rcases List.mem_cons.mp member with rfl | member
    · obtain rfl := Option.some.inj (found.symm.trans there)
      exact ⟨z, by simp, (Option.some.inj isChild).symm, later, first⟩
    · obtain ⟨w, inside, rest⟩ := ih related member
      exact ⟨w, List.mem_cons_of_mem _ inside, rest⟩

theorem children (h : Threaded links spots) :
    spots.filterMap (fun x => links[x.position]?.bind Link.child) = spots.tail.map Spot.id := by
  induction h with
  | last found => simp [found]
  | step found later tail ih => simpa [found] using ih

end Threaded

/-! ### Arenas of strands -/

/-- The arena is made of the strands: each link belongs to one of them, at one spot. -/
structure Woven (links : Links) (strands : List Strand) : Prop where
  threaded : ∀ c ∈ strands, links.Threaded c.spots
  shaped : ∀ c ∈ strands, c.Shaped
  covers : ((strands.flatMap Strand.spots).map Spot.position).Perm (List.range links.size)

namespace Woven
variable {links : Links} {strands : List Strand} {c : Strand}

theorem empty : Woven #[] [] := ⟨nofun, nofun, .refl _⟩

theorem perm (h : links.Woven strands) {others : List Strand} (same : strands.Perm others) : links.Woven others where
  threaded c member := h.threaded c (same.mem_iff.mpr member)
  shaped c member := h.shaped c (same.mem_iff.mpr member)
  covers := ((same.flatMap_right Strand.spots).symm.map Spot.position).trans h.covers

theorem root (h : links.Woven strands) (var : VarId) (type : ShaderType) :
    Woven (links.push ⟨.var var, type, none⟩) (strands ++ [⟨⟨links.size, .var var, type⟩, []⟩]) where
  threaded := by
    intro c member
    rcases List.mem_append.mp member with old | new
    · exact (h.threaded c old).congr fun x _ l found => getElem?_push_of_some found
    · obtain rfl := List.mem_singleton.mp new
      exact .last Array.getElem?_push_size
  shaped := by
    intro c member
    rcases List.mem_append.mp member with old | new
    · exact h.shaped c old
    · obtain rfl := List.mem_singleton.mp new
      exact ⟨rfl, .singleton _⟩
  covers := by
    rw [Array.size_push, List.range_succ, List.flatMap_append, List.map_append]
    exact h.covers.append_right _

theorem apart (h : links.Woven (strands ++ [c])) {d : Strand} (other : d ∈ strands) {y : Spot} (here : x ∈ d.spots)
    (there : y ∈ c.spots) : x.position ≠ y.position := by
  have distinct := h.covers.nodup_iff.mpr List.nodup_range
  rw [List.flatMap_append, List.map_append, List.nodup_append] at distinct
  exact distinct.2.2 _ (List.mem_map_of_mem (List.mem_flatMap_of_mem other here)) _
    (List.mem_map_of_mem (by simpa using there))

/-- Attaching a link to the last strand lengthens it. -/
theorem append (h : links.Woven (strands ++ [c])) (narrows : kind.narrows? c.last.type = some type) :
    Woven ((links.push ⟨kind, type, none⟩).modify c.last.position fun l => { l with child := some links.nextId })
      (strands ++ [c.extend ⟨links.size, kind, type⟩]) where
  threaded := by
    intro d member
    rcases List.mem_append.mp member with old | new
    · refine (h.threaded d (List.mem_append_left _ old)).congr fun x inside l found => ?_
      rw [Array.getElem?_modify, if_neg (h.apart old inside c.last_mem).symm]
      exact getElem?_push_of_some found
    · obtain rfl := List.mem_singleton.mp new
      have whole := h.threaded c (by simp)
      rw [← c.dropLast_last] at whole
      rw [Strand.spots_extend, ← c.dropLast_last, List.append_assoc]
      exact whole.append
  shaped := by
    intro d member
    rcases List.mem_append.mp member with old | new
    · exact h.shaped d (List.mem_append_left _ old)
    · obtain rfl := List.mem_singleton.mp new
      exact (h.shaped c (by simp)).extend narrows
  covers := by
    have covered := h.covers.append_right [links.size]
    simp only [List.flatMap_append, List.flatMap_singleton, List.map_append, Strand.spots_extend, Array.size_modify,
      Array.size_push, List.range_succ, List.append_assoc] at covered ⊢
    exact covered

end Woven

/-! ### Walks over the arena -/

/-- The handles of the links whose kinds pass the test, in order. -/
def handles (links : Links) (test : LinkKind → Bool) : List LinkId :=
  ((List.range links.size).filter fun i => links[i]?.any fun l => test l.kind).map fun i => ⟨UInt32.ofNat i⟩

theorem handles_nodup (links : Links) (small : links.size < UInt32.size) (test : LinkKind → Bool) :
    (links.handles test).Nodup := by
  have inside : ∀ {i : Nat}, i ∈ (List.range links.size).filter (fun i => links[i]?.any fun l => test l.kind) →
      (UInt32.ofNat i).toNat = i := by
    intro i member
    have bound := List.mem_range.mp (List.mem_filter.mp member).1
    exact UInt32.toNat_ofNat_of_lt' (Nat.lt_trans bound small)
  rw [handles, List.Nodup, List.pairwise_map]
  refine (List.nodup_range.filter _).imp_of_mem fun {i j} here there apart same => apart ?_
  rw [← inside here, ← inside there, LinkId.mk.inj same]

theorem filterMap_child (links : Links) : links.toList.filterMap Link.child =
    (List.range links.size).filterMap fun i => links[i]?.bind Link.child := by
  have entries : links.toList.map some = (List.range links.size).map fun i => links[i]? := by
    refine List.ext_getElem (by simp) fun i inside _ => ?_
    simp [Array.getElem?_eq_getElem (by simpa using inside)]
  calc links.toList.filterMap Link.child
      = (links.toList.map some).filterMap (fun l => l.bind Link.child) := by simp [List.filterMap_map]
    _ = _ := by rw [entries, List.filterMap_map, Function.comp_def]

namespace Woven
variable {links : Links} {strands : List Strand}

theorem handles_perm (h : links.Woven strands) (test : LinkKind → Bool) :
    (links.handles test).Perm (((strands.flatMap Strand.spots).filter fun x => test x.kind).map Spot.id) := by
  have tested : ∀ x ∈ strands.flatMap Strand.spots,
      (links[x.position]?.any fun l => test l.kind) = test x.kind := by
    intro x member
    obtain ⟨c, inside, here⟩ := List.mem_flatMap.mp member
    obtain ⟨child, found⟩ := (h.threaded c inside).found_of_mem here
    simp [found]
  have moved := (h.covers.symm.filter fun i => links[i]?.any fun l => test l.kind).map
    fun i => LinkId.mk (UInt32.ofNat i)
  simp only [List.filter_map, List.map_map, Function.comp_def] at moved
  rw [List.filter_congr tested] at moved
  exact moved

theorem visits_perm (h : links.Woven strands) :
    ((strands.map fun c => thread c.spots).flatten.map Prod.fst).Perm (links.handles fun _ => true) := by
  have all := h.handles_perm fun _ => true
  rw [List.filter_true, List.map_flatMap] at all
  rw [← List.flatMap_def, List.map_flatMap]
  simp only [thread_ids]
  exact all.symm

theorem roots_perm (h : links.Woven strands) : (strands.map Strand.head).Perm (links.handles LinkKind.isRoot) := by
  have roots : (strands.flatMap Strand.spots).filter (fun x => x.kind.isRoot) = strands.map Strand.first := by
    rw [List.filter_flatMap, List.flatMap_congr fun c member => (h.shaped c member).roots]
    exact List.flatMap_pure_eq_map ..
  have perm := h.handles_perm LinkKind.isRoot
  rw [roots, List.map_map] at perm
  exact perm.symm

theorem children_perm (h : links.Woven strands) :
    (links.toList.filterMap Link.child).Perm (links.handles fun k => !k.isRoot) := by
  have branches : (strands.flatMap Strand.spots).filter (fun x => !x.kind.isRoot) = strands.flatMap Strand.rest := by
    rw [List.filter_flatMap, List.flatMap_congr fun c member => (h.shaped c member).branches]
  have children : (strands.flatMap Strand.spots).filterMap (fun x => links[x.position]?.bind Link.child) =
      (strands.flatMap Strand.rest).map Spot.id := by
    rw [List.filterMap_flatMap, List.flatMap_congr fun c member => (h.threaded c member).children, List.map_flatMap]
    rfl
  have perm := h.handles_perm fun k => !k.isRoot
  have moved := h.covers.symm.filterMap fun i => links[i]?.bind Link.child
  rw [List.filterMap_map, Function.comp_def, children, ← filterMap_child] at moved
  rw [branches] at perm
  exact moved.trans perm.symm

theorem child_narrows (h : links.Woven strands) (small : links.size < UInt32.size) {i : Nat}
    (found : links[i]? = some link) (isChild : link.child = some child) :
    ∃ next, links[child.index.toNat]? = some next ∧ i < child.index.toNat ∧
      next.kind.narrows? link.type = some next.type := by
  obtain ⟨bound, -⟩ := Array.getElem?_eq_some_iff.mp found
  obtain ⟨x, member, rfl⟩ := List.mem_map.mp (h.covers.mem_iff.mpr (List.mem_range.mpr bound))
  obtain ⟨c, inside, here⟩ := List.mem_flatMap.mp member
  have threaded := h.threaded c inside
  obtain ⟨y, there, rfl, later, narrows⟩ := threaded.next (h.shaped c inside).narrows here found isChild
  obtain ⟨_, foundX⟩ := threaded.found_of_mem here
  obtain ⟨_, foundY⟩ := threaded.found_of_mem there
  obtain rfl := Option.some.inj (foundX.symm.trans found)
  have position := Spot.id_index (Nat.lt_trans (threaded.lt_size y there) small)
  exact ⟨_, by rw [position, foundY], by rw [position]; exact later, narrows⟩

theorem mapM_walk (h : ∀ c ∈ strands, links.Threaded c.spots) (small : links.size < UInt32.size) :
    (strands.map Strand.head).mapM links.walk = .ok (strands.map fun c => thread c.spots) := by
  rw [mapM_eq_ok, List.forall₂_map_left_iff, List.forall₂_map_right_iff, List.forall₂_same]
  exact fun c member => (h c member).walk small

end Woven

end Links

/-- The locations that the instructions name, in order. -/
def Program.locations (p : Program) : List LinkId := p.instrs.toList.flatMap fun x => x.operation.locations

/-- Every chain is named once and visited whole. -/
structure Program.Linear (p : Program) : Prop where
  /-- Every link has a handle of its own. -/
  distinct : (p.links.handles fun _ => true).Nodup
  /-- The instructions name every root, once each, and no other link. -/
  named : p.locations.Perm (p.links.handles LinkKind.isRoot)
  /-- The children are the links that are no roots, each the child of one link. -/
  children : (p.links.toList.filterMap Link.child).Perm (p.links.handles fun k => !k.isRoot)
  /-- A child lies behind its parent and narrows its type. -/
  narrowed : ∀ ⦃i : Nat⦄ ⦃link : Link⦄ ⦃child : LinkId⦄, p.links[i]? = some link → link.child = some child →
    ∃ next, p.links[child.index.toNat]? = some next ∧ i < child.index.toNat ∧
      next.kind.narrows? link.type = some next.type
  /-- Every walk from a named link ends at a link without a child, and all walks together visit every link once. -/
  walks : ∃ walks, p.locations.mapM p.links.walk = .ok walks ∧
    (∀ visited ∈ walks, ∃ last, visited.getLast? = some last ∧ last.2.child = none) ∧
    (walks.flatten.map Prod.fst).Perm (p.links.handles fun _ => true)

/-- Every root has the type of the variable that it names. -/
def Program.RootsTyped (p : Program) : Prop :=
  ∀ ⦃i : Nat⦄ ⦃link : Link⦄ ⦃v : VarId⦄, p.links[i]? = some link → link.kind = .var v →
    ∃ x, p.var? v = some x ∧ x.type = link.type

namespace Program.RootsTyped
variable {p : Program}

theorem push (h : p.RootsTyped) (typed : ∀ v, link.kind = .var v → ∃ x, p.var? v = some x ∧ x.type = link.type) :
    RootsTyped { p with links := p.links.push link } := by
  intro i l v found root
  rw [Array.getElem?_push] at found
  split at found
  · obtain rfl := Option.some.inj found
    exact typed v root
  · exact h found root

theorem adopt (h : p.RootsTyped) (i : Nat) (child : LinkId) :
    RootsTyped { p with links := p.links.modify i fun l => { l with child := some child } } := by
  intro j l v found root
  rw [Array.getElem?_modify] at found
  split at found
  · obtain ⟨m, there, rfl⟩ := Option.map_eq_some_iff.mp found
    obtain ⟨x, known, type⟩ := h there root
    exact ⟨x, known, type⟩
  · exact h found root

theorem mono (h : p.RootsTyped) (vars : ∀ {i : Nat} {x}, p.vars[i]? = some x → q.vars[i]? = some x)
    (links : q.links = p.links) : q.RootsTyped := by
  intro i l v found root
  rw [links] at found
  obtain ⟨x, there, type⟩ := h found root
  exact ⟨x, vars there, type⟩

end Program.RootsTyped

/-- The arena is made of strands: one for each location that an instruction names, in order, and one for each chain
in `live`, which waits for its instruction. -/
def Program.Woven (p : Program) (live : List Chain) : Prop :=
  ∃ named held : List Strand, p.locations = named.map Strand.head ∧ held.map Strand.chain = live ∧
    p.links.Woven (named ++ held)

namespace Program.Woven
variable {p : Program} {live : List Chain}

/-- Once no chain waits for an instruction, every chain is named. -/
theorem linear (h : p.Woven []) (fits : p.Fits) : p.Linear := by
  obtain ⟨named, held, locations, rest, woven⟩ := h
  obtain rfl := List.map_eq_nil_iff.mp rest
  rw [List.append_nil] at woven
  refine ⟨p.links.handles_nodup fits.links _, locations ▸ woven.roots_perm, woven.children_perm,
    fun _ _ _ => woven.child_narrows fits.links, ?_⟩
  refine ⟨_, locations ▸ Links.Woven.mapM_walk woven.threaded fits.links, ?_, ?_⟩
  · intro visited member
    obtain ⟨c, -, rfl⟩ := List.mem_map.mp member
    exact ⟨_, Links.thread_getLast? c.first c.rest, rfl⟩
  · exact woven.visits_perm

theorem root (h : p.Woven live) (var : VarId) (type : ShaderType) :
    Woven { p with links := p.links.push ⟨.var var, type, none⟩ } (live ++ [⟨p.links.nextId, p.links.nextId⟩]) := by
  obtain ⟨named, held, locations, rfl, woven⟩ := h
  have rooted := woven.root var type
  rw [List.append_assoc] at rooted
  exact ⟨named, _, locations, List.map_append, rooted⟩

theorem append {c : Chain} (h : p.Woven (live ++ [c])) (small : p.links.size < UInt32.size) {parent : Link}
    (found : p.links[c.tail.index.toNat]? = some parent) (narrows : kind.narrows? parent.type = some type) :
    Woven { p with
        links := (p.links.push ⟨kind, type, none⟩).modify c.tail.index.toNat
          fun l => { l with child := some p.links.nextId } } (live ++ [⟨c.head, p.links.nextId⟩]) := by
  obtain ⟨named, held, locations, waiting, woven⟩ := h
  obtain ⟨held, last, rfl, rfl, isLast⟩ := List.map_eq_append_iff.mp waiting
  obtain ⟨strand, rfl, rfl⟩ := List.map_eq_singleton_iff.mp isLast
  have threaded := woven.threaded strand (by simp)
  have position : strand.chain.tail.index.toNat = strand.last.position :=
    Spot.id_index (Nat.lt_trans (threaded.lt_size _ strand.last_mem) small)
  rw [position] at found ⊢
  obtain ⟨_, there⟩ := threaded.found_of_mem strand.last_mem
  obtain rfl := Option.some.inj (there.symm.trans found)
  rw [← List.append_assoc] at woven
  have longer := woven.append narrows
  rw [List.append_assoc] at longer
  refine ⟨named, _, locations, ?_, longer⟩
  rw [List.map_append, List.map_singleton, Strand.chain_extend]
  rfl

/-- An instruction names the chains that waited for it. -/
theorem emit {takes : List Chain} (h : p.Woven (live ++ takes)) {x : Instr} (instrs : q.instrs = p.instrs.push x)
    (links : q.links = p.links) (names : x.operation.locations = takes.map Chain.head) : q.Woven live := by
  obtain ⟨named, held, locations, waiting, woven⟩ := h
  obtain ⟨held, taken, rfl, rfl, rfl⟩ := List.map_eq_append_iff.mp waiting
  refine ⟨named ++ taken, held, ?_, rfl, ?_⟩
  · rw [Program.locations, instrs, Array.toList_push, List.flatMap_append, List.flatMap_singleton, names, List.map_map,
      List.map_append, ← locations]
    rfl
  · rw [links, List.append_assoc]
    exact woven.perm (List.perm_append_comm.append_left named)

theorem congr (h : p.Woven live) (instrs : q.instrs = p.instrs) (links : q.links = p.links) : q.Woven live := by
  obtain ⟨named, held, locations, waiting, woven⟩ := h
  exact ⟨named, held, by rw [Program.locations, instrs, ← locations]; rfl, waiting, by rwa [links]⟩

end Program.Woven

end ShaderSSA.Target
