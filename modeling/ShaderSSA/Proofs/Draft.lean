import ShaderSSA.Proofs.Growth
import ShaderSSA.Proofs.Invariants
import ShaderSSA.Proofs.Skeleton
import ShaderSSA.Proofs.Tree

/-!
Nodes that lowering has emitted between two states. `Draft` says where its nodes went, how they are
numbered, and what holds of them in every later program: they read only values that they define, they
leave the given effects, and they define values that unfold to the given trees. A chain under
construction is live: its last link may still change, so nothing emitted so far may name it.
-/

namespace ShaderSSA

namespace Lowering
open Source Target Lower

variable {bitSize width : UInt8} {kind : LinkKind} {segment : Segment} {k : Known} {op : Operation} {type : ShaderType}
  {u : State} {v : ValueId}

/-! ### Chains under construction -/

/-- A chain that code has built but not named yet, and the path it reads back as. -/
structure Live where
  first : Spot
  rest : List Spot
  path : List Segment

namespace Live

def spots (c : Live) : List Spot := c.first :: c.rest

def head (c : Live) : LinkId := c.first.id

def last (c : Live) : Spot := c.spots.getLast (List.cons_ne_nil _ _)

def kinds (c : Live) : List LinkKind := c.spots.map Spot.kind

/-- The values that the chain takes indices from. -/
def indices (c : Live) : List ValueId := c.kinds.filterMap LinkKind.index?

def extend (c : Live) (x : Spot) (segment : Segment) : Live :=
  { c with rest := c.rest ++ [x], path := c.path ++ [segment] }

@[simp]
theorem spots_extend (c : Live) (x : Spot) (segment : Segment) :
    (c.extend x segment).spots = c.spots ++ [x] := rfl

@[simp]
theorem last_extend (c : Live) (x : Spot) (segment : Segment) : (c.extend x segment).last = x := by
  simp [last]

theorem indices_extend (c : Live) (x : Spot) (segment : Segment) :
    (c.extend x segment).indices = c.indices ++ x.kind.index?.toList := by
  simp only [indices, kinds, spots_extend, List.map_append, List.filterMap_append, List.map_cons,
    List.map_nil, List.filterMap_cons, List.filterMap_nil]
  cases x.kind.index? <;> rfl

theorem last_mem (c : Live) : c.last ∈ c.spots := List.getLast_mem _

theorem spots_eq (c : Live) : c.spots.dropLast ++ [c.last] = c.spots :=
  List.dropLast_concat_getLast _

end Live

/-- What an instruction on live chains leaves of a skeleton. -/
def leaves (result : Option Target.VarId) (op : Operation) (chains : List Live) : List Skeleton :=
  (op.effect? result (chains.map Live.kinds)).toList.map .effect

/-- Positions that lie behind those of `s` and do not end a live chain. -/
def Settled (s : State) (live : List Live) (i : Nat) : Prop :=
  s.program.links.size ≤ i ∧ ∀ c ∈ live, c.last.position ≠ i

/-! ### What holds of code -/

section
variable (env : Env) (result : Option Target.VarId)

/-- A value with the tree it reads back as. -/
abbrev Known := ValueId × ValueTree

/-- What holds of nodes in a program `q`; trees are at most `depth` producers deep. -/
structure Facts (q : Target.Program) (depth : Nat) (nodes : List Node) (known : List Known)
    (live : List Live) (effects : List Skeleton) : Prop where
  visible : Scoped q nodes []
  skeleton : skeleton? q result nodes = some effects
  defined : ∀ k ∈ known, k.1 ∈ destsOf q nodes
  shown : ∀ k ∈ known, ∀ fuel, depth ≤ fuel → q.unfold env.storage.size fuel k.1 = some k.2
  indexed : ∀ c ∈ live, c.indices ⊆ destsOf q nodes
  drawn : ∀ c ∈ live, ∀ fuel, depth ≤ fuel →
    c.kinds.mapM (q.segment env.storage.size (q.unfold env.storage.size fuel)) = some c.path
  rooted : ∀ c ∈ live, ∃ id var, c.first.kind = .var id ∧ q.var? id = some var ∧
    var.storage.isBuffer = env.inBuffer c.path

/-- Between `s` and `t`, `nodes` were emitted. They give the known values and live chains and leave the
given effects, in `t` and every program after it. -/
structure Draft (s t : State) (nodes : List Node) (known : List Known) (live : List Live)
    (effects : List Skeleton) : Prop where
  keeps : s.program.Extends t.program
  region : t.region.toList = s.region.toList ++ nodes
  numbered : instrsOf nodes = instsBetween s.program.instrs.size t.program.instrs.size
  threaded : ∀ c ∈ live, t.program.links.Threaded c.spots
  fresh : ∀ c ∈ live, ∀ x ∈ c.spots, s.program.links.size ≤ x.position
  facts : ∀ {q}, Program.Keeps (Settled s live) t.program q → q.Fits →
    Facts env result q t.program.values.size nodes known live effects

end

section
variable {env : Env} {result : Option Target.VarId} {q : Target.Program} {depth depth' : Nat} {nodes nodes' : List Node}
  {known known' : List Known} {live live' : List Live} {effects effects' : List Skeleton} {c : Live}

/-! ### Composition -/

theorem Facts.nil : Facts env result q depth [] [] [] [] :=
  ⟨by simp [Scoped], by simp [skeleton?], by simp, by simp, by simp, by simp, by simp⟩

theorem Facts.append (h : Facts env result q depth nodes known live effects)
    (h' : Facts env result q depth' nodes' known' live' effects') (deeper : depth ≤ depth') :
    Facts env result q depth' (nodes ++ nodes') (known ++ known') (live ++ live') (effects ++ effects') := by
  refine ⟨?_, skeleton?_append h.skeleton h'.skeleton, ?_, ?_, ?_, ?_, ?_⟩
  · exact scoped_append.mpr ⟨h.visible, h'.visible.mono (List.nil_subset _)⟩
  · intro k member
    rw [destsOf_append, List.mem_append]
    exact (List.mem_append.mp member).imp (h.defined k) (h'.defined k)
  · intro k member fuel enough
    rcases List.mem_append.mp member with member | member
    · exact h.shown k member fuel (Nat.le_trans deeper enough)
    · exact h'.shown k member fuel enough
  · intro c member v index
    rw [destsOf_append, List.mem_append]
    exact (List.mem_append.mp member).imp (h.indexed c · index) (h'.indexed c · index)
  · intro c member fuel enough
    rcases List.mem_append.mp member with member | member
    · exact h.drawn c member fuel (Nat.le_trans deeper enough)
    · exact h'.drawn c member fuel enough
  · intro c member
    rcases List.mem_append.mp member with member | member
    · exact h.rooted c member
    · exact h'.rooted c member

theorem Facts.weaken (h : Facts env result q depth nodes known live effects) (fewer : known' ⊆ known)
    (ended : live' ⊆ live) : Facts env result q depth nodes known' live' effects :=
  ⟨h.visible, h.skeleton, fun k member => h.defined k (fewer member),
    fun k member => h.shown k (fewer member), fun c member => h.indexed c (ended member),
    fun c member => h.drawn c (ended member), fun c member => h.rooted c (ended member)⟩

namespace Draft
variable {s u t : State}

theorem still (instrs : t.program.instrs = s.program.instrs) (values : t.program.values = s.program.values)
    (links : t.program.links = s.program.links) (region : t.region = s.region)
    (vars : ∀ {i : Nat} {x}, s.program.vars[i]? = some x → t.program.vars[i]? = some x) :
    Draft env result s t [] [] [] [] where
  keeps := ⟨by rw [instrs]; exact id, by rw [values]; exact id, vars, by rw [links]; exact fun _ => id⟩
  region := by simp [region]
  numbered := by simp [instrs, instrsOf, instsBetween_self]
  threaded := by simp
  fresh := by simp
  facts := fun _ _ => .nil

theorem refl : Draft env result s s [] [] [] [] := still rfl rfl rfl rfl id

theorem weaken (h : Draft env result s t nodes known live effects) (fewer : known' ⊆ known)
    (ended : live' ⊆ live) : Draft env result s t nodes known' live' effects where
  keeps := h.keeps
  region := h.region
  numbered := h.numbered
  threaded := fun c member => h.threaded c (ended member)
  fresh := fun c member => h.fresh c (ended member)
  facts := by
    intro q kept fits
    have still : Program.Keeps (Settled s live) t.program q :=
      kept.mono fun i settled => ⟨settled.1, fun c member => settled.2 c (ended member)⟩
    exact (h.facts still fits).weaken fewer ended

theorem newest (h : Draft env result s t nodes (k :: known) live effects) : Draft env result s t nodes [k] [] effects :=
  h.weaken (by simp) (List.nil_subset _)

theorem keeps_left (h' : Draft env result u t nodes' known' live' effects')
    (kept : Program.Keeps (Settled s (live ++ live')) t.program q) :
    Program.Keeps (Settled s live) u.program q := by
  refine ⟨kept.instrs ∘ h'.keeps.instrs, kept.values ∘ h'.keeps.values, kept.vars ∘ h'.keeps.vars, ?_⟩
  intro i x settled found
  obtain ⟨bound, -⟩ := Array.getElem?_eq_some_iff.mp found
  refine kept.links ⟨settled.1, fun c member => ?_⟩ (h'.keeps.links trivial found)
  rcases List.mem_append.mp member with member | member
  · exact settled.2 c member
  · have later := h'.fresh c member c.last c.last_mem
    omega

theorem keeps_before (h : Draft env result u t nodes known [] effects)
    (kept : Program.Keeps (Settled s live) t.program q) :
    Program.Keeps (Settled s live) u.program q :=
  h.keeps_left (by rwa [List.append_nil])

theorem keeps_right (h : Draft env result s u nodes known live effects)
    (kept : Program.Keeps (Settled s (live ++ live')) t.program q) :
    Program.Keeps (Settled u live') t.program q := by
  refine kept.mono fun i settled => ?_
  have grown := Program.Keeps.size_le (h.keeps.links trivial)
  refine ⟨Nat.le_trans grown settled.1, fun c member => ?_⟩
  rcases List.mem_append.mp member with member | member
  · have earlier := (h.threaded c member).lt_size c.last c.last_mem
    have := settled.1
    omega
  · exact settled.2 c member

theorem trans (h : Draft env result s u nodes known live effects)
    (h' : Draft env result u t nodes' known' live' effects') :
    Draft env result s t (nodes ++ nodes') (known ++ known') (live ++ live') (effects ++ effects') where
  keeps := h.keeps.trans h'.keeps fun _ => id
  region := by rw [h'.region, h.region, List.append_assoc]
  numbered := by
    rw [instrsOf_append, h.numbered, h'.numbered]
    exact instsBetween_append (Program.Keeps.size_le h.keeps.instrs)
      (Program.Keeps.size_le h'.keeps.instrs)
  threaded := by
    intro c member
    rcases List.mem_append.mp member with member | member
    · exact (h.threaded c member).congr fun _ _ _ => h'.keeps.links trivial
    · exact h'.threaded c member
  fresh := by
    intro c member x inside
    rcases List.mem_append.mp member with member | member
    · exact h.fresh c member x inside
    · exact Nat.le_trans (Program.Keeps.size_le (h.keeps.links trivial)) (h'.fresh c member x inside)
  facts := fun kept fits =>
    (h.facts (h'.keeps_left kept) fits).append (h'.facts (h.keeps_right kept) fits)
      (Program.Keeps.size_le h'.keeps.values)

end Draft

/-! ### Instructions -/

theorem mapM_map_some {α β γ : Type} {f : β → Option γ} {g : α → β} {h : α → γ} {xs : List α}
    (each : ∀ x ∈ xs, f (g x) = some (h x)) : (xs.map g).mapM f = some (xs.map h) := by
  induction xs with
  | nil => simp
  | cons x xs ih =>
    have rest := ih fun y member => each y (List.mem_cons_of_mem _ member)
    simp only [List.map_cons, List.mapM_cons, each x (by simp), rest]
    rfl

/-- The operands of an operation are known values and live chains. -/
structure Operands (op : Operation) (args : List Known) (chains : List Live) (known : List Known)
    (live : List Live) : Prop where
  values : op.values = args.map Prod.fst
  locations : op.locations = chains.map Live.head
  known : args ⊆ known
  live : chains ⊆ live

def srcsOf (chains : List Live) (args : List Known) : List Src :=
  chains.map (fun c => .location c.head) ++ args.map fun k => .ssa k.1

theorem operands_intrinsic {op : IntrinsicOp} {indices : Indices} (chains : List Live) (args : List Known)
    (among : chains ⊆ live) (inside : args ⊆ known) :
    Operands (.intrinsic op (srcsOf chains args) indices) args chains known live := by
  refine ⟨?_, ?_, inside, among⟩
  · simp [Operation.values, srcsOf, Src.value?, List.filterMap_append, List.filterMap_map, Function.comp_def]
  · simp [Operation.locations, srcsOf, Src.location?, List.filterMap_append, List.filterMap_map,
      Function.comp_def]

theorem node_intrinsic {op : IntrinsicOp} {indices : Indices} {args : List Known} {chains : List Live} :
    ValueTree.node width bitSize (Operation.intrinsic op (srcsOf chains args) indices).blank (args.map Prod.snd)
      (chains.map Live.path) =
      .intrinsic width bitSize op indices (chains.map Live.path) (args.map Prod.snd) := by
  simp [ValueTree.intrinsic, Operation.blank, srcsOf, Function.comp_def]

namespace Operands
variable {op : Operation} {args : List Known} {chains : List Live} {id : InstId} {dest : Option ValueId}

theorem mono (h : Operands op args chains known live) (more : known ⊆ known') (others : live ⊆ live') :
    Operands op args chains known' live' :=
  ⟨h.values, h.locations, fun _ member => more (h.known member), fun _ member => others (h.live member)⟩

theorem chains_eq (h : Operands op args chains known live)
    (threaded : ∀ c ∈ live, q.links.Threaded c.spots) (fits : q.Fits) :
    q.chains? op = some (chains.map Live.kinds) := by
  rw [Program.chains?, h.locations]
  refine mapM_map_some fun c member => ?_
  exact Program.chain?_of_walk ((threaded c (h.live member)).walk fits.links)

theorem scoped_instr (h : Operands op args chains known live)
    (facts : Facts env result q depth nodes known live effects)
    (threaded : ∀ c ∈ live, q.links.Threaded c.spots) (fits : q.Fits)
    (found : q.instr? id = some ⟨op, dest⟩) : (Node.instr id).Scoped q (destsOf q nodes) := by
  simp only [Node.Scoped]
  refine ⟨_, _, found, by rw [Program.reads?, h.chains_eq threaded fits, Option.map_some], ?_⟩
  intro v member
  rcases List.mem_append.mp member with member | member
  · rw [h.values] at member
    obtain ⟨k, inside, rfl⟩ := List.mem_map.mp member
    exact facts.defined k (h.known inside)
  · obtain ⟨kind, inside, index⟩ := List.mem_filterMap.mp member
    obtain ⟨_, chain, inside⟩ := List.mem_flatten.mp inside
    obtain ⟨c, chosen, rfl⟩ := List.mem_map.mp chain
    exact facts.indexed c (h.live chosen) (List.mem_filterMap.mpr ⟨kind, inside, index⟩)

theorem skeleton_instr (h : Operands op args chains known live)
    (threaded : ∀ c ∈ live, q.links.Threaded c.spots) (fits : q.Fits)
    (found : q.instr? id = some ⟨op, dest⟩) :
    (Node.instr id).skeleton? q result = some (leaves result op chains) := by
  simp [Node.skeleton?, found, h.chains_eq threaded fits, leaves]

theorem unfold_dest (h : Operands op args chains known live)
    (facts : Facts env result q depth nodes known live effects) (threaded : ∀ c ∈ live, q.links.Threaded c.spots)
    (fits : q.Fits) (found : q.instr? id = some ⟨op, dest⟩) (defined : q.value? v = some ⟨width, bitSize, id⟩)
    {fuel : Nat} (enough : depth ≤ fuel) :
    q.unfold env.storage.size (fuel + 1) v =
      some (.node width bitSize op.blank (args.map Prod.snd) (chains.map Live.path)) := by
  have values : op.values.mapM (q.unfold env.storage.size fuel) = some (args.map Prod.snd) := by
    rw [h.values]
    exact mapM_map_some fun k member => facts.shown k (h.known member) fuel enough
  have places : (chains.map Live.kinds).mapM (fun kinds => kinds.mapM
      (q.segment env.storage.size (q.unfold env.storage.size fuel))) = some (chains.map Live.path) :=
    mapM_map_some fun c member => facts.drawn c (h.live member) fuel enough
  simp [Program.unfold, defined, found, values, h.chains_eq threaded fits, places]

end Operands

/-- `t` comes from `u` by one more instruction. -/
structure Emits (u t : State) (op : Operation) (dest : Option ValueId) : Prop where
  instrs : t.program.instrs = u.program.instrs.push ⟨op, dest⟩
  links : t.program.links = u.program.links
  vars : t.program.vars = u.program.vars
  values : ∀ {i : Nat} {x}, u.program.values[i]? = some x → t.program.values[i]? = some x

theorem emits_effect (u : State) (op : Operation) : Emits u (u.withEffect op) op none :=
  ⟨rfl, rfl, rfl, id⟩

theorem emits_value (u : State) (op : Operation) (width bitSize : UInt8) :
    Emits u (u.withValue op width bitSize) op (some u.nextValue) :=
  ⟨rfl, rfl, rfl, getElem?_push_of_some⟩

theorem value?_nextValue (small : q.values.size < UInt32.size)
    (kept : ∀ {i : Nat} {x}, (u.withValue op width bitSize).program.values[i]? = some x → q.values[i]? = some x) :
    q.value? u.nextValue = some ⟨width, bitSize, u.nextInst⟩ := by
  have here := kept (i := u.program.values.size) Array.getElem?_push_size
  obtain ⟨bound, -⟩ := Array.getElem?_eq_some_iff.mp here
  rw [Program.value?, State.nextValue, UInt32.toNat_ofNat_of_lt' (Nat.lt_trans bound small)]
  exact here

namespace Emits
variable {s u t : State} {op : Operation} {dest : Option ValueId}

theorem keeps (e : Emits u t op dest) : u.program.Extends t.program :=
  ⟨by rw [e.instrs]; exact getElem?_push_of_some, e.values, by rw [e.vars]; exact id,
    by rw [e.links]; exact fun _ => id⟩

theorem before (e : Emits u t op dest) {settled : Nat → Prop}
    (kept : Program.Keeps settled t.program q) : Program.Keeps settled u.program q :=
  (e.keeps.mono fun _ _ => trivial).trans kept fun _ => id

theorem found (e : Emits u t op dest)
    (kept : ∀ {i : Nat} {x}, t.program.instrs[i]? = some x → q.instrs[i]? = some x) :
    q.instrs[u.program.instrs.size]? = some ⟨op, dest⟩ :=
  kept (by rw [e.instrs, Array.getElem?_push_size])

theorem instr? (e : Emits u t op dest)
    (kept : ∀ {i : Nat} {x}, t.program.instrs[i]? = some x → q.instrs[i]? = some x) (fits : q.Fits) :
    q.instr? u.nextInst = some ⟨op, dest⟩ := by
  have here := e.found kept
  obtain ⟨bound, -⟩ := Array.getElem?_eq_some_iff.mp here
  rw [Program.instr?, State.nextInst, UInt32.toNat_ofNat_of_lt' (Nat.lt_trans bound fits.instrs)]
  exact here

theorem later (e : Emits u t op dest) (h : Draft env result s u nodes known live effects)
    (kept : Program.Keeps (Settled s []) t.program q) (fits : q.Fits) :
    Facts env result q u.program.values.size nodes known live effects ∧
      (∀ c ∈ live, q.links.Threaded c.spots) ∧ q.instr? u.nextInst = some ⟨op, dest⟩ := by
  have behind := e.before kept
  refine ⟨h.facts (behind.mono fun i settled => ⟨settled.1, by simp⟩) fits, ?_, e.instr? kept.instrs fits⟩
  intro c member
  refine (h.threaded c member).congr fun x inside l => ?_
  exact behind.links ⟨h.fresh c member x inside, by simp⟩

theorem size (e : Emits u t op dest) : t.program.instrs.size = u.program.instrs.size + 1 := by
  rw [e.instrs, Array.size_push]

end Emits

namespace Draft
variable {s u t : State} {op : Operation} {args : List Known} {chains : List Live}

theorem emit (h : Draft env result s u nodes known live effects) {dest : Option ValueId}
    (e : Emits u t op dest) (ops : Operands op args chains known live)
    (region : t.region = u.region.pushInstr u.nextInst) :
    Draft env result s t (nodes ++ [.instr u.nextInst]) known [] (effects ++ leaves result op chains) where
  keeps := h.keeps.trans e.keeps fun _ => id
  region := by simp [region, Region.pushInstr, h.region]
  numbered := by
    have grown := Program.Keeps.size_le h.keeps.instrs
    rw [instrsOf_append, h.numbered, e.size, ← instsBetween_append grown (Nat.le_succ _), instsBetween_succ]
    simp [instrsOf, Node.instrs, State.nextInst]
  threaded := by simp
  fresh := by simp
  facts := by
    intro q kept fits
    obtain ⟨facts, threaded, found⟩ := e.later h kept fits
    have grown := Program.Keeps.size_le e.values
    refine ⟨?_, ?_, ?_, ?_, by simp, by simp, by simp⟩
    · exact scoped_append.mpr ⟨facts.visible,
        scoped_singleton.mpr (ops.scoped_instr facts threaded fits found)⟩
    · exact skeleton?_append facts.skeleton (skeleton?_singleton (ops.skeleton_instr threaded fits found))
    · intro k member
      rw [destsOf_append]
      exact List.mem_append_left _ (facts.defined k member)
    · intro k member fuel enough
      exact facts.shown k member fuel (Nat.le_trans grown enough)

/-- An instruction that defines a value also makes that known. -/
theorem value (h : Draft env result s u nodes known live effects) (ops : Operands op args chains known live)
    (width bitSize : UInt8) :
    Draft env result s (u.withValue op width bitSize) (nodes ++ [.instr u.nextInst])
      ((u.nextValue, .node width bitSize op.blank (args.map Prod.snd) (chains.map Live.path)) :: known) []
      (effects ++ leaves result op chains) := by
  have e := emits_value u op width bitSize
  have old := h.emit e ops rfl
  refine { old with facts := ?_ }
  intro q kept fits
  obtain ⟨facts, threaded, found⟩ := e.later h kept fits
  have known := old.facts kept fits
  refine { known with defined := ?_, shown := ?_ }
  · intro k member
    rcases List.mem_cons.mp member with rfl | member
    · simp [destsOf, Node.dests, found]
    · exact known.defined k member
  · intro k member fuel enough
    rcases List.mem_cons.mp member with rfl | member
    · have size : (u.withValue op width bitSize).program.values.size = u.program.values.size + 1 :=
        Array.size_push _
      have defined := value?_nextValue fits.values kept.values
      obtain ⟨fuel, rfl⟩ : ∃ less, fuel = less + 1 := ⟨fuel - 1, by omega⟩
      exact ops.unfold_dest facts threaded fits found defined (by omega)
    · exact known.shown k member fuel enough

end Draft

/-! ### Chains -/

/-- A variable that a chain may start at, and how its root reads back. -/
inductive Rooted (env : Env) (p : Target.Program) (id : Target.VarId) : Segment → Prop where
  | bound {var : Variable} (found : p.var? id = some var)
      (listed : env.storage[id.index.toNat]? = some var.storage) : Rooted env p id (.var id)
  | minted {var : Variable} {c : Constant} (found : p.var? id = some var)
      (beyond : env.storage.size ≤ id.index.toNat) (initial : var.initializer = some c)
      (memory : var.storage.isBuffer = false) : Rooted env p id (.constant c)

namespace Rooted
variable {p : Target.Program} {id : Target.VarId} {segment : Segment}

theorem mono (h : Rooted env p id segment)
    (kept : ∀ {i : Nat} {x}, p.vars[i]? = some x → q.vars[i]? = some x) : Rooted env q id segment := by
  cases h with
  | bound found listed => exact .bound (kept found) listed
  | minted found beyond initial memory => exact .minted (kept found) beyond initial memory

theorem segment_eq (h : Rooted env q id segment) (tree : ValueId → Option ValueTree) :
    q.segment env.storage.size tree (.var id) = some segment := by
  cases h with
  | bound found listed =>
    obtain ⟨inside, -⟩ := Array.getElem?_eq_some_iff.mp listed
    simp [Program.segment, inside]
  | minted found beyond initial memory =>
    simp [Program.segment, Nat.not_lt.mpr beyond, found, initial]

theorem isBuffer_eq (h : Rooted env q id segment) :
    ∃ var, q.var? id = some var ∧ var.storage.isBuffer = env.inBuffer [segment] := by
  cases h with
  | bound found listed => exact ⟨_, found, by simp [Env.inBuffer, listed]⟩
  | minted found beyond initial memory => exact ⟨_, found, memory⟩

end Rooted

/-- A link that narrows a chain, and how it reads back. -/
inductive Narrows (known : List Known) : LinkKind → Segment → Prop where
  | field (index : UInt32) : Narrows known (.struct index) (.field index)
  | direct (index : UInt32) : Narrows known (.array (.direct index)) (.direct index)
  | indirect {k : Known} (member : k ∈ known) : Narrows known (.array (.indirect k.1)) (.indirect k.2)

namespace Narrows
variable {kind : LinkKind} {segment : Segment}

theorem index_mem (h : Narrows known kind segment) (index : kind.index? = some v) : ∃ k ∈ known, k.1 = v := by
  cases h with
  | field | direct => simp [LinkKind.index?] at index
  | indirect member => exact ⟨_, member, Option.some.inj index⟩

theorem segment_eq (h : Narrows known kind segment) {tree : ValueId → Option ValueTree} {minted : Nat}
    (shown : ∀ k ∈ known, tree k.1 = some k.2) : q.segment minted tree kind = some segment := by
  cases h with
  | field i => rfl
  | direct i => rfl
  | indirect member => simp [Program.segment, shown _ member]

end Narrows

namespace Draft
variable {s u : State}

theorem root {var : Target.VarId} (rooted : Rooted env s.program var segment) (type : ShaderType) :
    Draft env result s
      { s with program := { s.program with links := s.program.links.push ⟨.var var, type, none⟩ } } []
      [] [⟨⟨s.program.links.size, .var var, type⟩, [], [segment]⟩] [] where
  keeps := ⟨id, id, id, fun _ => getElem?_push_of_some⟩
  region := by simp
  numbered := by simp [instrsOf, instsBetween_self]
  threaded := by
    intro c member
    obtain rfl := List.mem_singleton.mp member
    exact .last Array.getElem?_push_size
  fresh := by
    intro c member x inside
    obtain rfl := List.mem_singleton.mp member
    obtain rfl := List.mem_singleton.mp inside
    exact Nat.le_refl _
  facts := by
    intro q kept fits
    have later := rooted.mono (q := q) kept.vars
    refine ⟨by simp [Scoped], by simp [skeleton?], by simp, by simp, ?_, ?_, ?_⟩
    · intro c member
      obtain rfl := List.mem_singleton.mp member
      exact List.nil_subset _
    · intro c member fuel enough
      obtain rfl := List.mem_singleton.mp member
      simp [Live.kinds, Live.spots, later.segment_eq]
    · intro c member
      obtain rfl := List.mem_singleton.mp member
      obtain ⟨x, found, memory⟩ := later.isBuffer_eq
      exact ⟨var, x, rfl, found, memory⟩

end Draft

namespace Facts
variable {c : Live}

theorem path_ne_nil (h : Facts env result q depth nodes known [c] effects) : c.path ≠ [] := by
  have drawn := h.drawn c (by simp) depth (Nat.le_refl _)
  intro empty
  rw [Live.kinds, Live.spots, List.map_cons, List.mapM_cons, empty] at drawn
  simp only [Option.bind_eq_bind, Option.bind_eq_some_iff, Option.pure_def, Option.some.injEq] at drawn
  obtain ⟨_, -, _, -, impossible⟩ := drawn
  simp at impossible

theorem extend (h : Facts env result q depth nodes known [c] effects) {x : Spot}
    (narrows : Narrows known x.kind segment) : Facts env result q depth nodes known [c.extend x segment] effects := by
  refine { h with indexed := ?_, drawn := ?_, rooted := ?_ }
  · intro d member
    obtain rfl := List.mem_singleton.mp member
    rw [Live.indices_extend]
    refine List.append_subset.mpr ⟨h.indexed c (by simp), ?_⟩
    intro v index
    obtain ⟨k, inside, rfl⟩ := narrows.index_mem (Option.mem_toList.mp index)
    exact h.defined k inside
  · intro d member fuel enough
    obtain rfl := List.mem_singleton.mp member
    have before := h.drawn c (by simp) fuel enough
    have next : q.segment env.storage.size (q.unfold env.storage.size fuel) x.kind = some segment :=
      narrows.segment_eq fun k inside => h.shown k inside fuel enough
    rw [Live.kinds, Live.spots_extend, List.map_append, List.mapM_append, ← Live.kinds, before]
    simp [next, Live.extend]
  · intro d member
    obtain rfl := List.mem_singleton.mp member
    obtain ⟨id, var, kind, found, memory⟩ := h.rooted c (by simp)
    refine ⟨id, var, kind, found, memory.trans ?_⟩
    obtain ⟨first, rest, path⟩ := List.exists_cons_of_ne_nil h.path_ne_nil
    simp only [Live.extend, path]
    cases first <;> rfl

end Facts

/-- The program with a link attached behind the chain. -/
def Live.attach (c : Live) (p : Target.Program) (kind : LinkKind) (type : ShaderType) : Target.Program :=
  { p with
    links := (p.links.push ⟨kind, type, none⟩).modify c.last.position
      fun l => { l with child := some p.links.nextId } }

theorem Live.attach_untouched {p : Target.Program} {i : Nat} {x : Link} (apart : c.last.position ≠ i)
    (found : p.links[i]? = some x) : (c.attach p kind type).links[i]? = some x := by
  simp only [attach]
  rw [Array.getElem?_modify, if_neg apart, getElem?_push_of_some found]

theorem keeps_attach {s : State} (kept : Program.Keeps (Settled s [c.extend ⟨u.program.links.size, kind, type⟩ segment])
      (c.attach u.program kind type) q) : Program.Keeps (Settled s [c]) u.program q := by
  refine ⟨kept.instrs, kept.values, kept.vars, ?_⟩
  intro i x settled found
  obtain ⟨bound, -⟩ := Array.getElem?_eq_some_iff.mp found
  refine kept.links ⟨settled.1, ?_⟩ (Live.attach_untouched (settled.2 c (by simp)) found)
  intro d member
  obtain rfl := List.mem_singleton.mp member
  rw [Live.last_extend]
  exact Nat.ne_of_gt bound

namespace Draft
variable {s u v w t : State}

/-- Attaching a link to the one live chain keeps it live. -/
theorem append (h : Draft env result s u nodes known [c] effects) (narrows : Narrows known kind segment)
    (type : ShaderType) : Draft env result s { u with program := c.attach u.program kind type } nodes known
      [c.extend ⟨u.program.links.size, kind, type⟩ segment] effects := by
  have threaded := h.threaded c (by simp)
  have fresh := h.fresh c (by simp)
  have grown := Program.Keeps.size_le (h.keeps.links trivial)
  refine ⟨⟨h.keeps.instrs, h.keeps.values, h.keeps.vars, ?_⟩, h.region, h.numbered, ?_, ?_, ?_⟩
  · intro i x _ found
    obtain ⟨bound, -⟩ := Array.getElem?_eq_some_iff.mp found
    have behind := fresh c.last c.last_mem
    exact Live.attach_untouched (by omega) (h.keeps.links trivial found)
  · intro d member
    obtain rfl := List.mem_singleton.mp member
    rw [← c.spots_eq] at threaded
    rw [Live.spots_extend, ← c.spots_eq, List.append_assoc]
    exact threaded.append
  · intro d member x inside
    obtain rfl := List.mem_singleton.mp member
    rw [Live.spots_extend] at inside
    rcases List.mem_append.mp inside with inside | inside
    · exact fresh x inside
    · obtain rfl := List.mem_singleton.mp inside
      exact grown
  · intro q kept fits
    exact (h.facts (keeps_attach kept) fits).extend narrows

/-! ### Regions -/

theorem loop (h : Draft env result { s with region := {} } u nodes [] [] effects) :
    Draft env result s { u with region := s.region.pushLoop u.region } [.loop nodes] [] []
      [.loop effects] where
  keeps := h.keeps
  region := by
    have inner := h.region
    simp only [Region.toList] at inner
    simp [Region.pushLoop, Region.toList, Region.push, inner]
  numbered := by simpa [instrsOf, Node.instrs] using h.numbered
  threaded := by simp
  fresh := by simp
  facts := by
    intro q kept fits
    have inner := h.facts kept fits
    refine ⟨?_, ?_, by simp, by simp, by simp, by simp, by simp⟩
    · simpa [Scoped, Node.Scoped] using inner.visible
    · simp [skeleton?, Node.skeleton?, inner.skeleton]

/-- The arms of a branch are collected one after the other; the condition is a value known before. -/
theorem branch {k : Known} (h : Draft env result s u nodes known live effects) (member : k ∈ known)
    (first : Draft env result { u with region := {} } v nodes' [] [] effects')
    {nodes'' : List Node} {effects'' : List Skeleton}
    (second : Draft env result { v with region := {} } w nodes'' [] [] effects'') :
    Draft env result s { w with region := u.region.pushBranch k.1 v.region w.region }
      (nodes ++ [.branch k.1 nodes' nodes'']) [] [] (effects ++ [.branch effects' effects'']) where
  keeps := (h.keeps.trans first.keeps fun _ => id).trans second.keeps fun _ => id
  region := by
    have a := first.region
    have b := second.region
    have before := h.region
    simp only [Region.toList] at a b before
    simp [Region.pushBranch, Region.toList, Region.push, a, b, before]
  numbered := by
    have a := Program.Keeps.size_le h.keeps.instrs
    have b := Program.Keeps.size_le first.keeps.instrs
    have c := Program.Keeps.size_le second.keeps.instrs
    simp only [instrsOf_append, instrsOf, Node.instrs, h.numbered, first.numbered, second.numbered,
      List.append_nil]
    rw [instsBetween_append b c, instsBetween_append a (Nat.le_trans b c)]
  threaded := by simp
  fresh := by simp
  facts := by
    intro q kept fits
    have grown := Program.Keeps.size_le (h.keeps.links trivial)
    have grown' := Program.Keeps.size_le (first.keeps.links trivial)
    have arm₂ := second.facts
      (kept.mono fun i settled => ⟨Nat.le_trans grown (Nat.le_trans grown' settled.1), by simp⟩) fits
    have kept₁ : Program.Keeps (Settled s []) v.program q :=
      second.keeps_before kept
    have arm₁ := first.facts
      (kept₁.mono fun i settled => ⟨Nat.le_trans grown settled.1, by simp⟩) fits
    have kept₀ : Program.Keeps (Settled s []) u.program q :=
      first.keeps_before kept₁
    have before := h.facts (kept₀.mono fun i settled => ⟨settled.1, by simp⟩) fits
    refine ⟨?_, ?_, by simp, by simp, by simp, by simp, by simp⟩
    · refine scoped_append.mpr ⟨before.visible, scoped_singleton.mpr ?_⟩
      simp only [Node.Scoped]
      exact ⟨before.defined k member, arm₁.visible.mono (List.nil_subset _),
        arm₂.visible.mono (List.nil_subset _)⟩
    · refine skeleton?_append before.skeleton (skeleton?_singleton ?_)
      simp [Node.skeleton?, arm₁.skeleton, arm₂.skeleton]

/-- A branch around one instruction, which may read what is known and live before the branch. -/
theorem guard (h : Draft env result s u nodes known live effects) (member : k ∈ known) {args : List Known}
    {chains : List Live} (ops : Operands op args chains known live) {t : State} (e : Emits u t op none)
    (region : t.region = u.region.pushBranch k.1 ⟨#[.instr u.nextInst]⟩ {}) :
    Draft env result s t (nodes ++ [.branch k.1 [.instr u.nextInst] []]) [] []
      (effects ++ [.branch (leaves result op chains) []]) where
  keeps := h.keeps.trans e.keeps fun _ => id
  region := by
    have before := h.region
    simp only [Region.toList] at before
    simp [region, Region.pushBranch, Region.toList, Region.push, before]
  numbered := by
    have grown := Program.Keeps.size_le h.keeps.instrs
    rw [instrsOf_append, h.numbered, e.size, ← instsBetween_append grown (Nat.le_succ _), instsBetween_succ]
    simp [instrsOf, Node.instrs, State.nextInst]
  threaded := by simp
  fresh := by simp
  facts := by
    intro q kept fits
    obtain ⟨facts, threaded, found⟩ := e.later h kept fits
    refine ⟨?_, ?_, by simp, by simp, by simp, by simp, by simp⟩
    · refine scoped_append.mpr ⟨facts.visible, scoped_singleton.mpr ?_⟩
      simp only [Node.Scoped, scoped_singleton, List.nil_append]
      refine ⟨facts.defined k member, ?_, by simp [Scoped]⟩
      exact ops.scoped_instr facts threaded fits found
    · refine skeleton?_append facts.skeleton (skeleton?_singleton ?_)
      have inner : skeleton? q result [.instr u.nextInst] = some (leaves result op chains) :=
        skeleton?_singleton (ops.skeleton_instr threaded fits found)
      rw [Node.skeleton?, inner]
      rfl

theorem closed (h : Draft env result s t nodes known live effects) (other : Env) :
    Draft other result s t nodes [] [] effects where
  keeps := h.keeps
  region := h.region
  numbered := h.numbered
  threaded := by simp
  fresh := by simp
  facts := by
    intro q kept fits
    have facts := (h.weaken (List.nil_subset _) (List.nil_subset _)).facts kept fits
    exact ⟨facts.visible, facts.skeleton, by simp, by simp, by simp, by simp, by simp⟩

end Draft

end

end Lowering

end ShaderSSA
