import ShaderSSA.Proofs.Steps
import ShaderSSA.Proofs.Weave

/-!
Chains that are built side by side. Whatever is started, extended and finished in between, the walk from the head of a
chain visits its root and the links that were attached to it, and a link that is refused changes nothing.
-/

namespace ShaderSSA

namespace Target

variable {kind : LinkKind} {type : ShaderType} {n : Nat} {c : Strand} {links : Links} {strands : List Strand}

/-! ### Sessions -/

/-- Chains are numbered in the order in which they are started. -/
inductive ChainOp where
  | root (var : VarId) (type : ShaderType)
  | append (chain : Nat) (kind : LinkKind) (type : ShaderType)
  | finish (chain : Nat)

/-- A chain with the kinds and types that it was given, root first. -/
structure Record where
  chain : Chain
  given : List (LinkKind × ShaderType)

/-- An arena and the chains that were started in it. No link is attached to a finished chain. -/
structure Session where
  links : Links := #[]
  chains : List Record := []
  finished : List Nat := []

namespace Session

def step (x : Session) : ChainOp → Session
  | .root var type =>
    let (chain, links) := x.links.root var type
    { x with links, chains := x.chains ++ [⟨chain, [(.var var, type)]⟩] }
  | .append n kind type =>
    match x.chains[n]?, x.finished.contains n with
    | some r, false =>
      match x.links.append r.chain kind type with
      | .ok (chain, links) => { x with links, chains := x.chains.set n ⟨chain, r.given ++ [(kind, type)]⟩ }
      | .error _ => x
    | _, _ => x
  | .finish n => { x with finished := n :: x.finished }

def run (ops : List ChainOp) : Session := ops.foldl step {}

theorem links_size_le_step (x : Session) (op : ChainOp) : x.links.size ≤ (x.step op).links.size := by
  cases op with
  | root var type => simp [step, Links.root]
  | append n kind type =>
    rw [step]
    split
    · split
      · rename_i appended
        obtain ⟨_, -, -, -, rfl⟩ := Lowering.append_ok appended
        simp
      · exact Nat.le_refl _
    · exact Nat.le_refl _
  | finish n => exact Nat.le_refl _

end Session

/-- The walk along the chain visits what it was given, from its root to its tail. -/
structure Record.Traced (r : Record) (links : Links) : Prop where
  walk : ∃ visited last, links.walk r.chain.head = .ok visited ∧
    visited.map (fun l => (l.2.kind, l.2.type)) = r.given ∧ visited.getLast? = some (r.chain.tail, last) ∧
    last.child = none ∧ links.chainType r.chain.head = .ok last.type
  root : ∃ var type, r.given.head? = some (.var var, type) ∧ links.rootVar r.chain.head = .ok var

/-! ### The strands of a session -/

def Strand.record (c : Strand) : Record := ⟨c.chain, c.spots.map fun x => (x.kind, x.type)⟩

/-- The type that a link of the given kind narrows the last one to. -/
def Record.narrows? (r : Record) (kind : LinkKind) : Option ShaderType :=
  r.given.getLast?.bind fun last => kind.narrows? last.2

theorem Strand.record_narrows (c : Strand) (kind : LinkKind) : c.record.narrows? kind = kind.narrows? c.last.type := by
  have last : c.spots.getLast? = some c.last := List.getLast?_eq_some_getLast _
  rw [Record.narrows?, record, List.getLast?_map, last]
  rfl

theorem Links.Threaded.traced (h : links.Threaded c.spots) (shaped : c.Shaped) (small : links.size < UInt32.size) :
    c.record.Traced links := by
  refine ⟨⟨Links.thread c.spots, ⟨c.last.kind, c.last.type, none⟩, h.walk small, thread_links c.spots,
    thread_getLast? c.first c.rest, rfl, h.chainType small⟩, ?_⟩
  have root := shaped.root
  cases kind : c.first.kind with
  | var v => exact ⟨v, c.first.type, congrArg (fun k => some (k, c.first.type)) kind, h.rootVar small kind⟩
  | struct index | array index => simp [kind, LinkKind.isRoot] at root

/-- Attaching a link to any strand lengthens it. -/
theorem Links.Woven.extend (h : links.Woven strands) (found : strands[n]? = some c)
    (narrows : kind.narrows? c.last.type = some type) :
    Woven ((links.push ⟨kind, type, none⟩).modify c.last.position fun l => { l with child := some links.nextId })
      (strands.set n (c.extend ⟨links.size, kind, type⟩)) := by
  obtain ⟨inside, rfl⟩ := List.getElem?_eq_some_iff.mp found
  -- the order of the strands does not matter, so the one that grows may be the last
  have moved : ∀ d : Strand, (strands.set n d).Perm (strands.take n ++ strands.drop (n + 1) ++ [d]) := by
    intro d
    rw [List.set_eq_take_append_cons_drop, if_pos inside]
    exact List.perm_middle.trans (List.perm_append_singleton d _).symm
  rw [← List.set_getElem_self inside] at h
  exact ((h.perm (moved _)).append narrows).perm (moved _).symm

/-- A link is attached to a strand exactly if it narrows the last one. -/
theorem Links.Threaded.append_cases (h : links.Threaded c.spots) (small : links.size < UInt32.size) (kind : LinkKind)
    (type : ShaderType) :
    kind.narrows? c.last.type = some type ∧ links.append c.chain kind type = .ok (⟨c.head, links.nextId⟩,
      (links.push ⟨kind, type, none⟩).modify c.last.position fun l => { l with child := some links.nextId }) ∨
    kind.narrows? c.last.type ≠ some type ∧ ∃ f, links.append c.chain kind type = .error f := by
  have position : c.chain.tail.index.toNat = c.last.position :=
    Spot.id_index (Nat.lt_trans (h.lt_size _ c.last_mem) small)
  obtain ⟨child, found⟩ := h.found_of_mem c.last_mem
  rw [← position] at found ⊢
  rcases appended : links.append c.chain kind type with f | ⟨d, ls⟩
  · refine .inr ⟨fun narrows => ?_, f, rfl⟩
    have narrowed : narrowed? kind c.last.type = .ok (some type) := by
      cases kind with
      | var v => cases narrows
      | struct index | array index => exact congrArg Except.ok narrows
    simp [Links.append, Links.get, found, narrowed] at appended
  · obtain ⟨_, there, narrowed, rfl, rfl⟩ := Lowering.append_ok appended
    obtain rfl := Option.some.inj (found.symm.trans there)
    exact .inl ⟨LinkKind.narrows?_of_narrowed narrowed, rfl⟩

namespace Session

/-- The arena is made of strands, one for each chain. -/
def Draws (x : Session) (strands : List Strand) : Prop :=
  x.links.Woven strands ∧ x.chains = strands.map Strand.record

variable {x : Session} {r : Record}

theorem Draws.found (draws : x.Draws strands) (there : x.chains[n]? = some r) :
    ∃ c, strands[n]? = some c ∧ x.links.Threaded c.spots ∧ c.record = r := by
  rw [draws.2, List.getElem?_map, Option.map_eq_some_iff] at there
  obtain ⟨c, found, same⟩ := there
  exact ⟨c, found, draws.1.threaded c (List.mem_of_getElem? found), same⟩

/-- A step keeps the strands of all chains but the one that it extends. -/
theorem Draws.step (draws : x.Draws strands) (op : ChainOp) (small : x.links.size < UInt32.size) :
    ∃ others, (x.step op).Draws others ∧
      ∀ m c, (∀ kind type, op ≠ .append m kind type) → strands[m]? = some c → others[m]? = some c := by
  have still : ∃ others, x.Draws others ∧
      ∀ m c, (∀ kind type, op ≠ .append m kind type) → strands[m]? = some c → others[m]? = some c :=
    ⟨strands, draws, fun _ _ _ => id⟩
  cases op with
  | root var type =>
    refine ⟨_, ⟨draws.1.root var type, ?_⟩, fun m c _ found => ?_⟩
    · rw [List.map_append, ← draws.2]
      rfl
    · rw [List.getElem?_append_left (List.getElem?_eq_some_iff.mp found).1, found]
  | append n kind type =>
    rw [Session.step]
    split
    · rename_i there _
      obtain ⟨c, found, threaded, rfl⟩ := draws.found there
      obtain ⟨narrows, appended⟩ | ⟨-, f, refused⟩ := threaded.append_cases small kind type
      · rw [show x.links.append c.record.chain kind type = _ from appended]
        refine ⟨_, ⟨draws.1.extend found narrows, ?_⟩, fun m d other found => ?_⟩
        · rw [List.map_set, ← draws.2, Strand.record, Strand.record, Strand.chain_extend, Strand.spots_extend,
            List.map_append]
          rfl
        · rw [List.getElem?_set_ne, found]
          rintro rfl
          exact other _ _ rfl
      · rw [show x.links.append c.record.chain kind type = _ from refused]
        exact still
    · exact still
  | finish n => exact still

theorem run_draws (ops : List ChainOp) (small : (run ops).links.size < UInt32.size) :
    ∃ strands, (run ops).Draws strands := by
  -- the operations are taken from the last one back
  induction ops using List.reverseRecOn with
  | nil => exact ⟨[], .empty, rfl⟩
  | append_singleton ops op ih =>
    have last : run (ops ++ [op]) = (run ops).step op := by simp [run]
    rw [last] at small ⊢
    have before := Nat.lt_of_le_of_lt ((run ops).links_size_le_step op) small
    obtain ⟨strands, draws⟩ := ih before
    obtain ⟨others, after, -⟩ := draws.step op before
    exact ⟨others, after⟩

end Session

end Target

namespace Lowering
open Target Lower

/-- What holds of the chains at every point of a session. -/
structure Orderly (x : Session) : Prop where
  traced : ∀ r ∈ x.chains, r.Traced x.links
  /-- The walks along all chains visit no link twice. -/
  apart : ∃ walks, (x.chains.map fun r => r.chain.head).mapM x.links.walk = .ok walks ∧
    (walks.flatten.map Prod.fst).Nodup
  /-- A link that is attached to one chain is seen from no other. -/
  others : ∀ n kind type, (x.step (.append n kind type)).links.size < UInt32.size → ∀ m r, m ≠ n →
    x.chains[m]? = some r → (x.step (.append n kind type)).links.walk r.chain.head = x.links.walk r.chain.head
  /-- A link that does not narrow the tail is refused, and no other. -/
  fails : ∀ r ∈ x.chains, ∀ kind type s t, s.program.links = x.links →
    (Fails (appendLink r.chain kind type) s t ↔ t = s ∧ r.narrows? kind ≠ some type)
  refused : ∀ n r kind type, x.chains[n]? = some r → r.narrows? kind ≠ some type → x.step (.append n kind type) = x

theorem appendLink_fails_iff {c : Strand} {kind : LinkKind} {type : ShaderType} {s t : State}
    (threaded : s.program.links.Threaded c.spots) (small : s.program.links.size < UInt32.size) :
    Fails (appendLink c.chain kind type) s t ↔ t = s ∧ kind.narrows? c.last.type ≠ some type := by
  obtain ⟨narrows, appended⟩ | ⟨refused, f, failed⟩ := threaded.append_cases small kind type
  · refine ⟨fun h => ?_, fun h => (h.2 narrows).elim⟩
    obtain ⟨-, f, refused⟩ := appendLink_fails h
    cases appended.symm.trans refused
  · refine ⟨fun h => ⟨(appendLink_fails h).1, refused⟩, fun h => ⟨.fault f, ?_⟩⟩
    rw [h.1, appendLink, outcome_program, failed]
    rfl

/-- Chains stay in order in every session that has a handle for each link. -/
theorem run_orderly (ops : List ChainOp) (small : (Session.run ops).links.size < UInt32.size) :
    Orderly (Session.run ops) := by
  obtain ⟨strands, draws⟩ := Session.run_draws ops small
  generalize Session.run ops = x at small draws
  constructor
  · intro r member
    rw [draws.2] at member
    obtain ⟨c, inside, rfl⟩ := List.mem_map.mp member
    exact (draws.1.threaded c inside).traced (draws.1.shaped c inside) small
  · rw [draws.2, List.map_map]
    refine ⟨_, Links.Woven.mapM_walk draws.1.threaded small, ?_⟩
    exact draws.1.visits_perm.nodup_iff.mpr (x.links.handles_nodup small _)
  · intro n kind type small' m r other there
    obtain ⟨c, found, threaded, rfl⟩ := draws.found there
    obtain ⟨strands', after, kept⟩ := draws.step (.append n kind type) small
    have found' := kept m c (by rintro _ _ ⟨⟩; exact other rfl) found
    exact ((after.1.threaded c (List.mem_of_getElem? found')).walk small').trans (threaded.walk small).symm
  · intro r member kind type s t same
    rw [draws.2] at member
    obtain ⟨c, inside, rfl⟩ := List.mem_map.mp member
    rw [c.record_narrows]
    exact appendLink_fails_iff (same ▸ draws.1.threaded c inside) (same ▸ small)
  · intro n r kind type there blocked
    obtain ⟨c, -, threaded, rfl⟩ := draws.found there
    obtain ⟨narrows, -⟩ | ⟨-, f, failed⟩ := threaded.append_cases small kind type
    · exact absurd (c.record_narrows kind ▸ narrows) blocked
    · rw [Session.step, there]
      cases x.finished.contains n with
      | false => simp only [show x.links.append c.record.chain kind type = _ from failed]
      | true => rfl

/-- Two chains in turns. A root inside a chain is refused, and a finished chain gets no more links. -/
def twoChains : List ChainOp := [.root ⟨0⟩ (.matrix .float 2 3), .root ⟨1⟩ (.array (.scalar .int) 8),
  .append 0 (.array (.direct 1)) (.vector .float 3), .append 1 (.array (.indirect ⟨7⟩)) (.scalar .int),
  .append 0 (.var ⟨1⟩) .void, .finish 1, .append 1 (.array (.direct 0)) .void,
  .append 0 (.array (.direct 2)) (.scalar .float)]

theorem run_orderly_twoChains : (Session.run twoChains).links.size = 5 ∧
    (Session.run twoChains).chains.map (fun r => (r.chain, r.given.length)) = [(⟨⟨0⟩, ⟨4⟩⟩, 3), (⟨⟨1⟩, ⟨3⟩⟩, 2)] ∧
    Orderly (Session.run twoChains) :=
  ⟨by decide, by decide, run_orderly twoChains (by decide)⟩

end Lowering

end ShaderSSA
