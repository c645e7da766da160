import ShaderSSA.Proofs.Machine
import ShaderSSA.Proofs.Typing

/-!
Executing emitted code. `Computes` says what the instructions between two states leave in registers. Loads
of places and constants read from storage that mirrors the contents of the source variables.
-/

namespace ShaderSSA.Lowering
open Source Target Lower

variable {env : Env} {source : Source.Program} {seen : List Source.VarId} {contents : Contents} {memory : Memory}
  {q : Target.Program} {s u t : State} {path : List Segment} {tree : ValueId → Option ValueTree} {kinds : List LinkKind}
  {minted : Nat} {words : List UInt32}

/-! ### Executing what was emitted -/

/-- In `q`, what was emitted between `s` and `t` gives values their words and leaves alone the registers of
values that were there before. -/
structure Computes (q : Target.Program) (memory : Memory) (s t : State) (results : List (ValueId × List UInt32)) :
    Prop where
  shaped : ∀ k ∈ results, ∃ d, t.program.value? k.1 = some d ∧ d.width.toNat = k.2.length
  runs : ∀ regs, ∃ next,
    q.execute memory (q.between s.program.instrs.size t.program.instrs.size) regs = some next ∧
      (∀ k ∈ results, next k.1 = k.2) ∧ ∀ w : ValueId, w.index.toNat < s.program.values.size → next w = regs w

namespace Computes
variable {results others : List (ValueId × List UInt32)}

theorem still (same : t.program.instrs = s.program.instrs) : Computes q memory s t [] where
  shaped := by simp
  runs := by
    intro regs
    exact ⟨regs, by rw [same, Program.between_self]; rfl, by simp, fun _ _ => rfl⟩

theorem index_lt (h : Computes q memory s t results) {k : ValueId × List UInt32} (member : k ∈ results) :
    k.1.index.toNat < t.program.values.size := by
  obtain ⟨d, found, -⟩ := h.shaped k member
  exact (Array.getElem?_eq_some_iff.mp found).1

theorem trans (h : Computes q memory s u results) (h' : Computes q memory u t others)
    (before : s.program.Extends u.program) (after : u.program.Extends t.program) :
    Computes q memory s t (results ++ others) where
  shaped := by
    intro k member
    rcases List.mem_append.mp member with early | late
    · obtain ⟨d, found, width⟩ := h.shaped k early
      exact ⟨d, after.values found, width⟩
    · exact h'.shaped k late
  runs := by
    intro regs
    obtain ⟨mid, first, early, kept⟩ := h.runs regs
    obtain ⟨next, second, late, left⟩ := h'.runs mid
    have grown := Program.Keeps.size_le before.values
    refine ⟨next, ?_, ?_, ?_⟩
    · rw [← Program.between_append (Program.Keeps.size_le before.instrs)
        (Program.Keeps.size_le after.instrs), Program.execute_append first, second]
    · intro k member
      rcases List.mem_append.mp member with there | there
      · rw [left k.1 (h.index_lt there), early k there]
      · exact late k there
    · intro w old
      rw [left w (Nat.lt_of_lt_of_le old grown), kept w old]

theorem emit (h : Computes q memory s u results) (before : s.program.Extends u.program) {op : Operation}
    {width bitSize : UInt8} {v : ValueId} (run : Runs (emitValue op width bitSize) u v t) (kept : t.program.Extends q)
    (fits : q.Fits) (length : words.length = width.toNat)
    (performed : ∀ regs : RegisterFile, (∀ k ∈ results, regs k.1 = k.2) → q.perform memory regs op width = some words) :
    Computes q memory s t [(v, words)] := by
  obtain ⟨rfl, rfl, -⟩ := emitValue_ok run
  have emits := emits_value u op width bitSize
  have small := Nat.lt_of_le_of_lt (Program.Keeps.size_le kept.values) fits.values
  have grown := Program.Keeps.size_le before.values
  have index : u.nextValue.index.toNat = u.program.values.size := by
    have pushed : (u.withValue op width bitSize).program.values.size = u.program.values.size + 1 := Array.size_push ..
    exact UInt32.toNat_ofNat_of_lt' (by omega)
  constructor
  · intro k member
    obtain rfl := List.mem_singleton.mp member
    exact ⟨_, value?_nextValue small id, length.symm⟩
  · intro regs
    obtain ⟨mid, first, known, left⟩ := h.runs regs
    refine ⟨mid.set u.nextValue words, ?_, ?_, ?_⟩
    · rw [emits.size, ← Program.between_append (Program.Keeps.size_le before.instrs) (Nat.le_succ _),
        Program.execute_append first, Program.between_succ (emits.found kept.instrs)]
      simp [Program.execute, Program.step, value?_nextValue fits.values kept.values, performed mid known,
        length]
    · simp [RegisterFile.set]
    · intro w old
      have other : w ≠ u.nextValue := by
        rintro rfl
        omega
      rw [RegisterFile.set, if_neg other, left w old]

end Computes

/-! ### Storage -/

/-- Storage mirrors the source variables: what is bound holds their contents, and variables that were made for
constants hold these. -/
structure Mirrors (env : Env) (contents : Contents) (q : Target.Program) (memory : Memory) : Prop where
  bound : ∀ {id : Source.VarId} {v}, env.bindings[id.index.toNat]? = some (some v) →
    memory v = (contents id).map Datum.word
  minted : ∀ {v : Target.VarId} {x c}, env.storage.size ≤ v.index.toNat → q.var? v = some x →
    x.initializer = some c → memory v = c.stored

/-- One segment further into storage. -/
def narrow? (whole : Stored UInt32) : Segment → Option (Stored UInt32)
  | .field index | .direct index => whole.part? index.toNat
  | .var _ | .constant _ | .indirect _ => none

def readPath (memory : Memory) : List Segment → Option (Stored UInt32)
  | .var id :: path => path.foldlM narrow? (memory id)
  | .constant c :: path => path.foldlM narrow? c.stored
  | _ => none

theorem readPath_append {whole : Stored UInt32} (h : readPath memory path = some whole) (last : Segment) :
    readPath memory (path ++ [last]) = narrow? whole last := by
  unfold readPath at h
  split at h
  · simp [readPath, List.foldlM_append, h]
  · simp [readPath, List.foldlM_append, h]
  · cases h

theorem narrow_drawn {kind : LinkKind} {segment : Segment} (drawn : q.segment minted tree kind = some segment)
    (whole : Stored UInt32) : kind.narrow? whole = narrow? whole segment := by
  unfold Program.segment at drawn
  split at drawn
  · split at drawn
    · obtain rfl := Option.some.inj drawn
      rfl
    · obtain ⟨c, -, rfl⟩ := Option.map_eq_some_iff.mp drawn
      rfl
  · obtain rfl := Option.some.inj drawn
    rfl
  · obtain rfl := Option.some.inj drawn
    rfl
  · obtain ⟨c, -, rfl⟩ := Option.map_eq_some_iff.mp drawn
    rfl

theorem fold_drawn (drawn : kinds.mapM (q.segment minted tree) = some path) (whole : Stored UInt32) :
    kinds.foldlM LinkKind.narrow? whole = path.foldlM narrow? whole := by
  induction kinds generalizing path whole with
  | nil =>
    obtain rfl : [] = path := by simpa using drawn
    rfl
  | cons kind kinds ih =>
    obtain ⟨segment, first, rest, others, rfl⟩ := mapM_cons_eq_some.mp drawn
    rw [List.foldlM_cons, List.foldlM_cons, narrow_drawn first]
    congr 1
    funext part
    exact ih others part

theorem read_drawn (mirrors : Mirrors env contents q memory)
    (drawn : kinds.mapM (q.segment env.storage.size tree) = some path) : memory.read kinds = readPath memory path := by
  cases kinds with
  | nil =>
    obtain rfl : [] = path := by simpa using drawn
    rfl
  | cons kind kinds =>
    obtain ⟨segment, first, rest, others, rfl⟩ := mapM_cons_eq_some.mp drawn
    unfold Program.segment at first
    split at first
    · split at first
      · obtain rfl := Option.some.inj first
        exact fold_drawn others _
      · rename_i id late
        obtain ⟨c, is, rfl⟩ := Option.map_eq_some_iff.mp first
        obtain ⟨x, found, initial⟩ := Option.bind_eq_some_iff.mp is
        rw [Memory.read, readPath, mirrors.minted (Nat.le_of_not_lt late) found initial]
        exact fold_drawn others _
    · obtain rfl := Option.some.inj first
      rfl
    · obtain rfl := Option.some.inj first
      rfl
    · obtain ⟨c, -, rfl⟩ := Option.map_eq_some_iff.mp first
      rfl

theorem readPath_content (mirrors : Mirrors env contents q memory) : ∀ (p : Place) {path : List Segment}
    {whole : Stored Datum}, p.path env = some path → p.content contents = some whole →
    readPath memory path = some (whole.map Datum.word)
  | .var id type, path, whole, read, is => by
    simp only [Place.path, Option.map_eq_some_iff, Option.join_eq_some_iff] at read
    obtain ⟨v, bound, rfl⟩ := read
    simp only [Place.content, Option.some.injEq] at is
    rw [← is, ← mirrors.bound bound]
    rfl
  | .field record index type, path, whole, read, is => by
    simp only [Place.path, Option.map_eq_some_iff] at read
    obtain ⟨before, first, rfl⟩ := read
    simp only [Place.content, Option.bind_eq_some_iff] at is
    obtain ⟨outer, content, part⟩ := is
    rw [readPath_append (readPath_content mirrors record first content), narrow?, Stored.part?_map, part,
      Option.map_some]
  | .element array index type, path, whole, read, is => by
    simp only [Place.content, Option.bind_eq_some_iff] at is
    obtain ⟨outer, content, i, literal, part⟩ := is
    obtain ⟨w, word, same⟩ := index?_word? literal
    have recurse := @readPath_content mirrors array
    cases index with
    | constant l =>
      simp only [Place.path, Option.bind_eq_bind, Option.bind_eq_some_iff, Option.pure_def, Option.some.injEq] at read
      obtain ⟨before, first, _, known, rfl⟩ := read
      obtain rfl := Option.some.inj (word.symm.trans known)
      rw [readPath_append (recurse first content), narrow?, Stored.part?_map, same, part, Option.map_some]
    | _ => simp [Rvalue.index?] at literal

/-! ### Chains and loads -/

theorem placeChain_still : ∀ (p : Place) {s t : State} {chain : Chain}, p.isTyped source seen = true →
    Runs (placeChain source p) s chain t → t.program.instrs = s.program.instrs
  | .var id type, s, t, chain, typed, run => by
    obtain ⟨var, -, rootRun⟩ := placeChain_var run
    obtain ⟨-, rfl⟩ := rootChain_ok rootRun
    rfl
  | .field record index type, s, t, chain, typed, run => by
    simp only [Place.isTyped, Bool.and_eq_true] at typed
    obtain ⟨before, u, recordRun, linkRun⟩ := placeChain_field run
    have same := placeChain_still record typed.2 recordRun
    obtain ⟨links, -, rfl⟩ := appendLink_ok linkRun
    exact same
  | .element array index type, s, t, chain, typed, run => by
    simp only [Place.isTyped, Bool.and_eq_true, Option.any_eq_true] at typed
    obtain ⟨⟨-, reached⟩, i, literal, -⟩ := typed
    obtain ⟨before, u, arrayRun, ⟨l, word, rfl, -, linkRun⟩ | ⟨computed, -⟩⟩ := placeChain_element run
    · have same := placeChain_still array reached arrayRun
      obtain ⟨links, -, rfl⟩ := appendLink_ok linkRun
      exact same
    · cases index with
      | constant l => cases computed
      | _ => simp [Rvalue.index?] at literal

theorem constantChain_still {l : Literal} {chain : Chain} (run : Runs (constantChain l) s chain t) :
    t.program.instrs = s.program.instrs := by
  obtain ⟨_, k, id, w, -, -, added, rootRun⟩ := constantChain_ok run
  obtain ⟨p, listed, rfl⟩ := addVariable_ok added
  obtain ⟨-, rfl⟩ := rootChain_ok rootRun
  obtain ⟨-, -, instrs, -⟩ := Program.addVariable_vars listed
  exact instrs

theorem load_computes {nodes : List Node} {c : Live} (code : Code env none s u nodes [] [c] [])
    (still : u.program.instrs = s.program.instrs) (ready : u.Ready env) {v : ValueId}
    (run : Runs (loadLocation c.last.type c.head) u v t) (small : t.program.Fits) (kept : t.program.Extends q)
    (fits : q.Fits) (outside : env.inBuffer c.path = false) (mirrors : Mirrors env contents q memory)
    (read : readPath memory c.path = some (.vector words)) (length : words.length = c.last.type.rows.toNat) :
    Computes q memory s t [(v, words)] := by
  have emitted := loadLocation_emits code ready run small
  rw [outside, Bool.false_and] at emitted
  simp only [emitLoad, Bool.false_eq_true, if_false] at emitted
  refine (Computes.still still).emit code.keeps emitted kept fits length fun regs _ => ?_
  obtain ⟨rfl, rfl, -⟩ := emitValue_ok emitted
  obtain ⟨facts, threaded, -⟩ := (emits_value ..).later code.toDraft (kept.mono fun _ _ => trivial) fits
  have walked : q.chain? c.head = some c.kinds :=
    Program.chain?_of_walk ((threaded c List.mem_cons_self).walk fits.links)
  have drawn := facts.drawn c List.mem_cons_self _ (Nat.le_refl _)
  simp [Program.perform, walked, read_drawn mirrors drawn, read, Stored.components?]

end ShaderSSA.Lowering
