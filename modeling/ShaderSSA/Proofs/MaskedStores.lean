import ShaderSSA.Proofs.Cells
import ShaderSSA.Proofs.Packing
import ShaderSSA.Proofs.Places
import ShaderSSA.Proofs.Statements

/-!
Masked stores. An assignment that is no copy emits one store, behind code that only computes values. Executing
it gives the written channels the components of the value, in order, and leaves all else alone.
-/

namespace ShaderSSA

namespace Target

variable {nodes : List Node}

theorem computes_of_skeleton {p : Program} {result : Option VarId} (h : skeleton? p result nodes = some []) :
    ∀ n ∈ nodes, ∃ id i, n = .instr id ∧ p.instr? id = some i ∧
      i.operation.computes = true := by
  induction nodes with
  | nil => simp
  | cons n nodes ih =>
    simp only [skeleton?, Option.bind_eq_bind, Option.pure_def, Option.bind_eq_some_iff, Option.some.injEq,
      List.append_eq_nil_iff] at h
    obtain ⟨first, head, rest, tail, rfl, rfl⟩ := h
    intro m member
    rcases List.mem_cons.mp member with rfl | member
    · cases m with
      | instr id =>
        simp only [Node.skeleton?, Option.bind_eq_bind, Option.pure_def, Option.bind_eq_some_iff, Option.some.injEq,
          List.map_eq_nil_iff, Option.toList_eq_nil_iff] at head
        obtain ⟨i, found, chains, -, none⟩ := head
        exact ⟨id, i, rfl, found, Operation.effect?_eq_none.mp none⟩
      | branch | loop => simp [Node.skeleton?, Option.bind_eq_some_iff] at head
    · exact ih tail m member

theorem mem_instrsOf {id : InstId} : id ∈ instrsOf nodes ↔ ∃ n ∈ nodes, id ∈ n.instrs := by
  induction nodes with
  | nil => simp [instrsOf]
  | cons n nodes ih => simp [instrsOf, ih]

end Target

namespace Lowering
open Source Target Lower

variable {source : Source.Program} {env : Env} {s u t : State} {layer : Layer} {d : ValueDef} {head : LinkId}
  {x : Instr} {v w : ValueId}

/-! ### What values are computed into -/

theorem Step.dest (h : Step layer s t) {i : Nat} (found : t.program.instrs[i]? = some x)
    (dest : x.dest = some v) : s.program.instrs[i]? = some x ∨
      v = s.nextValue ∧ t.program.values.size = s.program.values.size + 1 := by
  cases h with
  | effect op =>
    rw [(emits_effect s op).instrs, Array.getElem?_push] at found
    split at found
    · obtain rfl := Option.some.inj found
      cases dest
    · exact .inl found
  | value op width bitSize =>
    rw [(emits_value s op width bitSize).instrs, Array.getElem?_push] at found
    split at found
    · obtain rfl := Option.some.inj found
      exact .inr ⟨(Option.some.inj dest).symm, Array.size_push ..⟩
    · exact .inl found
  | newVariable stored here added =>
    obtain ⟨_, -, instrs, -⟩ := Program.addVariable_vars added
    rw [← instrs]
    exact .inl found
  | body changed =>
    obtain ⟨_, -, rfl⟩ := Program.setBody_ok changed
    exact .inl found
  | root var type | append appended | discards | region region | log log | bind above known bound
  | newFunction name | scope scope same native => exact .inl found

theorem Path.dest (h : Path layer s t) (fits : t.program.Fits) {i : Nat}
    (late : s.program.instrs.size ≤ i) (found : t.program.instrs[i]? = some x) (dest : x.dest = some v) :
    s.program.values.size ≤ v.index.toNat ∧ ∃ d, t.program.value? v = some d := by
  induction h with
  | refl =>
    obtain ⟨inside, -⟩ := Array.getElem?_eq_some_iff.mp found
    omega
  | @tail u t path step ih =>
    obtain earlier | ⟨rfl, grown⟩ := step.dest found dest
    · obtain ⟨fresh, d, there⟩ := ih (Program.Fits.of_noLarger fits step.noLarger) earlier
      exact ⟨fresh, d, step.keeps.values there⟩
    · have size := fits.values
      have index : u.nextValue.index.toNat = u.program.values.size := UInt32.toNat_ofNat_of_lt' (by omega)
      have behind := Program.Keeps.size_le (Path.keeps path).values
      rw [Program.value?, index]
      exact ⟨behind, _, Array.getElem?_eq_getElem (by omega)⟩

/-- Between `s` and `t`, nodes were emitted that only compute new values. -/
structure Computing (s t : State) (nodes : List Node) : Prop where
  keeps : s.program.Extends t.program
  region : t.region.toList = s.region.toList ++ nodes
  simple : t.program.Simple s.program.values.size nodes
  instrs : ∀ i ∈ t.program.instrs.toList.drop s.program.instrs.size, i.operation.computes = true

namespace Computing
variable {nodes nodes' : List Node}

theorem refl (s : State) : Computing s s [] where
  keeps := .refl
  region := by simp
  simple := by simp [Program.Simple]
  instrs := by
    rw [List.drop_eq_nil_of_le (Nat.le_of_eq Array.length_toList)]
    simp

theorem trans (h : Computing s u nodes) (h' : Computing u t nodes') : Computing s t (nodes ++ nodes') where
  keeps := h.keeps.trans h'.keeps fun _ => id
  region := by rw [h'.region, h.region, List.append_assoc]
  simple := (h.simple.mono h'.keeps).append h'.simple (Program.Keeps.size_le h.keeps.values)
  instrs := by
    have small := Program.Keeps.size_le h.keeps.instrs
    intro i member
    rw [toList_of_kept h'.keeps.instrs, List.drop_append_of_le_length (by simpa using small)] at member
    rcases List.mem_append.mp member with member | member
    · exact h.instrs i member
    · exact h'.instrs i member

theorem of_code {known : List Known} {live : List Live} (code : Code env none s t nodes known live [])
    (path : Path layer s t) (fits : t.program.Fits) : Computing s t nodes := by
  have facts := code.facts .refl fits
  have computes := computes_of_skeleton facts.skeleton
  have late : ∀ id ∈ instrsOf nodes, s.program.instrs.size ≤ id.index.toNat := by
    intro id member
    rw [code.numbered] at member
    obtain ⟨i, above, below, rfl⟩ := mem_instsBetween.mp member
    rwa [UInt32.toNat_ofNat_of_lt' (Nat.lt_trans below fits.instrs)]
  refine ⟨code.keeps, code.region, fun n member => ?_, fun x member => ?_⟩
  · obtain ⟨id, x, rfl, found, fine⟩ := computes n member
    have own : id ∈ instrsOf nodes := mem_instrsOf.mpr ⟨_, member, List.mem_singleton_self _⟩
    exact ⟨id, x, rfl, found, fine, fun v dest => path.dest fits (late id own) found dest⟩
  · obtain ⟨k, found⟩ := List.mem_iff_getElem?.mp member
    rw [List.getElem?_drop, Array.getElem?_toList] at found
    obtain ⟨inside, -⟩ := Array.getElem?_eq_some_iff.mp found
    have listed : (⟨UInt32.ofNat (s.program.instrs.size + k)⟩ : InstId) ∈ instrsOf nodes := by
      rw [code.numbered]
      exact mem_instsBetween.mpr ⟨_, Nat.le_add_right _ _, inside, rfl⟩
    obtain ⟨n, there, own⟩ := mem_instrsOf.mp listed
    obtain ⟨id, y, rfl, found', fine⟩ := computes n there
    obtain rfl := List.mem_singleton.mp own
    rw [Program.instr?, UInt32.toNat_ofNat_of_lt' (Nat.lt_trans inside fits.instrs), found] at found'
    obtain rfl := Option.some.inj found'
    exact fine

theorem value {op : Operation} (computes : op.computes = true) (width bitSize : UInt8)
    (fits : (s.withValue op width bitSize).program.Fits) :
    Computing s (s.withValue op width bitSize) [.instr s.nextInst] := by
  have emits := emits_value s op width bitSize
  have path : Path .value s (s.withValue op width bitSize) := .single (.value op width bitSize)
  refine ⟨emits.keeps, Region.toList_push .., fun n member => ?_, fun i member => ?_⟩
  · obtain rfl := List.mem_singleton.mp member
    refine ⟨_, _, rfl, emits.instr? id fits, computes, fun v dest => ?_⟩
    exact path.dest fits (Nat.le_refl _) (emits.found id) dest
  · rw [emits.instrs, Array.toList_push, List.drop_append_of_le_length (Nat.le_of_eq Array.length_toList.symm),
      List.drop_eq_nil_of_le (Nat.le_of_eq Array.length_toList), List.nil_append] at member
    obtain rfl := List.mem_singleton.mp member
    exact computes

end Computing

theorem evaluate_computing {r : Rvalue} (bound : s.Bound) (run : Runs (evaluate source r) s v t)
    (fits : t.program.Fits) : ∃ nodes d, Computing s t nodes ∧ t.program.value? v = some d ∧
      ∀ {q}, t.program.Extends q → q.Fits → v ∈ destsOf q nodes := by
  obtain ⟨nodes, tree, -, code⟩ : ∃ nodes tree, r.tree s.env = some tree ∧
      Code s.env none s t nodes [(v, tree)] [] [] := evaluate_code source r bound.ready run fits
  have path : Path .value s t := (evaluates_evaluate source r).stepwise.path run
  have computing := Computing.of_code code path fits
  have defined : ∀ {q}, t.program.Extends q → q.Fits → v ∈ destsOf q nodes := fun kept fits =>
    (code.facts (kept.mono fun _ _ => trivial) fits).defined _ List.mem_cons_self
  obtain ⟨n, member, own⟩ := List.mem_flatMap.mp (defined .refl fits)
  obtain ⟨id, i, rfl, found, -, known⟩ := computing.simple n member
  simp only [Node.dests, found, Option.bind_some, Option.mem_toList] at own
  obtain ⟨-, d, there⟩ := known v own
  exact ⟨nodes, d, computing, there, defined⟩

theorem placeChain_computing {p : Place} {chain : Chain} (bound : s.Bound) (run : Runs (placeChain source p) s chain t)
    (fits : t.program.Fits) : ∃ nodes kinds, Computing s t nodes ∧
      ∀ {u : State}, t.program.Extends u.program → u.program.Fits → u.program.chain? chain.head = some kinds := by
  obtain ⟨nodes, c, -, -, code⟩ : ∃ nodes c, p.path s.env = some c.path ∧ c.Names chain p.type ∧
      Code s.env none s t nodes [] [c] [] := placeChain_code source p bound.ready run fits
  have path : Path .value s t := (evaluates_placeChain source p).stepwise.path run
  obtain ⟨es, spots, -, -, laid⟩ := placeChain_laid bound run fits
  refine ⟨nodes, spots.map Spot.kind, .of_code code path fits, fun kept fits => ?_⟩
  exact Program.chain?_of_walk ((laid.along (kept.links trivial)).walk fits.links).1

/-! ### Packed values -/

/-- Component `i` of `w` is component `k` of `v`: the value is the same, or moved. -/
inductive Carries (p : Target.Program) (v : ValueId) : ValueId → Nat → Nat → Prop where
  | same (i : Nat) : Carries p v v i i
  | moved {w : ValueId} {d : ValueDef} {native : Bool} {lanes : Lanes} {i : Nat} {c : UInt8}
      (found : p.value? w = some d) (move : p.instr? d.producer = some ⟨.alu (moveOp native) [⟨v, lanes⟩], some w⟩)
      (inside : i < d.width.toNat) (lane : lanes.toList[i]? = some c) : Carries p v w i c.toNat

theorem Carries.mono {p q : Target.Program} {i k : Nat} (h : Carries p v w i k) (kept : p.Extends q) :
    Carries q v w i k := by
  cases h with
  | same => exact .same i
  | moved found move inside lane => exact .moved (kept.values found) (kept.instrs move) inside lane

theorem moveOp_result {α L : Type} (I : Interpretation α L) (x : Cells α L) (native : Bool) (src : AluSrc)
    (width : Nat) : I.result x (.alu (moveOp native) [src]) width = (List.range width).map (I.read x.values src) := by
  cases native <;> rfl

/-- The code of a packed value, what the value consists of, and what executing the code does. -/
structure Packed (s t : State) (v w : ValueId) (full mask width : UInt8) (nodes : List Node) : Prop where
  computing : Computing s t nodes
  shape : ∃ d, t.program.value? w = some d ∧ (mask ≠ full → d.width = width)
  carries : ∀ i < width.toNat, mask.toNat.testBit i = true →
    Carries t.program v w i (if mask = full then i else rank mask i)
  run : ∀ {q}, t.program.Extends q → q.Fits → ∀ {α L : Type} [DecidableEq L] (I : Interpretation α L) (x : Cells α L),
    ∃ y, I.runNodes q nodes x = some y ∧ y.memory = x.memory ∧ y.values v = x.values v ∧
      ∀ i < width.toNat, mask.toNat.testBit i = true →
        (y.values w).getD i I.undefined = (x.values v).getD (rank mask i) I.undefined

namespace Packed
variable {v : ValueId} {d : ValueDef} {full mask width : UInt8}

theorem same (found : s.program.value? v = some d) (shape : mask ≠ full → d.width = width)
    (ranks : ∀ i < width.toNat, mask.toNat.testBit i = true → rank mask i = i) : Packed s s v v full mask width [] where
  computing := .refl s
  shape := ⟨d, found, shape⟩
  carries := by
    intro i inside written
    rw [ranks i inside written, ite_self]
    exact .same i
  run := by
    intro q _ _ α L _ I x
    exact ⟨x, rfl, rfl, rfl, fun i inside written => by rw [ranks i inside written]⟩

theorem moved {native : Bool} {bitSize : UInt8} {op : Operation} (found : s.program.value? v = some d)
    (narrow : width ≤ 4) (partly : mask ≠ full) (is : op = .alu (moveOp native) [⟨v, packedLanes mask width⟩])
    (fits : (s.withValue op width bitSize).program.Fits) :
    Packed s (s.withValue op width bitSize) v s.nextValue full mask width [.instr s.nextInst] := by
  have emits := emits_value s op width bitSize
  have lanes : ∀ i < width.toNat, (packedLanes mask width).toList[i]? = some (packedLane mask width i) := by
    intro i inside
    rw [lanes_getElem? _ inside, packedLanes_getElem? narrow inside]
  have shape : ∀ {q : Target.Program}, (s.withValue op width bitSize).program.Extends q → q.Fits →
      q.value? s.nextValue = some ⟨width, bitSize, s.nextInst⟩ :=
    fun kept fits => value?_nextValue fits.values kept.values
  have computes : op.computes = true := by rw [is]; rfl
  have apart : v ≠ s.nextValue := by
    rintro rfl
    obtain ⟨inside, -⟩ := Array.getElem?_eq_some_iff.mp found
    have small := Nat.lt_of_le_of_lt (Program.Keeps.size_le emits.keeps.values) fits.values
    rw [State.nextValue, UInt32.toNat_ofNat_of_lt' small] at inside
    omega
  exact {
    computing := .value computes width bitSize fits
    shape := ⟨_, shape .refl fits, fun _ => rfl⟩
    carries := by
      intro i inside written
      have move : (s.withValue op width bitSize).program.instr? s.nextInst =
          some ⟨.alu (moveOp native) [⟨v, packedLanes mask width⟩], some s.nextValue⟩ := by
        rw [← is]
        exact emits.instr? id fits
      rw [if_neg partly, ← packedLane_of_written inside written]
      exact .moved (shape .refl fits) move inside (lanes i inside)
    run := by
      intro q kept fits α L _ I x
      have known : ∀ w, some s.nextValue = some w → ∃ d, q.value? w = some d := by
        intro w dest
        exact ⟨_, Option.some.inj dest ▸ shape kept fits⟩
      obtain ⟨y, performed, memory, others, own⟩ :=
        Interpretation.perform_computing (I := I) (i := ⟨op, some s.nextValue⟩) computes known x
      refine ⟨y, ?_, memory, others v (by simpa using apart.symm), fun i inside written => ?_⟩
      · rw [Interpretation.runNodes_singleton, Interpretation.runNode, emits.instr? kept.instrs fits, Option.bind_some,
          performed]
      · rw [own _ _ rfl (shape kept fits), is, moveOp_result]
        simp [Interpretation.read, inside, lanes i inside, packedLane_of_written inside written] }

end Packed

theorem packing_packed {full mask width : UInt8} (found : s.program.value? v = some d)
    (narrow : width ≤ 4) (isFull : fullMask width = .ok full) (run : Runs (packing full mask width v) s w t)
    (fits : t.program.Fits) : ∃ nodes, Packed s t v w full mask width nodes := by
  obtain ⟨rfl, rfl, rfl | ⟨same, ranks⟩⟩ | ⟨partly, rfl, rfl⟩ := packing_ok found narrow run
  · exact ⟨[], .same found (absurd rfl) fun i inside _ => rank_of_full narrow isFull (Nat.le_of_lt inside)⟩
  · exact ⟨[], .same found (fun _ => same) ranks⟩
  · exact ⟨_, .moved found narrow partly rfl fits⟩

/-! ### Stores -/

theorem guarded_stores {condition : Option Rvalue} {mask : UInt8} (bound : s.Bound)
    (run : Runs (guarded source condition (storeLocation head v mask)) s () t) (fits : t.program.Fits) :
    ∃ guard u nodes d, Computing s u nodes ∧ u.program.value? v = some d ∧
      t.program = (u.withEffect (storing head v d.width mask)).program ∧
      t.region.toList = u.region.toList ++ [under guard (.instr u.nextInst)] ∧
      guard.isSome = condition.isSome ∧
      ∀ r, condition = some r → ∃ c, guard = some c ∧ Runs (evaluate source r) s c u := by
  cases condition with
  | none =>
    simp only [guarded] at run
    obtain ⟨d, found, rfl⟩ := storeLocation_emits run
    exact ⟨none, s, [], d, .refl s, found, rfl, Region.toList_push .., rfl, by simp⟩
  | some r =>
    simp only [guarded, runs_bind, runs_inRegion, runs_modifyRegion] at run
    obtain ⟨c, u, valueRun, _, _, ⟨x, stored, rfl, rfl⟩, rfl⟩ := run
    obtain ⟨d, found, rfl⟩ := storeLocation_emits stored
    have step : Step .value { u with region := {} }
        (State.withEffect { u with region := {} } (storing head v d.width mask)) := .effect _
    have before : u.program.Fits := Program.Fits.of_noLarger fits step.noLarger
    obtain ⟨nodes, -, computing, -, -⟩ := evaluate_computing bound valueRun before
    refine ⟨some c, u, nodes, d, computing, found, rfl, Region.toList_push .., rfl, ?_⟩
    intro r' same
    obtain rfl := Option.some.inj same
    exact ⟨c, rfl, valueRun⟩

/-- Whatever the other instructions compute: if the guard lets control pass, executing the nodes gives the channels
at the end of the chain that the mask writes the components of the value, in order; it leaves all other channels
and locations alone. -/
def Overwrites (p : Target.Program) (nodes : List Node) (guard : Option ValueId) (head : LinkId) (v : ValueId)
    (width mask : UInt8) : Prop :=
  ∀ (α L : Type) [DecidableEq L] (I : Interpretation α L) (before : Cells α L), ∃ after place,
    I.runNodes p nodes before = some after ∧ (p.chain? head).map (I.locate after.values) = some place ∧
    (after.values v).length = width.toNat ∧
    (I.passes after guard = false → after.memory = before.memory) ∧
    (I.passes after guard = true → (∀ l, l ≠ place → after.memory l = before.memory l) ∧
      (after.memory place).length = (before.memory place).length ∧
      ∀ i < (before.memory place).length, (after.memory place)[i]? =
        if mask.toNat.testBit i then (after.values v)[rank mask i]? else (before.memory place)[i]?)

theorem overwrites {x y z : State} {a b c : List Node} {guard : Option ValueId}
    {full mask width width' : UInt8} {kinds : List LinkKind} {q : Target.Program} (first : Computing s x a)
    (found : x.program.value? v = some d) (defined : v ∈ destsOf q a) (packed : Packed x y v w full mask width b)
    (last : Computing y z c) (kept : (z.withEffect (storing head w width' mask)).program.Extends q) (fits : q.Fits)
    (chain : q.chain? head = some kinds) (inside : mask.toNat < 2 ^ width.toNat)
    (count : d.width.toNat = channels mask width) :
    Overwrites q (a ++ (b ++ (c ++ [under guard (.instr z.nextInst)]))) guard head v d.width mask := by
  intro α L _ I before
  have emits := emits_effect z (storing head w width' mask)
  have toLast : z.program.Extends q := emits.keeps.trans kept fun _ => id
  have toPacked : y.program.Extends q := last.keeps.trans toLast fun _ => id
  have toFirst : x.program.Extends q := packed.computing.keeps.trans toPacked fun _ => id
  obtain ⟨x₁, run₁, memory₁, -, lengths⟩ := (first.simple.mono toFirst).run (I := I) before
  obtain ⟨x₂, run₂, memory₂, value₂, components⟩ := packed.run toPacked fits I x₁
  obtain ⟨x₃, run₃, memory₃, others₃, -⟩ := (last.simple.mono toLast).run (I := I) x₂
  have length : (x₁.values v).length = d.width.toNat := lengths v defined d (toFirst.values found)
  -- the code of the condition leaves the value and the packed value alone
  have kept₃ : ∀ {u : ValueId} {e}, y.program.value? u = some e → x₃.values u = x₂.values u := by
    intro u e there
    obtain ⟨early, -⟩ := Array.getElem?_eq_some_iff.mp there
    exact others₃ u ((last.simple.mono toLast).not_mem_dests early)
  obtain ⟨e, shape, -⟩ := packed.shape
  have value₃ : x₃.values v = x₁.values v := (kept₃ (packed.computing.keeps.values found)).trans value₂
  have memory : x₃.memory = before.memory := memory₃.trans (memory₂.trans memory₁)
  obtain ⟨after, place, ran, values, located, shut, through⟩ :=
    run_storing (I := I) (x := x₃) (emits.instr? kept.instrs fits) chain
  rw [memory] at shut through
  have passes : I.passes after guard = I.passes x₃ guard := by rw [Interpretation.passes, values, Interpretation.passes]
  refine ⟨after, place, ?_, by rwa [values], by rw [values, value₃, length], fun pass => shut (passes ▸ pass),
    fun pass => ?_⟩
  · rw [Interpretation.runNodes_append, run₁, Option.bind_some, Interpretation.runNodes_append, run₂, Option.bind_some,
      Interpretation.runNodes_append, run₃, Option.bind_some, ran]
  obtain ⟨others, written⟩ := through (passes ▸ pass)
  refine ⟨others, by rw [written]; exact List.length_mapIdx, fun i below => ?_⟩
  rw [written, overwrite_getElem? I below, values, value₃, kept₃ shape]
  split
  · rename_i bit
    have within := lt_width_of_written inside bit
    have known : rank mask i < (x₁.values v).length := by
      rw [length, count]
      exact rank_lt bit within
    rw [components i within bit, List.getD_eq_getElem?_getD, List.getElem?_eq_getElem known, Option.getD_some]
  · rfl

/-! ### Masked assignments -/

/-- The code of an assignment that stores the channels which the mask selects. -/
structure MaskedStore (source : Source.Program) (target : Place) (value : Rvalue) (full mask : UInt8)
    (condition : Option Rvalue) (s t : State) where
  chain : Chain
  rhs : ValueId
  shape : ValueDef
  evaluated : ∃ u x, Runs (placeChain source target) s chain u ∧ Runs (evaluate source value) u rhs x ∧
    x.program.value? rhs = some shape
  /-- The value that is stored. -/
  packed : ValueId
  packedShape : ValueDef
  found : t.program.value? packed = some packedShape
  width : mask ≠ full → packedShape.width = target.type.rows
  carries : ∀ i < target.type.rows.toNat, mask.toNat.testBit i = true →
    Carries t.program rhs packed i (if mask = full then i else rank mask i)
  /-- All instructions but the store, none of which has an effect. -/
  computing : List Instr
  computes : ∀ i ∈ computing, i.operation.computes = true
  instrs : t.program.instrs.toList =
    s.program.instrs.toList ++ computing ++ [⟨storing chain.head packed packedShape.width mask, none⟩]
  guard : Option ValueId
  guards : guard.isSome = condition.isSome ∧
    ∀ r, condition = some r → ∃ c y z, guard = some c ∧ Runs (evaluate source r) y c z
  nodes : List Node
  region : t.region.toList = s.region.toList ++ nodes
  overwrites : shape.width.toNat = channels mask target.type.rows →
    Overwrites t.program nodes guard chain.head rhs shape.width mask

variable {target : Place} {value : Rvalue} {full mask : UInt8} {condition : Option Rvalue}

theorem assign_masked (bound : s.Bound) (high : target.type.rows ≤ 4) (inside : mask.toNat < 2 ^ target.type.rows.toNat)
    (isFull : fullMask target.type.rows = .ok full)
    (run : Runs (do
      let dst ← placeChain source target
      let v ← evaluate source value
      let x ← packing full mask target.type.rows v
      guarded source condition (storeLocation dst.head x mask)) s () t) (fits : t.program.Fits) :
    Nonempty (MaskedStore source target value full mask condition s t) := by
  simp only [runs_bind] at run
  obtain ⟨chain, u, chainRun, v, x, valueRun, w, y, packRun, storeRun⟩ := run
  have fitsY := storeRun.fits_before (by simp) fits
  have fitsX := packRun.fits_before (by simp) fitsY
  have fitsU := valueRun.fits_before (by simp) fitsX
  have boundU := chainRun.bound (by simp) bound
  have boundX := valueRun.bound (by simp) boundU
  have boundY := packRun.bound (by simp) boundX
  obtain ⟨a, kinds, chainCode, chained⟩ := placeChain_computing bound chainRun fitsU
  obtain ⟨b, d, valueCode, found, defined⟩ := evaluate_computing boundU valueRun fitsX
  obtain ⟨c, packed⟩ := packing_packed found high isFull packRun fitsY
  obtain ⟨guard, z, e, shape, guardCode, stored, program, region, guards, evaluated⟩ :=
    guarded_stores boundY storeRun fits
  have emits := emits_effect z (storing chain.head w shape.width mask)
  have toLast : (z.withEffect (storing chain.head w shape.width mask)).program.Extends t.program := by
    rw [program]
    exact .refl
  have toGuard : z.program.Extends t.program := emits.keeps.trans toLast fun _ => id
  have toPacked : y.program.Extends t.program := guardCode.keeps.trans toGuard fun _ => id
  have toValue : x.program.Extends t.program := packed.computing.keeps.trans toPacked fun _ => id
  have toChain : u.program.Extends t.program := valueCode.keeps.trans toValue fun _ => id
  have all := ((chainCode.trans valueCode).trans packed.computing).trans guardCode
  exact ⟨{
    chain
    rhs := v
    shape := d
    evaluated := ⟨u, x, chainRun, valueRun, found⟩
    packed := w
    packedShape := shape
    found := toGuard.values stored
    width := by
      obtain ⟨own, there, width⟩ := packed.shape
      obtain rfl := Option.some.inj ((guardCode.keeps.values there).symm.trans stored)
      exact width
    carries := fun i below written => (packed.carries i below written).mono toPacked
    computing := z.program.instrs.toList.drop s.program.instrs.size
    computes := all.instrs
    instrs := by
      rw [program, emits.instrs, Array.toList_push, ← toList_of_kept all.keeps.instrs]
    guard
    guards := ⟨guards, fun r is => by
      obtain ⟨c, same, ran⟩ := evaluated r is
      exact ⟨c, y, z, same, ran⟩⟩
    nodes := a ++ b ++ (c ++ (e ++ [under guard (.instr z.nextInst)]))
    region := by
      rw [region, all.region]
      simp only [List.append_assoc]
    overwrites := by
      intro count
      have here : v ∈ destsOf t.program (a ++ b) := by
        rw [destsOf_append, List.mem_append]
        exact .inr (defined toValue fits)
      exact overwrites (chainCode.trans valueCode) found here packed guardCode toLast fits (chained toChain fits) inside
        count }⟩

/-- A masked assignment writes exactly the masked channels. Its packing step fails exactly if the mask leaves channels
out and selects more of them than the value has components, and a mask of zero is the full mask. -/
theorem assign_writes_channels (bound : s.Bound) (low : 1 ≤ target.type.rows) (high : target.type.rows ≤ 4)
    (nonzero : 0 < mask) (inside : mask.toNat < 2 ^ target.type.rows.toNat)
    (stored : assignment target value mask = .store false) : ∃ full, fullMask target.type.rows = .ok full ∧
      (∀ t, Runs (assign source target value mask condition) s () t → t.program.Fits →
        Nonempty (MaskedStore source target value full mask condition s t)) ∧
      (∀ chain u v x, Runs (placeChain source target) s chain u → Runs (evaluate source value) u v x → x.program.Fits →
        ∃ d, x.program.value? v = some d ∧
          (Aborts (packing full mask target.type.rows v) x ↔
            mask ≠ full ∧ d.width.toNat < channels mask target.type.rows) ∧
          outcome (assign source target value mask condition) s = outcome (do
            let w ← packing full mask target.type.rows v
            guarded source condition (storeLocation chain.head w mask)) x) ∧
      assign source target value 0 condition = assign source target value full condition := by
  obtain ⟨full, isFull⟩ := fullMask_ok high
  have notZero : mask ≠ 0 := by
    rintro rfl
    cases nonzero
  have notCopied : (value.isStored && mask = full) = false := by
    rw [assignment, isFull] at stored
    split at stored
    · cases stored
    · rename_i stores
      by_contra copied
      simp only [Bool.not_eq_false, Bool.and_eq_true, decide_eq_true_eq] at copied
      exact stores (by simp [copied.1, copied.2, Except.toOption])
  refine ⟨full, isFull, fun t run fits => ?_, fun chain u v x chainRun valueRun fits => ?_, assign_zero isFull⟩
  · rw [assign_eq isFull notZero notCopied] at run
    exact assign_masked bound high inside isFull run fits
  · obtain ⟨_, d, -, found, -⟩ := evaluate_computing (chainRun.bound (by simp) bound) valueRun fits
    refine ⟨d, found, packing_aborts_iff found low high (channels_pos nonzero inside), ?_⟩
    rw [assign_eq isFull notZero notCopied, outcome_of_runs chainRun, outcome_of_runs valueRun]

namespace Tint

def color : Place := .var ⟨0⟩ (.vector .float 4)

def shift : Rvalue := .place (.var ⟨1⟩ (.vector .float 2))

def doubled : Rvalue := .expression .add (.vector .float 2) [shift, shift]

def isOn : Rvalue := .place (.var ⟨2⟩ (.scalar .bool))

def program : Source.Program where
  name := "tint"
  layout := .fragment false .none false
  vars := #[
    { name := "color", type := .vector .float 4, mode := .shaderOut },
    { name := "shift", type := .vector .float 2, mode := .uniform },
    { name := "isOn", type := .scalar .bool, mode := .uniform }]

def declareAll : Lower Unit := do
  let _ ← declare program ⟨0⟩
  let _ ← declare program ⟨1⟩
  let _ ← declare program ⟨2⟩

def declared : State := (outcome declareAll (.initial program {})).2

def assigned : Except Failure Unit × State := outcome (assign program color doubled 5 (some isOn)) declared

def placed : State := (outcome (placeChain program color) declared).2

def components : Option UInt8 :=
  ((outcome (evaluate program doubled) placed).1.toOption.bind
    (outcome (evaluate program doubled) placed).2.program.value?).map ValueDef.width

theorem declared_bound : declared.Bound := by
  have steps : Stepwise .statement declareAll := by
    unfold declareAll
    repeat' first | with_reducible apply stepwise_bind | intro _ | simp
  obtain ⟨_, run⟩ : ∃ a, Runs declareAll (.initial program {}) a declared := runs_of_isOk (by decide +kernel)
  exact run.bound steps (initial_bound program {})

theorem assigned_runs : Runs (assign program color doubled 5 (some isOn)) declared () assigned.2 := by
  obtain ⟨_, run⟩ : ∃ a, Runs (assign program color doubled 5 (some isOn)) declared a assigned.2 :=
    runs_of_isOk (by decide +kernel)
  exact run

end Tint

theorem assign_writes_channels_tint : Tint.declared.Bound ∧
    assignment Tint.color Tint.doubled 5 = .store false ∧ fullMask 4 = .ok 15 ∧
    Runs (assign Tint.program Tint.color Tint.doubled 5 (some Tint.isOn)) Tint.declared () Tint.assigned.2 ∧
    Tint.assigned.2.program.Fits ∧
    ∃ m : MaskedStore Tint.program Tint.color Tint.doubled 15 5 (some Tint.isOn) Tint.declared Tint.assigned.2,
      m.packedShape.width = 4 ∧ Carries Tint.assigned.2.program m.rhs m.packed 2 1 ∧
      Overwrites Tint.assigned.2.program m.nodes m.guard m.chain.head m.rhs m.shape.width 5 := by
  have stored : assignment Tint.color Tint.doubled 5 = .store false := by decide
  have fits : Tint.assigned.2.program.Fits := by decide +kernel
  obtain ⟨full, isFull, stores, -⟩ := @assign_writes_channels Tint.program Tint.declared Tint.color Tint.doubled 5
    (some Tint.isOn) Tint.declared_bound (by decide) (by decide) (by decide) (by decide) stored
  obtain rfl : 15 = full := Except.ok.inj isFull
  obtain ⟨m⟩ := stores _ Tint.assigned_runs fits
  refine ⟨Tint.declared_bound, stored, rfl, Tint.assigned_runs, fits, m, m.width (by decide), ?_, m.overwrites ?_⟩
  · exact m.carries 2 (by decide) (by decide)
  · obtain ⟨u, x, chainRun, valueRun, found⟩ := m.evaluated
    obtain rfl : Tint.placed = u := congrArg Prod.snd chainRun
    have ran : outcome (evaluate Tint.program Tint.doubled) Tint.placed = (.ok m.rhs, x) := valueRun
    have two : Tint.components = some 2 := by decide +kernel
    rw [Tint.components, ran] at two
    have width : m.shape.width = 2 := by simpa [Except.toOption, found] using two
    rw [width]
    decide

end Lowering

end ShaderSSA
