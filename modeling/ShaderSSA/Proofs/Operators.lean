import ShaderSSA.Proofs.Code

/-!
The pieces of evaluation: loads, constants, swizzles, conversions, operators and links of chains. Each
continues code that was emitted before it and makes one value known or lengthens one chain.
-/

namespace ShaderSSA.Lowering
open Source Target Lower

variable {args : List Known} {bitSize width : UInt8} {op : AluOp} {s : State} {srcs : List AluSrc} {tree : ValueTree}
  {type : ShaderType} {c : Live}

/-- The state knows of variables what `env` says. -/
structure State.Ready (s : State) (env : Env) : Prop where
  bindings : s.scope.vars = env.bindings
  nativeIntegers : s.scope.nativeIntegers = env.nativeIntegers
  listed : ∀ {i : Nat} {c}, env.storage[i]? = some c → ∃ x, s.program.vars[i]? = some x ∧ x.storage = c
  bound : ∀ {i : Nat} {v}, env.bindings[i]? = some (some v) → v.index.toNat < env.storage.size

theorem State.Bound.ready (bound : s.Bound) : s.Ready s.env where
  bindings := rfl
  nativeIntegers := rfl
  listed := by
    intro i c found
    simp only [State.env, Array.getElem?_map, Option.map_eq_some_iff] at found
    exact found
  bound := by
    intro i v found
    simpa [State.env] using bound found

section
variable {env : Env} {result : Option Target.VarId} {s u t : State} {nodes : List Node} {known : List Known}
  {live : List Live} {effects : List Skeleton} {v : ValueId} {bitSize width : UInt8}

namespace State.Ready

theorem along (ready : s.Ready env) (path : Path .value s t) (keeps : s.program.Extends t.program) :
    t.Ready env := by
  refine ⟨by rw [path.scope_eq, ready.bindings], by rw [path.scope_eq, ready.nativeIntegers], ?_, ready.bound⟩
  intro i c found
  obtain ⟨x, there, rfl⟩ := ready.listed found
  exact ⟨x, keeps.vars there, rfl⟩

theorem step (ready : s.Ready env) {α : Type} {m : Lower α} {a : α} (run : Runs m s a t)
    (plain : Stepwise .value m) (code : Code env result s t nodes known live effects) : t.Ready env :=
  ready.along (plain.path run) code.keeps

theorem size_le (ready : s.Ready env) : env.storage.size ≤ s.program.vars.size := by
  rcases Nat.eq_zero_or_pos env.storage.size with none | some
  · omega
  · obtain ⟨x, last, -⟩ := ready.listed (Array.getElem?_eq_getElem (Nat.sub_lt some Nat.one_pos))
    obtain ⟨inside, -⟩ := Array.getElem?_eq_some_iff.mp last
    omega

theorem rooted (ready : s.Ready env) {v : Target.VarId} (old : v.index.toNat < env.storage.size) :
    Rooted env s.program v (.var v) := by
  have listed := Array.getElem?_eq_getElem old
  obtain ⟨x, there, storage⟩ := ready.listed listed
  exact .bound there (by rw [listed, storage])

end State.Ready

/-! ### Single values -/

theorem leaves_eq_nil {op : Operation} {chains : List Live} (computes : op.computes = true) :
    leaves result op chains = [] := by
  rw [leaves, Operation.effect?_eq_none.mpr computes]
  rfl

namespace Code

theorem shape (h : Code env result s u nodes known live effects) (fits : u.program.Fits) {k : Known}
    (member : k ∈ known) : ∃ d, u.program.value? k.1 = some d ∧ d.width = k.2.width ∧ d.bitSize = k.2.bitSize :=
  Program.unfold_shape ((h.facts .refl fits).shown k member _ (Nat.le_refl _))

theorem shape_eq (h : Code env result s u nodes known live effects) (fits : u.program.Fits) {k : Known}
    (member : k ∈ known) {d : ValueDef} (found : u.program.value? k.1 = some d) :
    d.width = k.2.width ∧ d.bitSize = k.2.bitSize := by
  obtain ⟨shape, there, same⟩ := h.shape fits member
  obtain rfl := Option.some.inj (found.symm.trans there)
  exact same

theorem computing (h : Code env result s u nodes known live effects) {op : Operation} {args : List Known}
    {chains : List Live} {v : ValueId}
    (run : Runs (emitValue op width bitSize) u v t) (ops : Operands op args chains known live)
    (computes : op.computes = true) (plain : op.isPlain = true) : ∃ nodes', Code env result s t nodes'
      ((v, .node width bitSize op.blank (args.map Prod.snd) (chains.map Live.path)) :: known) [] effects := by
  obtain ⟨rfl, rfl, -⟩ := emitValue_ok run
  have next := h.value ops width bitSize (isConst_of_isPlain plain) fun _ _ => loadsRaw_of_isPlain plain
  rw [leaves_eq_nil computes, List.append_nil] at next
  exact ⟨_, next⟩

theorem operands_alu (args : List (Known × Lanes)) (same : srcs = args.map fun a => ⟨a.1.1, a.2⟩)
    (inside : ∀ a ∈ args, a.1 ∈ known) : Operands (.alu op srcs) (args.map Prod.fst) [] known live :=
  ⟨by simp [Operation.values, same], by simp [Operation.locations],
    fun k member => by
      obtain ⟨a, chosen, rfl⟩ := List.mem_map.mp member
      exact inside a chosen,
    List.nil_subset _⟩

theorem node_alu {args : List (Known × Lanes)} (same : srcs = args.map fun a => ⟨a.1.1, a.2⟩) :
    ValueTree.node width bitSize (Operation.alu op srcs).blank ((args.map Prod.fst).map Prod.snd) [] =
      .alu width bitSize op (args.map fun a => (a.1.2, a.2)) := by
  simp [ValueTree.alu, Operation.blank, same, Function.comp_def]

theorem alu (h : Code env result s u nodes known live effects)
    (run : Runs (emitValue (.alu op srcs) width bitSize) u v t) (args : List (Known × Lanes))
    (same : srcs = args.map fun a => ⟨a.1.1, a.2⟩) (inside : ∀ a ∈ args, a.1 ∈ known) :
    ∃ nodes', Code env result s t nodes'
      ((v, .alu width bitSize op (args.map fun a => (a.1.2, a.2))) :: known) [] effects := by
  obtain ⟨nodes', code⟩ := h.computing run (operands_alu args same inside) rfl rfl
  rw [List.map_nil, node_alu same] at code
  exact ⟨nodes', code⟩

theorem aluZero (h : Code env result s u nodes known live effects) {w : State} {zero : ValueId}
    (zeroRun : Runs emitZero u zero w) (run : Runs (emitValue (.alu op srcs) width bitSize) w v t)
    (args : List (Known × Lanes)) (same : srcs = args.map fun a => ⟨a.1.1, a.2⟩)
    (inside : ∀ a ∈ args, a.1 ∈ known ++ [(zero, .zero)]) :
    ∃ nodes', Code env result s t nodes'
      [(v, .alu width bitSize op (args.map fun a => (a.1.2, a.2)))] [] effects := by
  obtain ⟨rfl, rfl, -⟩ := emitValue_ok zeroRun
  obtain ⟨rfl, rfl, -⟩ := emitValue_ok run
  have ops : Operands (.alu op srcs) (args.map Prod.fst) [] (known ++ [(u.nextValue, .zero)]) live :=
    operands_alu args same inside
  have code := h.compared ops width bitSize
  rw [node_alu same] at code
  exact ⟨_, code⟩

end Code

theorem broadcast_eq (same : width = tree.width) : AluSrc.broadcast v width = ⟨v, tree.spread.2⟩ := by
  rw [same]
  rfl

theorem emitLoad_ok {op : Operation} {v : ValueId}
    (run : Runs (emitLoad true op width bitSize) u v t) (small : t.program.values.size < UInt32.size) :
    v = (u.rawTest op width bitSize).value ∧ t = u.withTest op width bitSize := by
  simp only [emitLoad, if_true, runs_bind, nonzeroTest, runs_valueDef] at run
  obtain ⟨zero, w, zeroRun, value, x, valueRun, d, _, ⟨found, rfl⟩, testRun⟩ := run
  obtain ⟨rfl, rfl, -⟩ := emitValue_ok zeroRun
  obtain ⟨rfl, rfl, -⟩ := emitValue_ok valueRun
  have grown := (testRun.noLarger (by simp)).values
  have there := value?_nextValue (Nat.lt_of_le_of_lt grown small) id
  obtain rfl := Option.some.inj (there.symm.trans found)
  obtain ⟨rfl, rfl, -⟩ := emitValue_ok testRun
  exact ⟨rfl, rfl⟩

/-- A load, with the test of a raw boolean behind it. -/
theorem emitLoad_code (h : Code env result s u nodes known live effects) {raw : Bool} {op : Operation}
    {v : ValueId} (run : Runs (emitLoad raw op width bitSize) u v t)
    (fits : t.program.Fits) (args : List Known) (chains : List Live)
    (ops : Operands op args chains known live) (isIntrinsic : op.isIntrinsic = true)
    (notRaw : raw = false → ∀ {q}, Program.Keeps (Settled s []) (u.withValue op width bitSize).program q →
      q.Fits → q.loadsRaw op = false) : ∃ nodes', Code env result s t nodes'
      [(v, .loaded raw (.node width bitSize op.blank (args.map Prod.snd) (chains.map Live.path)))] []
      (effects ++ leaves result op chains) := by
  cases raw with
  | false =>
    simp only [emitLoad, Bool.false_eq_true, if_false] at run
    obtain ⟨rfl, rfl, -⟩ := emitValue_ok run
    have notConst : op.isConst = false := by cases op <;> first | rfl | cases isIntrinsic
    exact ⟨_, (h.value ops width bitSize notConst (notRaw rfl)).newest⟩
  | true =>
    obtain ⟨rfl, rfl⟩ := emitLoad_ok run fits.values
    exact ⟨_, h.tested ops width bitSize isIntrinsic⟩

theorem Facts.storage {q : Target.Program} {depth : Nat}
    (facts : Facts env result q depth nodes known live effects) (fits : q.Fits) (member : c ∈ live)
    (threaded : q.links.Threaded c.spots) :
    ∃ storage, q.storage? c.head = some storage ∧ storage.isBuffer = env.inBuffer c.path := by
  obtain ⟨id, x, kind, found, memory⟩ := facts.rooted c member
  have root : q.links.rootVar c.head = .ok id := threaded.rootVar fits.links kind
  exact ⟨x.storage, by simp [Program.storage?, root, found, Except.toOption], memory⟩

theorem Facts.holdsRaw_eq {q : Target.Program} {depth : Nat}
    (facts : Facts env result q depth nodes known live effects) (fits : q.Fits) (member : c ∈ live)
    (threaded : q.links.Threaded c.spots) : q.holdsRaw c.head = (env.inBuffer c.path && c.last.type.isBoolean) := by
  obtain ⟨storage, found, memory⟩ := facts.storage fits member threaded
  have type : q.links.chainType c.head = .ok c.last.type := threaded.chainType fits.links
  simp [Target.Program.holdsRaw, found, memory, type, Except.toOption]

theorem loadLocation_emits (h : Code env result s u nodes known [c] effects) (ready : u.Ready env)
    {v : ValueId} (run : Runs (loadLocation c.last.type c.head) u v t) (fits : t.program.Fits) :
    Runs (emitLoad (env.inBuffer c.path && c.last.type.isBoolean)
      (.intrinsic .loadDeref [.location c.head] { width := c.last.type.rows }) c.last.type.rows
      (valueBits env.nativeIntegers c.last.type)) u v t := by
  have before := run.fits_before (by simp) fits
  obtain ⟨root, var, rootRead, varRead, run⟩ := loadLocation_ok run
  -- the root that is looked up is the one that the path starts with
  obtain ⟨id, x, kind, found, memory⟩ := (h.facts .refl before).rooted c (by simp)
  have same := (h.threaded c (by simp)).rootVar before.links kind
  obtain rfl : id = root := Except.ok.inj (same.symm.trans rootRead)
  have there : var = x := by
    simp only [Target.Program.getVariable, found, Except.ok.injEq] at varRead
    exact varRead.symm
  rwa [there, memory, ready.nativeIntegers] at run

theorem loadLocation_code (h : Code env result s u nodes known [c] effects) (ready : u.Ready env)
    (run : Runs (loadLocation c.last.type c.head) u v t) (fits : t.program.Fits) :
    ∃ nodes', Code env result s t nodes' [(v, .load env c.last.type c.path)] [] effects := by
  have run := loadLocation_emits h ready run fits
  obtain ⟨nodes', code⟩ := emitLoad_code h run fits [] [c]
    (operands_intrinsic [c] [] (List.Subset.refl _) (List.nil_subset _)) rfl (by
      intro plain q kept fits
      obtain ⟨facts, threaded, -⟩ := (emits_value ..).later h.toDraft kept fits
      rw [← facts.holdsRaw_eq fits List.mem_cons_self (threaded c List.mem_cons_self)] at plain
      simp [Program.loadsRaw, Src.location?, plain])
  refine ⟨nodes', ?_⟩
  rw [leaves_eq_nil rfl, List.append_nil] at code
  exact code

/-- The chain that `chain` is the handle of, which leads to the given type. -/
structure Live.Names (c : Live) (chain : Chain) (type : ShaderType) : Prop where
  head : c.head = chain.head
  tail : c.last.id = chain.tail
  type : c.last.type = type

theorem constantChain_code (ready : u.Ready env) {l : Literal} {chain : Chain}
    (run : Runs (constantChain l) u chain t) (fits : t.program.Fits) :
    ∃ k c, (constantOf env.nativeIntegers l).toOption = some k ∧ c.path = [.constant k] ∧
      c.Names chain l.type ∧ Code env result u t [] [] [c] [] := by
  obtain ⟨_, k, id, w, -, literal, added, rootRun⟩ := constantChain_ok run
  rw [ready.nativeIntegers] at literal
  obtain ⟨p, listed, rfl⟩ := addVariable_ok added
  obtain ⟨rfl, rfl⟩ := rootChain_ok rootRun
  obtain ⟨rfl, -⟩ := Program.addVariable_ok listed
  obtain ⟨owner, vars, instrs, values, links⟩ := Program.addVariable_vars listed
  have small : p.vars.size < UInt32.size := fits.vars
  rw [vars, Array.size_push] at small
  have index : u.nextVar.index.toNat = u.program.vars.size :=
    UInt32.toNat_ofNat_of_lt' (Nat.lt_of_succ_lt small)
  refine ⟨k, ⟨⟨p.links.size, .var u.nextVar, l.type⟩, [], [.constant k]⟩, by rw [literal]; rfl, rfl,
    ⟨rfl, rfl, rfl⟩, ?_⟩
  have made : Code env result u { u with program := p } [] [] [] [] :=
    .still instrs values links rfl (by rw [vars]; exact getElem?_push_of_some)
  have rooted : Rooted env p u.nextVar (.constant k) :=
    .minted (by rw [Target.Program.var?, vars, index, Array.getElem?_push_size])
      (by rw [index]; exact ready.size_le) rfl rfl
  exact made.trans (.root rooted l.type)

/-! ### Operators -/

theorem reorder_code (h : Code env result s u nodes known live effects) {value : ValueId} {lanes : Lanes}
    (run : Runs (reorder value lanes width) u v t) (fits : u.program.Fits) (ready : u.Ready env)
    (member : (value, tree) ∈ known) :
    ∃ nodes', Code env result s t nodes' [(v, tree.selected env lanes width)] [] effects := by
  obtain ⟨d, found, run⟩ := reorder_ok run
  obtain ⟨sameWidth, sameBits⟩ := h.shape_eq fits member found
  rw [sameWidth, sameBits] at run
  obtain ⟨⟨rfl, identity⟩, rfl, rfl⟩ | ⟨moved, -, run⟩ := run
  · refine ⟨nodes, h.weaken ?_ (List.nil_subset _)⟩
    simpa [ValueTree.selected, identity] using member
  · rw [ready.nativeIntegers] at run
    obtain ⟨nodes', code⟩ := h.alu run [((value, tree), lanes)] (by simp) (by simp [member])
    refine ⟨nodes', code.weaken ?_ (List.Subset.refl _)⟩
    simp [ValueTree.selected, moved]

theorem convert_code (h : Code env result s u nodes known live effects) {src dst : ShaderType} {value : ValueId}
    (run : Runs (convert src dst value) u v t) (fits : u.program.Fits) (ready : u.Ready env)
    (member : (value, tree) ∈ known) :
    ∃ nodes' converted, tree.converted env src dst = some converted ∧
      Code env result s t nodes' [(v, converted)] [] effects := by
  obtain ⟨d, srcBase, dstBase, found, srcIs, dstIs, run⟩ := convert_ok run
  have width := (h.shape_eq fits member found).1
  rw [ready.nativeIntegers] at run
  obtain ⟨integers, run⟩ | ⟨floats, ⟨boolean, zero, w, zeroRun, run⟩ | ⟨number, run⟩⟩ := run
  · obtain ⟨nodes', code⟩ := h.alu run [((value, tree), tree.spread.2)] (by simp [broadcast_eq width])
      (by simp [member])
    refine ⟨nodes', _, ?_, code.newest⟩
    simp [ValueTree.converted, srcIs, dstIs, integers, ValueTree.spread]
  · obtain ⟨nodes', code⟩ := h.aluZero zeroRun run [((value, tree), tree.spread.2), ((zero, .zero), .all 0)]
      (by simp [broadcast_eq width]) (by simp [member])
    refine ⟨nodes', _, ?_, code⟩
    simp [ValueTree.converted, srcIs, dstIs, floats, boolean, ValueTree.spread, ValueTree.first]
  · obtain ⟨nodes', code⟩ := h.alu run [((value, tree), tree.spread.2)] (by simp [broadcast_eq width])
      (by simp [member])
    refine ⟨nodes', _, ?_, code.newest⟩
    simp [ValueTree.converted, srcIs, dstIs, floats, number, ValueTree.spread]

theorem orderOperands_ok {op : ExprOp} {values : List ValueId} (h : orderOperands op (args.map Prod.fst) = .ok values) :
    ∃ ordered : List Known, values = ordered.map Prod.fst ∧ ordered ⊆ args ∧
      ValueTree.exchange op (args.map Prod.snd) = ordered.map Prod.snd := by
  by_cases exchanged : op = .greater ∨ op = .lequal
  · have taken : (op = .greater || op = .lequal) = true := by simpa using exchanged
    simp only [orderOperands, taken, if_true] at h
    match args, h with
    | [], h => simp at h
    | [_], h => simp at h
    | a :: b :: rest, h =>
      simp only [List.map_cons, Except.ok.injEq] at h
      refine ⟨b :: a :: rest, by simp [← h], by simp, ?_⟩
      rcases exchanged with rfl | rfl <;> rfl
  · have plain : (op = .greater || op = .lequal) = false := by simpa using exchanged
    simp only [orderOperands, plain, Bool.false_eq_true, if_false, Except.ok.injEq] at h
    refine ⟨args, h.symm, List.Subset.refl _, ?_⟩
    rw [not_or] at exchanged
    unfold ValueTree.exchange
    split
    · exact absurd rfl exchanged.1
    · exact absurd rfl exchanged.2
    · rfl

theorem compute_code (h : Code env result s u nodes known live effects) {op : ExprOp} {types : List ShaderType}
    (run : Runs (compute op type types (args.map Prod.fst)) u v t) (fits : u.program.Fits) (ready : u.Ready env)
    (inside : args ⊆ known) :
    ∃ nodes' tree, ValueTree.computed env op type types (args.map Prod.snd) = some tree ∧
      Code env result s t nodes' [(v, tree)] [] effects := by
  obtain ⟨output, opcode, values, srcs, isOutput, chosen, inOrder, taken, run⟩ := compute_ok run
  obtain ⟨ordered, rfl, among, trees⟩ := orderOperands_ok inOrder
  rw [ready.nativeIntegers] at chosen run
  have emitted : Runs (emitValue (.alu opcode (ordered.map fun k =>
      ⟨k.1, (if op = .vector then k.2.first else k.2.spread).2⟩)) type.rows
        (valueBits env.nativeIntegers type)) u v t := by
    obtain ⟨vector, rfl⟩ | ⟨scalar, spreads⟩ := taken
    · simpa [vector, ValueTree.first, Function.comp_def] using run
    · simp only [scalar, if_false]
      refine srcs_of_spreads spreads (fun k member d found => ?_) ▸ run
      exact broadcast_eq (h.shape_eq fits (inside (among member)) found).1
  obtain ⟨nodes', code⟩ := h.alu emitted
    (ordered.map fun k => (k, (if op = .vector then k.2.first else k.2.spread).2)) (by simp [Function.comp_def])
    (by
      intro a member
      obtain ⟨k, chosen, rfl⟩ := List.mem_map.mp member
      exact inside (among chosen))
  refine ⟨nodes', _, ?_, code.newest⟩
  simp only [ValueTree.computed, isOutput, Option.bind_eq_bind, Option.bind_some, chosen, Except.toOption,
    trees, Option.pure_def, List.map_map, Option.some.injEq]
  congr 1
  refine List.map_congr_left fun k _ => ?_
  by_cases vector : op = .vector <;> simp [vector, ValueTree.first, ValueTree.spread]

end

/-! ### Values and places -/

section
variable {env : Env} {result : Option Target.VarId}

theorem resolveVariable_ok {c : Scope} {source : Source.Program} {id : Source.VarId} {v : Target.VarId}
    (h : c.resolveVariable source id = .ok v) : c.vars[id.index.toNat]? = some (some v) := by
  simp only [Scope.resolveVariable] at h
  split at h
  · rename_i w found
    obtain rfl := Except.ok.inj h
    exact Option.join_eq_some_iff.mp found
  · cases decl : source.getVariable id <;>
      simp [decl] at h

theorem appendLink_code {u t : State} {nodes : List Node} {known : List Known} {effects : List Skeleton}
    (h : Code env result s u nodes known [c] effects) {chain next : Chain} {before : ShaderType}
    (names : c.Names chain before) {kind : LinkKind} (run : Runs (appendLink chain kind type) u next t)
    (fits : t.program.Fits) {segment : Segment} (narrows : Narrows known kind segment) :
    ∃ d : Live, d.path = c.path ++ [segment] ∧ d.Names next type ∧ Code env result s t nodes known [d] effects := by
  have small := run.fits_before (by simp) fits
  obtain ⟨links, appended, rfl⟩ := appendLink_ok run
  obtain ⟨parent, -, -, rfl, rfl⟩ := append_ok appended
  have inside := (h.threaded c (by simp)).lt_size c.last c.last_mem
  have position : chain.tail.index.toNat = c.last.position := by
    rw [← names.tail]
    exact Spot.id_index (Nat.lt_trans inside small.links)
  rw [position]
  refine ⟨c.extend ⟨u.program.links.size, kind, type⟩ segment, rfl, ⟨names.head, ?_, ?_⟩, h.append narrows type⟩
  · rw [Live.last_extend]
    rfl
  · rw [Live.last_extend]

end

end ShaderSSA.Lowering
