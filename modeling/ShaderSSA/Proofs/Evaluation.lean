import ShaderSSA.Proofs.Operators

/-!
Evaluation emits code without effects, and the value it gives reads back as the tree of the source value.
-/

namespace ShaderSSA.Lowering
open Source Target Lower

variable {env : Env} {result : Option Target.VarId} {args : List Known} {c : Live} {op : ExprOp}

/-- A source of a texture instruction, with its tree. -/
abbrev KnownSource := TexSrcKind × Known

section
variable {s u t : State} {nodes : List Node} {v : ValueId}

theorem interpolation_code (h : Code env result s u nodes args [c] []) {i : IntrinsicOp}
    (named : interpolation? op = some i) {width bitSize : UInt8} {indices : Indices}
    (run : Runs (emitValue (.intrinsic i (srcsOf [c] args) indices) width bitSize) u v t) :
    ∃ nodes', Code env result s t nodes'
      [(v, .intrinsic width bitSize i indices [c.path] (args.map Prod.snd))] [] [] := by
  have computes : i.computes = true ∧ (Operation.intrinsic i (srcsOf [c] args) indices).isPlain = true := by
    rcases interpolation?_eq_some named with ⟨-, rfl⟩ | ⟨-, rfl⟩ | ⟨-, rfl⟩ <;> exact ⟨rfl, rfl⟩
  obtain ⟨nodes', code⟩ := h.computing run
    (operands_intrinsic [c] args (List.Subset.refl _) (List.Subset.refl _)) computes.1 computes.2
  rw [node_intrinsic] at code
  exact ⟨nodes', code.newest⟩

theorem operands_tex {instr : TexInstr} (args : List KnownSource) (texture : instr.texture = c.head)
    (srcs : instr.srcs = args.map fun a => ⟨a.1, a.2.1⟩) {known : List Known} {live : List Live}
    (inside : args.map Prod.snd ⊆ known) (member : c ∈ live) :
    Operands (.tex instr) (args.map Prod.snd) [c] known live :=
  ⟨by simp [Operation.values, srcs, Function.comp_def], by simp [Operation.locations, texture], inside,
    by simp [member]⟩

end

section
variable (source)

mutual

theorem evaluate_code : ∀ (r : Rvalue) {s t : State} {v : ValueId},
    s.Ready env → Runs (evaluate source r) s v t → t.program.Fits →
    ∃ nodes tree, r.tree env = some tree ∧ Code env result s t nodes [(v, tree)] [] []
  | .place p, s, t, v, ready, run, fits => by
    obtain ⟨chain, u, chainRun, loadRun⟩ := evaluate_place run
    have before := loadRun.fits_before (by simp) fits
    obtain ⟨_, c, path, names, code⟩ := placeChain_code p ready chainRun before
    rw [← names.head, ← names.type] at loadRun
    obtain ⟨nodes, loaded⟩ := loadLocation_code code (ready.step chainRun (by simp) code) loadRun fits
    exact ⟨nodes, _, by rw [Rvalue.tree, path, Option.map_some, names.type], loaded⟩
  | .constant l, s, t, v, ready, run, fits => by
    obtain ⟨chain, u, chainRun, loadRun⟩ := evaluate_constant run
    have before := loadRun.fits_before (by simp) fits
    obtain ⟨k, c, literal, path, names, code⟩ := constantChain_code ready chainRun before
    rw [← names.head, ← names.type] at loadRun
    obtain ⟨nodes, loaded⟩ := loadLocation_code code (ready.step chainRun (by simp) code) loadRun fits
    exact ⟨nodes, _, by rw [Rvalue.tree, literal, Option.map_some, path, names.type], loaded⟩
  | .swizzle value lanes width, s, t, v, ready, run, fits => by
    obtain ⟨w, u, valueRun, orderRun⟩ := evaluate_swizzle run
    have before := orderRun.fits_before (by simp) fits
    obtain ⟨_, tree, shown, code⟩ := evaluate_code value ready valueRun before
    obtain ⟨nodes, ordered⟩ := reorder_code code orderRun before (ready.step valueRun (by simp) code)
      List.mem_cons_self
    exact ⟨nodes, _, by rw [Rvalue.tree, shown, Option.map_some], ordered⟩
  | .texture texture, s, t, v, ready, run, fits => by
    simp only [evaluate] at run
    simp only [Rvalue.tree]
    exact evaluateTexture_code texture ready run fits
  | .expression op type operands, s, t, v, ready, run, fits => by
    cases evaluate_expression run with
    | @uboLoad block offset _ _ blockRun offsetRun loadRun =>
      have later := loadRun.fits_before (by simp) fits
      have before := offsetRun.fits_before (by simp) later
      obtain ⟨_, first, firstTree, firstCode⟩ := evaluateOperand_code operands ready blockRun before
      have ready' := ready.step blockRun (by simp) firstCode
      obtain ⟨_, second, secondTree, secondCode⟩ := evaluateOperand_code operands ready' offsetRun later
      have native := (ready'.step offsetRun (by simp) secondCode).nativeIntegers
      obtain ⟨nodes, code⟩ := emitLoad_code (firstCode.trans secondCode) loadRun fits
        [(block, first), (offset, second)] []
        (operands_intrinsic [] [(block, first), (offset, second)] (List.nil_subset _) (by simp)) rfl
        fun _ _ _ _ => rfl
      rw [leaves_eq_nil rfl, native] at code
      exact ⟨nodes, _, by simp [Rvalue.tree, firstTree, secondTree, ValueTree.intrinsic, Operation.blank], code⟩
    | @size block _ blockRun sizeRun =>
      have before := sizeRun.fits_before (by simp) fits
      obtain ⟨_, first, firstTree, firstCode⟩ := evaluateOperand_code operands ready blockRun before
      obtain ⟨nodes, code⟩ := firstCode.computing sizeRun
        (operands_intrinsic [] [(block, first)] (List.Subset.refl _) (List.Subset.refl _)) rfl rfl
      exact ⟨nodes, _, by simp [Rvalue.tree, firstTree, ValueTree.intrinsic, Operation.blank], code.newest⟩
    | centroid chainRun takeRun =>
      have before := takeRun.fits_before (by simp) fits
      obtain ⟨_, c, type, path, names, code⟩ := interpolantChain_code operands ready chainRun before
      rw [← names.head, (ready.step chainRun (by simp) code).nativeIntegers] at takeRun
      have named : interpolation? .interpolateAtCentroid = some _ := rfl
      obtain ⟨nodes, taken⟩ := interpolation_code code named takeRun
      exact ⟨nodes, _, by simp [Rvalue.tree_interpolation named, path], taken⟩
    | sample named other chainRun sampleRun takeRun =>
      have later := takeRun.fits_before (by simp) fits
      have before := sampleRun.fits_before (by simp) later
      obtain ⟨_, c, type, path, names, code⟩ := interpolantChain_code operands ready chainRun before
      have ready' := ready.step chainRun (by simp) code
      obtain ⟨_, tree, shown, sampleCode⟩ := evaluateOperand_code operands ready' sampleRun later
      rw [← names.head, (ready'.step sampleRun (by simp) sampleCode).nativeIntegers] at takeRun
      obtain ⟨nodes, taken⟩ := interpolation_code (code.trans sampleCode) named takeRun
      exact ⟨nodes, _, by simp [Rvalue.tree_interpolation named, path, shown, other], taken⟩
    | convert typed valuesRun convertRun =>
      have before := convertRun.fits_before (by simp) fits
      obtain ⟨_, args, same, trees, code⟩ := evaluateAll_code operands ready valuesRun before
      obtain ⟨k, args, rfl, rfl, rfl⟩ := List.map_eq_cons_iff.mp same.symm
      obtain ⟨nodes, tree, shown, converted⟩ :=
        convert_code code convertRun before (ready.step valuesRun (by simp) code) List.mem_cons_self
      refine ⟨nodes, tree, ?_, converted⟩
      rw [Rvalue.tree_operator (by simp) (by simp) rfl, trees]
      simp [typed, shown]
    | compute load size whole other valuesRun computeRun =>
      have before := computeRun.fits_before (by simp) fits
      obtain ⟨_, args, rfl, trees, code⟩ := evaluateAll_code operands ready valuesRun before
      obtain ⟨nodes, tree, shown, computed⟩ :=
        compute_code code computeRun before (ready.step valuesRun (by simp) code) (List.Subset.refl _)
      exact ⟨nodes, tree, by simp [Rvalue.tree_operator load size whole, trees, other, shown], computed⟩

theorem evaluateAll_code : ∀ (rs : List Rvalue) {s t : State} {vs : List ValueId},
    s.Ready env → Runs (evaluateAll source rs) s vs t → t.program.Fits →
    ∃ nodes, ∃ args : List Known, vs = args.map Prod.fst ∧ treesOf env rs = some (args.map Prod.snd) ∧
      Code env result s t nodes args [] []
  | [], s, t, vs, ready, run, fits => by
    obtain ⟨rfl, rfl⟩ := runs_evaluateAll_nil.mp run
    exact ⟨[], [], rfl, by simp [treesOf], .refl⟩
  | r :: rs, s, t, vs, ready, run, fits => by
    obtain ⟨w, u, ws, firstRun, restRun, rfl⟩ := runs_evaluateAll_cons.mp run
    have before := restRun.fits_before (by simp) fits
    obtain ⟨_, tree, shown, firstCode⟩ := evaluate_code r ready firstRun before
    obtain ⟨_, args, rfl, trees, restCode⟩ :=
      evaluateAll_code rs (ready.step firstRun (by simp) firstCode) restRun fits
    exact ⟨_, (w, tree) :: args, rfl, by simp [treesOf, shown, trees], firstCode.trans restCode⟩

theorem evaluateOperand_code : ∀ (rs : List Rvalue) {op : ExprOp} {number skip : Nat}
    {s t : State} {v : ValueId},
    s.Ready env → Runs (evaluateOperand source op number skip rs) s v t → t.program.Fits →
    ∃ nodes tree, operandTree env skip rs = some tree ∧ Code env result s t nodes [(v, tree)] [] []
  | [], _, _, _, s, t, v, ready, run, fits => by
    simp only [evaluateOperand] at run
    exact (runs_abort run).elim
  | r :: _, _, _, 0, s, t, v, ready, run, fits => by
    simp only [evaluateOperand] at run
    simp only [operandTree]
    exact evaluate_code r ready run fits
  | _ :: rs, _, _, skip + 1, s, t, v, ready, run, fits => by
    simp only [evaluateOperand] at run
    simp only [operandTree]
    exact evaluateOperand_code rs ready run fits

theorem interpolantChain_code : ∀ (rs : List Rvalue) {op : ExprOp} {s t : State}
    {chain : Chain}, s.Ready env → Runs (interpolantChain source op rs) s chain t → t.program.Fits →
    ∃ nodes c type, interpolantPath env rs = some c.path ∧ c.Names chain type ∧
      Code env result s t nodes [] [c] []
  | .place p :: _, _, s, t, chain, ready, run, fits => by
    simp only [interpolantChain] at run
    obtain ⟨nodes, c, path, names, code⟩ := placeChain_code p ready run fits
    exact ⟨nodes, c, p.type, path, names, code⟩
  | [], _, _, _, _, _, run, _ | .expression .. :: _, _, _, _, _, _, run, _
  | .swizzle .. :: _, _, _, _, _, _, run, _ | .texture _ :: _, _, _, _, _, _, run, _
  | .constant _ :: _, _, _, _, _, _, run, _ => by
    simp only [interpolantChain] at run
    exact (runs_abort run).elim

theorem placeChain_code : ∀ (p : Place) {s t : State} {chain : Chain},
    s.Ready env → Runs (placeChain source p) s chain t → t.program.Fits →
    ∃ nodes c, p.path env = some c.path ∧ c.Names chain p.type ∧ Code env result s t nodes [] [c] []
  | .var id type, s, t, chain, ready, run, fits => by
    obtain ⟨var, resolved, rootRun⟩ := placeChain_var run
    have bound := resolveVariable_ok resolved
    rw [ready.bindings] at bound
    obtain ⟨rfl, rfl⟩ := rootChain_ok rootRun
    refine ⟨[], ⟨⟨s.program.links.size, .var var, type⟩, [], [.var var]⟩, ?_, ⟨rfl, rfl, rfl⟩,
      .root (ready.rooted (ready.bound bound)) type⟩
    simp [Place.path, bound]
  | .field record index type, s, t, chain, ready, run, fits => by
    obtain ⟨before, u, recordRun, linkRun⟩ := placeChain_field run
    have small := linkRun.fits_before (by simp) fits
    obtain ⟨nodes, c, path, names, code⟩ := placeChain_code record ready recordRun small
    obtain ⟨d, longer, named, extended⟩ := appendLink_code code names linkRun fits (.field index)
    exact ⟨nodes, d, by rw [Place.path, path, Option.map_some, longer], named, extended⟩
  | .element array index type, s, t, chain, ready, run, fits => by
    obtain ⟨before, u, arrayRun, ⟨l, word, is, read, linkRun⟩ | ⟨computed, v, w, valueRun, linkRun⟩⟩ :=
      placeChain_element run
    · obtain ⟨nodes, c, path, names, code⟩ :=
        placeChain_code array ready arrayRun (linkRun.fits_before (by simp) fits)
      obtain ⟨d, longer, named, extended⟩ := appendLink_code code names linkRun fits (.direct word)
      refine ⟨nodes, d, ?_, named, extended⟩
      subst is
      simp [Place.path, path, read, longer]
    · have later := linkRun.fits_before (by simp) fits
      obtain ⟨_, c, path, names, code⟩ :=
        placeChain_code array ready arrayRun (valueRun.fits_before (by simp) later)
      obtain ⟨_, tree, shown, valueCode⟩ := evaluate_code index (ready.step arrayRun (by simp) code) valueRun later
      obtain ⟨d, longer, named, extended⟩ := appendLink_code (code.trans valueCode) names linkRun fits
        (.indirect (List.mem_append_right _ List.mem_cons_self))
      refine ⟨_, d, ?_, named, extended.weaken (List.nil_subset _) (List.Subset.refl _)⟩
      cases index with
      | constant l => cases computed
      | _ => simp [Place.path, path, shown, longer]

theorem evaluateTexture_code : ∀ (texture : Texture) {s t : State} {v : ValueId},
    s.Ready env → Runs (evaluateTexture source texture) s v t → t.program.Fits →
    ∃ nodes tree, texture.tree env = some tree ∧ Code env result s t nodes [(v, tree)] [] []
  | ⟨op, type, sampler, coordinate, projector, comparator, offset, lod⟩, s, t, v, ready, run, fits => by
    simp only [evaluateTexture, runs_bind, runs_check] at run
    obtain ⟨samplerType, _, ⟨isSampler, rfl⟩, destType, _, ⟨isDest, rfl⟩, chain, s₁, run₁, _, s₂, run₂, _, s₃,
      run₃, _, s₄, run₄, _, _, ⟨-, rfl⟩, _, s₅, run₅, ⟨_, component⟩, s₆, run₆, run⟩ := run
    simp only [runs_unless] at run
    obtain ⟨-, run⟩ := run
    have fits₆ := run.fits_before (by simp) fits
    have fits₅ := run₆.fits_before (by simp) fits₆
    have fits₄ := run₅.fits_before (by simp) fits₅
    have fits₃ := run₄.fits_before (by simp) fits₄
    have fits₂ := run₃.fits_before (by simp) fits₃
    have fits₁ := run₂.fits_before (by simp) fits₂
    obtain ⟨_, c, path, names, code₁⟩ := placeChain_code sampler ready run₁ fits₁
    have ready₁ := ready.step run₁ (by simp) code₁
    obtain ⟨_, args₂, rfl, trees₂, code₂⟩ := textureSource_code coordinate ready₁ run₂ fits₂
    have ready₂ := ready₁.step run₂ (by simp) code₂
    obtain ⟨_, args₃, rfl, trees₃, code₃⟩ := textureSource_code projector ready₂ run₃ fits₃
    have ready₃ := ready₂.step run₃ (by simp) code₃
    obtain ⟨_, args₄, rfl, trees₄, code₄⟩ := textureSource_code comparator ready₃ run₄ fits₄
    have ready₄ := ready₃.step run₄ (by simp) code₄
    obtain ⟨_, args₅, rfl, trees₅, code₅⟩ := textureSource_code offset ready₄ run₅ fits₅
    have ready₅ := ready₄.step run₅ (by simp) code₅
    obtain ⟨_, args₆, rfl, trees₆, code₆⟩ := lodSources_code lod ready₅ run₆ fits₆
    have code := ((((code₁.trans code₂).trans code₃).trans code₄).trans code₅).trans code₆
    obtain ⟨nodes, sampled⟩ := code.computing run
      (operands_tex (args₂ ++ args₃ ++ args₄ ++ args₅ ++ args₆) names.head.symm (by simp) (by simp)
        (by simp)) rfl rfl
    refine ⟨nodes, _, ?_, sampled.newest⟩
    simp [Texture.tree, isSampler, isDest, path, trees₂, trees₃, trees₄, trees₅, trees₆, Except.toOption,
      Operation.blank, Function.comp_def]

theorem textureSource_code : ∀ (r : Option Rvalue) {kind : TexSrcKind} {s t : State}
    {srcs : List TexSrc}, s.Ready env → Runs (textureSource source kind r) s srcs t → t.program.Fits →
    ∃ nodes, ∃ args : List KnownSource, srcs = args.map (fun a => ⟨a.1, a.2.1⟩) ∧
      sourceTrees env kind r = some (args.map fun a => (a.1, a.2.2)) ∧
      Code env result s t nodes (args.map Prod.snd) [] []
  | none, kind, s, t, srcs, ready, run, fits => by
    simp only [textureSource, runs_pure] at run
    obtain ⟨rfl, rfl⟩ := run
    exact ⟨[], [], rfl, by simp [sourceTrees], .refl⟩
  | some r, kind, s, t, srcs, ready, run, fits => by
    simp only [textureSource, runs_bind, runs_pure] at run
    obtain ⟨v, _, valueRun, rfl, rfl⟩ := run
    obtain ⟨nodes, tree, shown, code⟩ := evaluate_code r ready valueRun fits
    exact ⟨nodes, [(kind, v, tree)], rfl, by simp [sourceTrees, shown], code⟩

theorem lodSources_code : ∀ (lod : LodInfo) {op : TextureOp} {s t : State}
    {srcs : List TexSrc} {component : UInt8}, s.Ready env →
    Runs (lodSources source op lod) s (srcs, component) t → t.program.Fits →
    ∃ nodes, ∃ args : List KnownSource, srcs = args.map (fun a => ⟨a.1, a.2.1⟩) ∧
      lod.trees env = some (args.map (fun a => (a.1, a.2.2)), component) ∧
      Code env result s t nodes (args.map Prod.snd) [] []
  | .absent, op, s, t, srcs, component, ready, run, fits => by
    simp only [lodSources, runs_unless, runs_pure, Prod.mk.injEq] at run
    obtain ⟨-, ⟨rfl, rfl⟩, rfl⟩ := run
    exact ⟨[], [], rfl, by simp [LodInfo.trees], .refl⟩
  | .bias r, op, s, t, srcs, component, ready, run, fits
  | .lod r, op, s, t, srcs, component, ready, run, fits
  | .sampleIndex r, op, s, t, srcs, component, ready, run, fits => by
    simp only [lodSources, runs_unless, runs_bind, runs_pure, Prod.mk.injEq] at run
    obtain ⟨-, v, _, valueRun, ⟨rfl, rfl⟩, rfl⟩ := run
    obtain ⟨nodes, tree, shown, code⟩ := evaluate_code r ready valueRun fits
    exact ⟨nodes, [(_, v, tree)], rfl, by simp [LodInfo.trees, shown], code⟩
  | .grad dpdx dpdy, op, s, t, srcs, component, ready, run, fits => by
    simp only [lodSources, runs_unless, runs_bind, runs_pure, Prod.mk.injEq] at run
    obtain ⟨-, x, u, xRun, y, _, yRun, ⟨rfl, rfl⟩, rfl⟩ := run
    obtain ⟨_, xTree, xShown, xCode⟩ := evaluate_code dpdx ready xRun (yRun.fits_before (by simp) fits)
    obtain ⟨_, yTree, yShown, yCode⟩ :=
      evaluate_code dpdy (ready.step xRun (by simp) xCode) yRun fits
    exact ⟨_, [(.ddx, x, xTree), (.ddy, y, yTree)], rfl, by simp [LodInfo.trees, xShown, yShown],
      xCode.trans yCode⟩
  | .component r, op, s, t, srcs, component, ready, run, fits => by
    simp only [lodSources, runs_unless, runs_bind, runs_check, runs_pure, Prod.mk.injEq] at run
    obtain ⟨-, c, _, ⟨gathered, rfl⟩, ⟨rfl, rfl⟩, rfl⟩ := run
    exact ⟨[], [], rfl, by simp [LodInfo.trees, gathered, Except.toOption], .refl⟩

end

end

/-! ### Reading back -/

/-- The value that evaluation gives reads back as the tree of the source value, which only depends on what
variables are bound to, on their storage classes and on native integers. It does so in every later program
that leaves alone what evaluation added, and evaluation leaves alone what was there before it. -/
theorem evaluate_reads_back {source : Source.Program} {r : Rvalue} {s t : State} {v : ValueId}
    (bound : s.Bound) (run : Runs (evaluate source r) s v t) (fits : t.program.Fits) :
    s.program.Extends t.program ∧ ∃ tree, r.tree s.env = some tree ∧
      ∀ {q : Target.Program}, Target.Program.Keeps (s.program.links.size ≤ ·) t.program q → q.Fits →
        ∀ {fuel}, t.program.values.size ≤ fuel → q.unfold s.program.vars.size fuel v = some tree := by
  obtain ⟨nodes, tree, shown, code⟩ := @evaluate_code s.env none source r s t v bound.ready run fits
  refine ⟨code.keeps, tree, shown, ?_⟩
  intro q kept fits fuel enough
  have facts := code.facts (kept.mono fun i settled => settled.1) fits
  have unfolded := facts.shown (v, tree) List.mem_cons_self fuel enough
  rwa [State.env, Array.size_map] at unfolded

/-! ### A program to run -/

namespace Sample

def weight : Rvalue :=
  .place (.element (.var ⟨1⟩ (.array (.scalar .float) 4)) (.place (.var ⟨0⟩ (.scalar .int))) (.scalar .float))

def sum : Place := .var ⟨2⟩ (.scalar .float)

def difference : Rvalue := .expression .sub (.scalar .float) [.place sum, weight]

/-- A function that returns an element, and one that subtracts elements in a loop. -/
def program : Source.Program where
  name := "sample"
  layout := .fragment false .none false
  vars := #[
    { name := "index", type := .scalar .int, mode := .uniform },
    { name := "weights", type := .array (.scalar .float) 4, mode := .uniform },
    { name := "sum", type := .scalar .float, mode := .auto }]
  signatures := #[
    { name := "pick", returnType := .scalar .float, parameters := [], isDefined := true,
      body := [.ret (some weight)] },
    { name := "main", returnType := .void, parameters := [], isDefined := true,
      body := [
        .declare ⟨2⟩,
        .call { callee := ⟨0⟩, parameters := [], result := some sum },
        .loop [
          .branch (.expression .less (.scalar .bool) [.place sum, .constant (.float 0)]) [.jump .breakLoop] [],
          .assign sum difference 0 none],
        .ret none] }]
  statements := [.declare ⟨0⟩, .declare ⟨1⟩, .function "pick" [⟨0⟩], .function "main" [⟨1⟩]]

def declareAll : Lower Unit := do
  let _ ← declare program ⟨0⟩
  let _ ← declare program ⟨1⟩
  let _ ← declare program ⟨2⟩

theorem declareAll_bound {s : State} (run : Runs declareAll (.initial program {}) () s) : s.Bound := by
  have path : Stepwise .statement declareAll := by
    unfold declareAll
    repeat' first | with_reducible apply stepwise_bind | intro _ | simp
  exact (path.path run).bound (initial_bound program {})

theorem difference_runs : ∃ s v t, Runs declareAll (.initial program {}) () s ∧
    Runs (evaluate program difference) s v t ∧ t.program.Fits := by
  have checked : (match outcome declareAll (.initial program {}) with
      | (.ok _, s) => match outcome (evaluate program difference) s with
        | (.ok _, t) => decide t.program.Fits
        | (.error _, _) => false
      | (.error _, _) => false) = true := by
    decide +kernel
  rcases declared : outcome declareAll (.initial program {}) with ⟨_ | a, s⟩
  · simp [declared] at checked
  rcases evaluated : outcome (evaluate program difference) s with ⟨_ | v, t⟩
  · simp [declared, evaluated] at checked
  · exact ⟨s, v, t, declared, evaluated, by simpa [declared, evaluated] using checked⟩

end Sample

theorem evaluate_reads_back_difference :
    ∃ s v t, Runs Sample.declareAll (.initial Sample.program {}) () s ∧ s.Bound ∧
      Runs (evaluate Sample.program Sample.difference) s v t ∧ t.program.Fits ∧
      ∃ tree, Sample.difference.tree s.env = some tree ∧
        t.program.unfold s.program.vars.size t.program.values.size v = some tree := by
  obtain ⟨s, v, t, declared, run, fits⟩ := Sample.difference_runs
  have bound := Sample.declareAll_bound declared
  obtain ⟨-, tree, shown, reads⟩ := evaluate_reads_back bound run fits
  exact ⟨s, v, t, declared, bound, run, fits, tree, shown, reads .refl fits (Nat.le_refl _)⟩

end ShaderSSA.Lowering
