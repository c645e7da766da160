import Mathlib.Data.List.Forall2
import ShaderSSA.Proofs.Evaluation

/-!
Calls leave one effect, the call itself or the operation of the built-in function, and a store of the
result where the call names a place for it.
-/

namespace ShaderSSA.Lowering
open Source Target Lower

variable {env : Env} {result : Option Target.VarId} {source : Source.Program} {s u t : State} {nodes : List Node}
  {known : List Known} {live chains : List Live} {effects : List Skeleton} {a : Unit} {c : Live} {id : IntrinsicId}
  {indices : Indices} {k : Known} {mask bitSize : UInt8} {op : IntrinsicOp} {r : Rvalue} {srcs : List Src}
  {type : Option ShaderType} {value : Option ValueId} {params : List Rvalue} {v : ValueId}

/-! ### Locations -/

theorem locationChain_draws (ready : s.Ready env) {chain : Chain} (run : Runs (locationChain source r) s chain t)
    (fits : t.program.Fits) :
    ∃ nodes c, c.head = chain.head ∧ r.location? env = some c.path ∧ Code env result s t nodes [] [c] [] := by
  unfold locationChain at run
  split at run
  · obtain ⟨nodes, c, path, names, code⟩ := placeChain_code source _ ready run fits
    exact ⟨nodes, c, names.head, path, code⟩
  · obtain ⟨k, c, literal, path, names, code⟩ := constantChain_code ready run fits
    exact ⟨[], c, names.head, by rw [Rvalue.location?, literal, path, Option.map_some], code⟩
  · exact (runs_abort run).elim

theorem locationChain_code (ready : s.Ready env) {chain : Chain} (run : Runs (locationChain source r) s chain t)
    (fits : t.program.Fits) : ∃ nodes c, c.head = chain.head ∧ Code env result s t nodes [] [c] [] := by
  obtain ⟨nodes, c, head, -, code⟩ := locationChain_draws ready run fits
  exact ⟨nodes, c, head, code⟩

theorem locations_draws (ready : s.Ready env) {rs : List Rvalue} {heads : List LinkId}
    (run : Runs (locations source rs) s heads t) (fits : t.program.Fits) :
    ∃ nodes, ∃ chains : List Live, heads = chains.map Live.head ∧
      List.Forall₂ (fun (r : Rvalue) (c : Live) => r.location? env = some c.path) rs chains ∧
      Code env result s t nodes [] chains [] := by
  induction rs generalizing s heads with
  | nil =>
    simp only [locations, runs_pure] at run
    obtain ⟨rfl, rfl⟩ := run
    exact ⟨[], [], rfl, .nil, .refl⟩
  | cons r rs ih =>
    simp only [locations, runs_bind, runs_pure] at run
    obtain ⟨chain, w, first, rest, _, others, rfl, rfl⟩ := run
    obtain ⟨_, c, head, path, code⟩ := locationChain_draws ready first (others.fits_before (by simp) fits)
    obtain ⟨_, chains, rfl, paths, code'⟩ := ih (ready.step first (by simp) code) others
    exact ⟨_, c :: chains, by simp [head], .cons path paths, code.trans code'⟩

/-! ### Stores and copies -/

/-- The chain is the variable that the function returns its value in. -/
def returned (result : Option Target.VarId) (c : Live) : Bool := result.any fun v => c.kinds = [.var v]

theorem operands_store (place : c ∈ live) (value : k ∈ known) (indices : Indices) :
    Operands (.intrinsic .storeDeref [.location c.head, .ssa k.1] indices) [k] [c] known live :=
  operands_intrinsic [c] [k] (by simp [place]) (by simp [value])

theorem leaves_store :
    leaves result (.intrinsic .storeDeref srcs indices) (c :: chains) =
      [.effect (.store (returned result c))] := by
  simp [leaves, Operation.effect?, returned]

theorem operands_copy {d : Live} (dst : c ∈ live) (src : d ∈ live) (indices : Indices) :
    Operands (.intrinsic .copyDeref [.location c.head, .location d.head] indices) [] [c, d] known live :=
  operands_intrinsic [c, d] [] (by simp [dst, src]) (List.nil_subset _)

theorem leaves_copy :
    leaves result (.intrinsic .copyDeref srcs indices) (c :: chains) =
      [.effect (.copy (returned result c))] := by
  simp [leaves, Operation.effect?, returned]

theorem storeLocation_emits {head : LinkId} {value : ValueId} (run : Runs (storeLocation head value mask) s a t) :
    ∃ d, s.program.value? value = some d ∧ t = s.withEffect
      (.intrinsic .storeDeref [.location head, .ssa value] { width := d.width, writeMask := some mask }) := by
  simp only [storeLocation, runs_bind, runs_valueDef] at run
  obtain ⟨d, _, ⟨found, rfl⟩, run⟩ := run
  exact ⟨d, found, emitEffect_ok run⟩

theorem storeLocation_ok {head : LinkId} {value : ValueId} (run : Runs (storeLocation head value mask) s a t) :
    ∃ indices, t = s.withEffect (.intrinsic .storeDeref [.location head, .ssa value] indices) := by
  obtain ⟨d, -, rfl⟩ := storeLocation_emits run
  exact ⟨_, rfl⟩

/-- Nothing in scope is the variable that the function returns its value in. -/
structure Env.Apart (env : Env) (result : Option Target.VarId) : Prop where
  unbound : ∀ {i : Nat} {v}, env.bindings[i]? = some (some v) → result ≠ some v
  listed : ∀ {v}, result = some v → v.index.toNat < env.storage.size

theorem path_root : ∀ (p : Place) {path : List Segment}, p.path env = some path →
    ∃ (v : Target.VarId) (rest : List Segment), path = .var v :: rest ∧
      env.bindings[p.root.index.toNat]? = some (some v)
  | .var id type, path, h => by
    simp only [Place.path, Option.map_eq_some_iff, Option.join_eq_some_iff] at h
    obtain ⟨v, bound, rfl⟩ := h
    exact ⟨v, [], rfl, bound⟩
  | .field record index type, path, h => by
    simp only [Place.path, Option.map_eq_some_iff] at h
    obtain ⟨before, read, rfl⟩ := h
    obtain ⟨v, rest, rfl, bound⟩ := path_root record read
    exact ⟨v, rest ++ [.field index], rfl, bound⟩
  | .element array index type, path, h => by
    have root := @path_root array
    cases index <;>
    · simp only [Place.path, Option.bind_eq_bind, Option.bind_eq_some_iff, Option.pure_def,
        Option.some.injEq] at h
      obtain ⟨before, read, _, -, rfl⟩ := h
      obtain ⟨v, rest, rfl, bound⟩ := root read
      exact ⟨v, _, rfl, bound⟩

theorem Code.returned_eq_false (h : Code env result s u nodes known live effects) (fits : u.program.Fits)
    (apart : env.Apart result) (member : c ∈ live) {p : Place} (path : p.path env = some c.path) :
    returned result c = false := by
  obtain ⟨v, rest, start, bound⟩ := path_root p path
  have drawn := (h.facts .refl fits).drawn c member _ (Nat.le_refl _)
  cases is : returned result c with
  | false => rfl
  | true =>
    simp only [returned, Option.any_eq_true, decide_eq_true_eq] at is
    obtain ⟨w, isResult, kinds⟩ := is
    -- the return variable is no minted one, so it would read back as itself
    rw [kinds, start] at drawn
    simp only [List.mapM_cons, List.mapM_nil, Program.segment, apart.listed isResult, if_true,
      Option.bind_eq_bind, Option.bind_some, Option.pure_def, Option.some.injEq, List.cons.injEq,
      Segment.var.injEq] at drawn
    exact absurd (by rw [isResult, drawn.1]) (apart.unbound bound)

theorem storeLocation_code (h : Code env result s u nodes known live effects) (place : c ∈ live) (value : k ∈ known)
    (run : Runs (storeLocation c.head k.1 mask) u a t) :
    ∃ nodes', Code env result s t nodes' [] [] (effects ++ [.effect (.store (returned result c))]) := by
  obtain ⟨indices, rfl⟩ := storeLocation_ok run
  have code := h.effect (operands_store place value indices) rfl
  rw [leaves_store] at code
  exact ⟨_, code.weaken (List.nil_subset _) (List.Subset.refl _)⟩

theorem copyLocation_code (h : Code env result s u nodes known live effects) {d : Live} (dst : c ∈ live)
    (src : d ∈ live) (run : Runs (copyLocation c.head d.head) u a t) :
    ∃ nodes', Code env result s t nodes' [] [] (effects ++ [.effect (.copy (returned result c))]) := by
  obtain rfl := emitEffect_ok run
  have code := h.effect (operands_copy dst src {}) rfl
  rw [leaves_copy] at code
  exact ⟨_, code.weaken (List.nil_subset _) (List.Subset.refl _)⟩

/-! ### Calls of functions -/

def State.callees (s : State) (id : SignatureId) : Option FuncId := s.scope.functions[id.index.toNat]?.join

@[simp]
theorem State.callees_region (s : State) (region : Region) : State.callees { s with region } = s.callees := rfl

theorem Code.call {params : List Live} (target : Option Live)
    (h : Code env result s u nodes known (params ++ target.toList) effects) {callee : FuncId} {a : Unit}
    (run : Runs (emitEffect (.call callee (params.map Live.head) (target.map Live.head))) u a t) :
    ∃ nodes', Code env result s t nodes' [] []
      (effects ++ [.effect (.call callee params.length target.isSome)]) := by
  obtain rfl := emitEffect_ok run
  have ops : Operands (.call callee (params.map Live.head) (target.map Live.head)) [] (params ++ target.toList)
      known (params ++ target.toList) :=
    ⟨rfl, by cases target <;> simp [Operation.locations], List.nil_subset _, List.Subset.refl _⟩
  have called := (h.effect ops rfl).weaken (List.nil_subset _) (List.Subset.refl _)
  simp only [leaves, Operation.effect?, List.length_map, Option.isSome_map] at called
  exact ⟨_, called⟩

theorem callFunction_draws (ready : s.Ready env) {call : Call} (run : Runs (callFunction source call) s () t)
    (fits : t.program.Fits) :
    ∃ u nodes callee, ∃ (params : List Live) (target : Option Live), s.callees call.callee = some callee ∧
      List.Forall₂ (fun (r : Rvalue) (c : Live) => r.location? env = some c.path) call.parameters params ∧
      Option.Rel (fun (p : Place) (c : Live) => p.path env = some c.path) call.result target ∧
      Code env result s u nodes [] (params ++ target.toList) [] ∧
      Runs (emitEffect (.call callee (params.map Live.head) (target.map Live.head))) u () t := by
  simp only [callFunction, runs_bind, runs_scope, runs_check] at run
  obtain ⟨_, _, ⟨rfl, rfl⟩, callee, w, ⟨resolved, rfl⟩, heads, v, paramsRun, run⟩ := run
  have found : w.callees call.callee = some callee := Option.join_eq_some_iff.mpr (resolveFunction_ok resolved)
  cases target : call.result with
  | none =>
    simp only [target, runs_bind, runs_pure] at run
    obtain ⟨_, _, ⟨rfl, rfl⟩, run⟩ := run
    obtain ⟨nodes, chains, rfl, paths, code⟩ := locations_draws ready paramsRun (run.fits_before (by simp) fits)
    exact ⟨_, nodes, callee, chains, none, found, paths, .none, by simpa using code, run⟩
  | some place =>
    simp only [target, runs_bind, runs_pure] at run
    obtain ⟨chain, x, chainRun, _, _, ⟨rfl, rfl⟩, run⟩ := run
    have later := run.fits_before (by simp) fits
    obtain ⟨_, chains, rfl, paths, code⟩ :=
      locations_draws ready paramsRun (chainRun.fits_before (by simp) later)
    obtain ⟨_, c, path, names, placeCode⟩ :=
      placeChain_code source place (ready.step paramsRun (by simp) code) chainRun later
    rw [← names.head] at run
    exact ⟨_, _, callee, chains, some c, found, paths, .some path, code.trans placeCode, run⟩

theorem callFunction_code (ready : s.Ready env) {call : Call} (run : Runs (callFunction source call) s () t)
    (fits : t.program.Fits) :
    ∃ nodes callee, s.callees call.callee = some callee ∧
      Code env result s t nodes [] []
        [.effect (.call callee call.parameters.length call.result.isSome)] := by
  obtain ⟨u, _, callee, params, target, found, paths, path, code, run⟩ := callFunction_draws ready run fits
  obtain ⟨nodes, called⟩ := Code.call target code run
  have same : call.result.isSome = target.isSome := by
    generalize call.result = place at path
    cases path <;> rfl
  exact ⟨nodes, callee, found, by rw [paths.length_eq, same]; exact called⟩

/-! ### Built-in functions -/

/-- The operation has an effect of its own and is neither a copy nor a store. -/
def Acts (op : IntrinsicOp) : Prop := ¬ op.computes ∧ op ≠ .copyDeref ∧ op ≠ .storeDeref

instance (op : IntrinsicOp) : Decidable (Acts op) := inferInstanceAs (Decidable (_ ∧ _ ∧ _))

theorem Acts.leaves_eq (acts : Acts op) :
    leaves result (.intrinsic op srcs indices) chains = [.effect (.intrinsic op indices.stream)] := by
  obtain ⟨computes, copy, store⟩ := acts
  cases op <;> simp_all [leaves, Operation.effect?]

theorem Acts.isPlain (acts : Acts op) : (Operation.intrinsic op srcs indices).isPlain = true := by
  obtain ⟨computes, -, -⟩ := acts
  cases op <;> first | rfl | exact absurd rfl computes

theorem ruleOf_acts (id : IntrinsicId) : ∀ op ∈ (ruleOf id).op.ops, Acts op := by
  cases id <;> decide

/-- What a call of a built-in function leaves known: its value, if it has one. -/
def Gives (known : List Known) (value : Option ValueId) : Prop :=
  ∀ v, value = some v → ∃ tree, (v, tree) ∈ known

theorem Gives.of_mem {tree : ValueTree} (member : (v, tree) ∈ known) : Gives known (some v) := by
  rintro _ ⟨⟩
  exact ⟨tree, member⟩

theorem emitResult_code (h : Code env result s u nodes known live effects) {width : UInt8}
    (run : Runs (emitResult op srcs indices width bitSize) u value t) (acts : Acts op) {args : List Known}
    (ops : Operands (.intrinsic op srcs indices) args chains known live) : ∃ nodes' known', Gives known' value ∧
      Code env result s t nodes' known' [] (effects ++ [.effect (.intrinsic op indices.stream)]) := by
  simp only [emitResult, runs_bind, runs_pure] at run
  obtain ⟨v, _, run, rfl, rfl⟩ := run
  obtain ⟨rfl, rfl, -⟩ := emitValue_ok run
  have code := h.value ops width bitSize (isConst_of_isPlain acts.isPlain)
    fun _ _ => loadsRaw_of_isPlain acts.isPlain
  rw [acts.leaves_eq] at code
  exact ⟨_, _, .of_mem List.mem_cons_self, code⟩

theorem emitNoResult_code (h : Code env result s u nodes known live effects)
    (run : Runs (emitNoResult op srcs indices) u value t) (acts : Acts op) {args : List Known}
    (ops : Operands (.intrinsic op srcs indices) args chains known live) :
    ∃ nodes' known', Gives known' value ∧
      Code env result s t nodes' known' [] (effects ++ [.effect (.intrinsic op indices.stream)]) := by
  simp only [emitNoResult, runs_bind, runs_pure] at run
  obtain ⟨_, _, run, rfl, rfl⟩ := run
  obtain rfl := emitEffect_ok run
  have code := h.effect ops acts.isPlain
  rw [acts.leaves_eq] at code
  exact ⟨_, _, by simp [Gives], code⟩

theorem valueSources_code (ready : s.Ready env) {rs : List Rvalue} (run : Runs (valueSources source rs) s srcs t)
    (fits : t.program.Fits) :
    ∃ nodes, ∃ args : List Known, srcs = srcsOf [] args ∧ Code env result s t nodes args [] [] := by
  obtain ⟨vs, evaluated, rfl⟩ := valueSources_ok run
  obtain ⟨nodes, args, rfl, -, code⟩ := evaluateAll_code source rs ready evaluated fits
  exact ⟨nodes, args, by simp [srcsOf], code⟩

theorem emitUndef_code (run : Runs emitUndef u v t) : ∃ nodes tree, Code env result u t nodes [(v, tree)] [] [] := by
  obtain ⟨nodes, code⟩ :=
    Code.refl.computing run ⟨rfl, rfl, List.Subset.refl _, List.Subset.refl _⟩ rfl rfl
  exact ⟨nodes, _, code⟩

theorem coordinateLanes_code (h : Code env result s u nodes known live effects) {padding : Known} (member : k ∈ known)
    (pads : padding ∈ known) {used : UInt8}
    (run : Runs (emitValue (.alu .vec4 (coordinateLanes k.1 used padding.1)) 4 bitSize) u v t) :
    ∃ nodes' tree, Code env result s t nodes' ((v, tree) :: known) [] effects := by
  obtain ⟨nodes', code⟩ := h.alu run
    ([0, 1, 2, 3].map fun i => if i < used then (k, .all i) else (padding, .all 0))
    (by
      rw [coordinateLanes, List.map_map]
      refine List.map_congr_left fun i _ => ?_
      simp only [Function.comp_apply]
      split <;> rfl)
    (by
      intro a chosen
      obtain ⟨i, -, rfl⟩ := List.mem_map.mp chosen
      split
      · exact member
      · exact pads)
  exact ⟨nodes', _, code⟩

theorem imageCoordinate_code (h : Code env result s u nodes known [] []) (member : k ∈ known) {used : UInt8}
    {wide : ValueId} {padding : Option ValueId} (run : Runs (imageCoordinate k.1 used) u (wide, padding) t) :
    ∃ nodes' known' tree, (wide, tree) ∈ known' ∧ Gives known' padding ∧
      Code env result s t nodes' known' [] [] := by
  simp only [imageCoordinate, runs_bind, runs_valueDef, runs_unless] at run
  obtain ⟨shape, _, ⟨found, rfl⟩, -, run⟩ := run
  split at run
  · simp only [runs_bind, runs_pure, Prod.mk.injEq] at run
    obtain ⟨v, w, undefRun, x, _, wideRun, ⟨rfl, rfl⟩, rfl⟩ := run
    obtain ⟨_, tree, undefCode⟩ := emitUndef_code undefRun
    have pads : (v, tree) ∈ known ++ [(v, tree)] := by simp
    obtain ⟨nodes', _, code⟩ :=
      coordinateLanes_code (h.trans undefCode) (List.mem_append_left _ member) pads wideRun
    exact ⟨nodes', _, _, List.mem_cons_self, .of_mem (List.mem_cons_of_mem _ pads), code⟩
  · simp only [runs_bind, runs_pure, Prod.mk.injEq] at run
    obtain ⟨x, _, wideRun, ⟨rfl, rfl⟩, rfl⟩ := run
    obtain ⟨nodes', _, code⟩ := coordinateLanes_code h member member wideRun
    exact ⟨nodes', _, _, List.mem_cons_self, by simp [Gives], code⟩

theorem imageOperation_code (h : Code env result s u nodes known [c] []) (ready : u.Ready env) (acts : Acts op)
    {coordinate sample : Known} (first : coordinate ∈ known) (second : sample ∈ known) {data : List Rvalue}
    (run : Runs (do
      let data ← valueSources source data
      match type with
      | some type =>
        emitResult op (.location c.head :: .ssa coordinate.1 :: .ssa sample.1 :: data) {} type.rows 32
      | none => emitNoResult op (.location c.head :: .ssa coordinate.1 :: .ssa sample.1 :: data) {}) u value t)
    (fits : t.program.Fits) :
    ∃ nodes' known', Gives known' value ∧
      Code env result s t nodes' known' [] [.effect (.intrinsic op none)] := by
  obtain ⟨srcs, w, dataRun, run⟩ := runs_bind.mp run
  have before : w.program.Fits := run.fits_before (by split <;> simp) fits
  obtain ⟨_, args, rfl, code⟩ := valueSources_code ready dataRun before
  have both := h.trans code
  have inside : coordinate :: sample :: args ⊆ known ++ args := by simp [first, second]
  split at run
  · exact emitResult_code both run acts
      (operands_intrinsic [c] (coordinate :: sample :: args) (by simp) inside)
  · exact emitNoResult_code both run acts
      (operands_intrinsic [c] (coordinate :: sample :: args) (by simp) inside)

theorem imageAccess_code (ready : s.Ready env) (acts : Acts op) {image : ImageType}
    (run : Runs (imageAccess source id op image type params) s value t) (fits : t.program.Fits) :
    ∃ nodes known, Gives known value ∧
      Code env result s t nodes known [] [.effect (.intrinsic op none)] := by
  unfold imageAccess at run
  split at run
  · rename_i target coordinate rest
    simp only [runs_bind] at run
    obtain ⟨chain, s₁, chainRun, k, s₂, coordinateRun, ⟨wide, padding⟩, s₃, wideRun, run⟩ := run
    dsimp only at run
    have fits₃ : s₃.program.Fits := run.fits_before
      (by repeat' first | with_reducible apply stepwise_bind | intro _ | split | simp [emitUndef]) fits
    have fits₂ := wideRun.fits_before (by simp) fits₃
    obtain ⟨_, c, head, chainCode⟩ :=
      locationChain_code ready chainRun (coordinateRun.fits_before (by simp) fits₂)
    have ready₁ := ready.step chainRun (by simp) chainCode
    obtain ⟨_, tree, -, coordinateCode⟩ := evaluate_code source coordinate ready₁ coordinateRun fits₂
    obtain ⟨_, known, wideTree, isWide, pads, wideCode⟩ :=
      imageCoordinate_code coordinateCode List.mem_cons_self wideRun
    have code : Code env result s s₃ _ _ _ _ := chainCode.trans wideCode
    have ready₃ := ready₁.along
      (((evaluates_evaluate source coordinate).stepwise.path coordinateRun).trans
        ((composes_imageCoordinate k image.coordinateComponents).stepwise.path wideRun)) wideCode.keeps
    rw [← head] at run
    split at run
    · obtain ⟨v, w, sampleRun, run⟩ := runs_bind.mp run
      obtain ⟨_, _, paired, run⟩ := runs_bind.mp run
      obtain ⟨rfl, rfl⟩ := runs_pure.mp paired
      have fits₄ := run.fits_before
        (by repeat' first | with_reducible apply stepwise_bind | intro _ | split | simp) fits
      obtain ⟨_, sample, -, sampleCode⟩ := evaluate_code source _ ready₃ sampleRun fits₄
      exact imageOperation_code (code.trans sampleCode) (ready₃.step sampleRun (by simp) sampleCode) acts
        (List.mem_append_left _ isWide) (List.mem_append_right _ List.mem_cons_self) run fits
    · split at run
      · obtain ⟨v, _, padded, run⟩ := runs_bind.mp run
        obtain ⟨rfl, rfl⟩ := runs_pure.mp padded
        obtain ⟨sample, isSample⟩ := pads v rfl
        exact imageOperation_code code ready₃ acts isWide isSample run fits
      · obtain ⟨v, w, undefRun, run⟩ := runs_bind.mp run
        obtain ⟨_, sample, undefCode⟩ := emitUndef_code undefRun
        have ready₄ := ready₃.step undefRun (by simp [emitUndef]) undefCode
        exact imageOperation_code (code.trans undefCode) ready₄ acts
          (List.mem_append_left _ isWide) (List.mem_append_right _ List.mem_cons_self) run fits
  · exact (runs_abort run).elim

theorem memoryStore_code (ready : s.Ready env) (acts : Acts op) {base : Option Int32} {address : List Rvalue}
    {stored mask : Rvalue} (run : Runs (memoryStore source id op base address stored mask) s value t)
    (fits : t.program.Fits) :
    ∃ nodes known, Gives known value ∧
      Code env result s t nodes known [] [.effect (.intrinsic op none)] := by
  simp only [memoryStore, runs_bind, runs_check, runs_valueDef] at run
  obtain ⟨_, w, addressRun, v, u, valueRun, _, _, ⟨-, rfl⟩, d, _, ⟨-, rfl⟩, run⟩ := run
  have later := run.fits_before (by simp) fits
  obtain ⟨_, args, rfl, code⟩ := valueSources_code ready addressRun (valueRun.fits_before (by simp) later)
  have ready' := ready.step addressRun (by simp) code
  obtain ⟨_, tree, -, valueCode⟩ := evaluate_code source stored ready' valueRun later
  exact emitNoResult_code (code.trans valueCode) run acts
    (operands_intrinsic [] ((v, tree) :: args) (List.nil_subset _) (by simp))

theorem valueOperation_code (ready : s.Ready env) {op : IntrinsicOp} (acts : Acts op)
    {srcs : List Src} (first : Runs (valueSources source params) s srcs u) {indices : Indices}
    {width : UInt8} {value : Option ValueId}
    (run : Runs (emitResult op srcs indices width bitSize) u value t) (fits : t.program.Fits) :
    ∃ nodes known, Gives known value ∧
      Code env result s t nodes known [] [.effect (.intrinsic op indices.stream)] := by
  obtain ⟨_, args, rfl, code⟩ := valueSources_code ready first (run.fits_before (by simp) fits)
  exact emitResult_code code run acts (operands_intrinsic [] args (List.Subset.refl _) (List.Subset.refl _))

theorem readOperation_code (ready : s.Ready env) (acts : Acts op) {rest : List Rvalue}
    (run : Runs (do
      let value ← evaluate source r
      let rest ← valueSources source rest
      let shape ← valueDef value
      emitResult op (.ssa value :: rest) { width := shape.width } shape.width shape.bitSize) s value t)
    (fits : t.program.Fits) :
    ∃ nodes known, Gives known value ∧
      Code env result s t nodes known [] [.effect (.intrinsic op none)] := by
  simp only [runs_bind, runs_valueDef] at run
  obtain ⟨v, u, valueRun, _, w, restRun, shape, _, ⟨-, rfl⟩, run⟩ := run
  have later := run.fits_before (by simp) fits
  obtain ⟨_, tree, -, code⟩ := evaluate_code source r ready valueRun (restRun.fits_before (by simp) later)
  obtain ⟨_, args, sources, restCode⟩ := valueSources_code (ready.step valueRun (by simp) code) restRun later
  have both : Code env result s _ _ _ _ _ := code.trans restCode
  subst sources
  exact emitResult_code both run acts
    (operands_intrinsic [] ((v, tree) :: args) (List.nil_subset _) (by simp))

/-- A built-in function leaves its one operation, whatever its recipe. -/
theorem applyRecipe_code (ready : s.Ready env) (acts : Acts op) {recipe : Recipe}
    (run : Runs (applyRecipe source id op recipe type params) s value t) (fits : t.program.Fits) :
    ∃ nodes known, Gives known value ∧
      Code env result s t nodes known [] [.effect (.intrinsic op none)] := by
  unfold applyRecipe at run
  split at run
  case h_7 | h_10 => exact memoryStore_code ready acts run fits
  case h_8 | h_9 | h_11 =>
    simp only [runs_bind, runs_check] at run
    obtain ⟨_, u, srcsRun, _, _, ⟨-, rfl⟩, run⟩ := run
    exact valueOperation_code ready acts srcsRun run fits
  case h_12 | h_13 =>
    obtain ⟨_, u, srcsRun, run⟩ := runs_bind.mp run
    exact valueOperation_code ready acts srcsRun run fits
  case h_14 | h_15 => exact readOperation_code ready acts run fits
  · simp only [runs_bind] at run
    obtain ⟨chain, u, chainRun, _, w, dataRun, run⟩ := run
    have later := run.fits_before (by simp) fits
    obtain ⟨_, c, head, code⟩ := locationChain_code ready chainRun (dataRun.fits_before (by simp) later)
    obtain ⟨_, args, sources, dataCode⟩ := valueSources_code (ready.step chainRun (by simp) code) dataRun later
    have both : Code env result s w _ _ _ _ := code.trans dataCode
    subst sources
    rw [← head] at run
    exact emitResult_code both run acts (operands_intrinsic [c] args (by simp) (by simp))
  · simp only [runs_bind, runs_check] at run
    obtain ⟨image, _, ⟨-, rfl⟩, run⟩ := run
    exact imageAccess_code ready acts run fits
  · simp only [runs_bind, runs_check] at run
    obtain ⟨chain, u, chainRun, _, _, ⟨-, rfl⟩, run⟩ := run
    obtain ⟨_, c, head, code⟩ := locationChain_code ready chainRun (run.fits_before (by simp) fits)
    rw [← head] at run
    exact emitResult_code code run acts (operands_intrinsic [c] [] (by simp) (by simp))
  · exact emitNoResult_code .refl run acts (operands_intrinsic [] [] (List.Subset.refl _) (List.Subset.refl _))
  · exact emitResult_code .refl run acts (operands_intrinsic [] [] (List.Subset.refl _) (List.Subset.refl _))
  · simp only [runs_bind, runs_check, runs_nativeIntegers, runs_pure] at run
    obtain ⟨loaded, _, ⟨-, rfl⟩, _, w, srcsRun, _, _, ⟨rfl, rfl⟩, v, _, run, rfl, rfl⟩ := run
    obtain ⟨_, args, rfl, code⟩ := valueSources_code ready srcsRun (run.fits_before (by simp) fits)
    obtain ⟨nodes, code⟩ := emitLoad_code code run fits args []
      (operands_intrinsic [] args (List.Subset.refl _) (List.Subset.refl _)) rfl
      fun _ _ _ _ => loadsRaw_of_isPlain acts.isPlain
    rw [acts.leaves_eq] at code
    exact ⟨nodes, _, .of_mem List.mem_cons_self, code⟩
  · exact (runs_abort run).elim

theorem callIntrinsic_code (ready : s.Ready env) (apart : env.Apart result) {call : Call}
    (run : Runs (callIntrinsic source id call) s a t) (fits : t.program.Fits) :
    ∃ nodes op, (chooseOp id (call.result.map Place.type) (ruleOf id).op).toOption = some op ∧
      Code env result s t nodes [] []
        (.effect (.intrinsic op none) :: if call.result.isSome then [.effect (.store false)] else []) := by
  simp only [callIntrinsic, runs_bind, runs_check] at run
  obtain ⟨op, _, ⟨chosen, rfl⟩, _, _, ⟨-, rfl⟩, _, u, ⟨-, rfl⟩, value, w, recipeRun, run⟩ := run
  have acts := ruleOf_acts id op (chooseOp_mem chosen)
  have named : (chooseOp id (call.result.map Place.type) (ruleOf id).op).toOption = some op := by
    rw [chosen]
    rfl
  split at run
  · rename_i target
    obtain ⟨-, rfl⟩ := runs_pure.mp run
    obtain ⟨nodes, known, -, code⟩ := applyRecipe_code ready acts recipeRun fits
    refine ⟨nodes, op, named, ?_⟩
    rw [target]
    exact code.weaken (List.nil_subset _) (List.Subset.refl _)
  · exact (runs_abort run).elim
  · rename_i place v target
    simp only [runs_bind, runs_valueDef, runs_check] at run
    obtain ⟨chain, x, chainRun, d, _, ⟨-, rfl⟩, mask, _, ⟨-, rfl⟩, run⟩ := run
    have later := run.fits_before (by simp) fits
    have before := chainRun.fits_before (by simp) later
    obtain ⟨_, known, gives, code⟩ := applyRecipe_code ready acts recipeRun before
    obtain ⟨tree, member⟩ := gives v rfl
    obtain ⟨_, c, path, names, placeCode⟩ :=
      placeChain_code source place (ready.step recipeRun (by simp) code) chainRun later
    rw [← names.head] at run
    obtain ⟨nodes, stored⟩ := storeLocation_code (code.trans placeCode) (by simp)
      (List.mem_append_left _ member) run
    rw [placeCode.returned_eq_false later apart List.mem_cons_self path] at stored
    refine ⟨nodes, op, named, ?_⟩
    rw [target]
    exact stored

/-- A call leaves the effects that its signature and parameters tell. -/
theorem lowerCall_code (ready : s.Ready env) (apart : env.Apart result) {call : Call}
    (run : Runs (lowerCall source call) s a t) (fits : t.program.Fits) :
    ∃ nodes effects, calling source s.callees call = some effects ∧
      Code env result s t nodes [] [] (effects.map .effect) := by
  simp only [lowerCall, runs_bind, runs_check, getSignature_ok] at run
  obtain ⟨signature, _, ⟨found, rfl⟩, run⟩ := run
  split at run
  · rename_i id intrinsic
    obtain ⟨nodes, op, chosen, code⟩ := callIntrinsic_code ready apart run fits
    refine ⟨nodes, .intrinsic op none :: if call.result.isSome then [.store false] else [],
      by simp [calling, found, intrinsic, chosen], ?_⟩
    cases target : call.result <;> simpa [target] using code
  · rename_i intrinsic
    obtain ⟨nodes, callee, resolved, code⟩ := callFunction_code ready run fits
    exact ⟨nodes, [.call callee call.parameters.length call.result.isSome],
      by simp [calling, found, intrinsic, resolved], code⟩

end ShaderSSA.Lowering
