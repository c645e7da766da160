import ShaderSSA.Proofs.Additions
import ShaderSSA.Proofs.Packing

/-!
The operands of texture operations. An operation whose operands can be evaluated is emitted exactly when it is one
that the rules accept, with its operands as sources in a fixed order. The number of sources is counted once more before
the instruction is emitted, and the count differs only if a coordinate is missing or is not wanted.
-/

namespace ShaderSSA

/-- The operation looks up a coordinate. -/
def TextureOp.hasCoordinate : TextureOp → Bool
  | .txs | .queryLevels | .textureSamples => false
  | _ => true

namespace Lowering
open Source Target Lower

/-- The operation takes the level of detail; the component of a gather is a literal below four. -/
def acceptsLod : TextureOp → LodInfo → Bool
  | .txb, .bias _ | .txl, .lod _ | .txd, .grad _ _ | .txfMs, .sampleIndex _ => true
  | .txf, .lod _ | .txf, .absent | .txs, .lod _ | .txs, .absent => true
  | .tg4, .component r => r.word?.any (· < 4)
  | .tg4, .absent | .tex, .absent | .lod, .absent => true
  | .queryLevels, .absent | .textureSamples, .absent | .samplesIdentical, .absent => true
  | _, _ => false

def lodOperands : LodInfo → List (TexSrcKind × Rvalue)
  | .bias r => [(.bias, r)]
  | .lod r => [(.lod, r)]
  | .grad dpdx dpdy => [(.ddx, dpdx), (.ddy, dpdy)]
  | .sampleIndex r => [(.msIndex, r)]
  | .absent | .component _ => []

def textureOperands (texture : Texture) : List (TexSrcKind × Rvalue) :=
  texture.coordinate.toList.map (.coord, ·) ++ texture.projector.toList.map (.projector, ·) ++
    texture.comparator.toList.map (.comparator, ·) ++ texture.offset.toList.map (.offset, ·) ++
    lodOperands texture.lod

/-- The sources that operands become, given their values. -/
def labelled (operands : List (TexSrcKind × Rvalue)) (values : List ValueId) : List TexSrc :=
  operands.zipWith (fun operand v => ⟨operand.1, v⟩) values

/-- What is tested before the sources are counted. -/
structure TextureChecked (texture : Texture) (sampler : SamplerType) : Prop where
  sampled : texture.sampler.type.withoutArray = .sampler sampler
  result : texture.type.baseType? ∈ [some .float, some .int, some .uint, some .bool]
  offset : ∀ r, texture.offset = some r → r.type.isScalar = true ∨ r.type.isVector = true
  lod : acceptsLod texture.op texture.lod = true

def destinationWidth (texture : Texture) (sampler : SamplerType) : UInt8 :=
  textureWidth texture.op texture.type (sampler.shadow && texture.type.rows = 1)

/-- The rules of texture operations. -/
structure TextureAccepted (texture : Texture) (sampler : SamplerType) : Prop
    extends TextureChecked texture sampler where
  coordinate : texture.coordinate.isSome = texture.op.hasCoordinate
  wide : 1 ≤ destinationWidth texture sampler
  narrow : destinationWidth texture sampler ≤ 4

variable {source : Source.Program} {s u w t : State} {texture : Texture} {lod : LodInfo} {op : TextureOp}
  {vs : List ValueId} {bitSize width : UInt8} {chain : Chain} {e : Failure} {sampler : SamplerType} {srcs : List TexSrc}
  {α β : Type}

/-! ### The two counts -/

theorem expectedSources_eq (accepted : acceptsLod op lod = true) (projector comparator offset : Bool) :
    expectedSources op (hasLevel lod) projector comparator offset =
      op.hasCoordinate.toNat + projector.toNat + comparator.toNat + offset.toNat + (lodOperands lod).length := by
  have base : expectedSources op (hasLevel lod) false false false =
      op.hasCoordinate.toNat + (lodOperands lod).length := by
    cases lod <;> cases op <;> first | rfl | cases accepted
  have split : expectedSources op (hasLevel lod) projector comparator offset =
      expectedSources op (hasLevel lod) false false false + projector.toNat + comparator.toNat + offset.toNat := rfl
  rw [split, base]
  omega

theorem length_textureOperands (texture : Texture) : (textureOperands texture).length =
    texture.coordinate.isSome.toNat + texture.projector.isSome.toNat + texture.comparator.isSome.toNat +
      texture.offset.isSome.toNat + (lodOperands texture.lod).length := by
  have one : ∀ (kind : TexSrcKind) (r : Option Rvalue), (r.toList.map fun r => (kind, r)).length = r.isSome.toNat := by
    intro kind r
    cases r <;> rfl
  simp only [textureOperands, List.length_append, one]

theorem sources_counted (accepted : acceptsLod texture.op texture.lod = true) :
    (textureOperands texture).length = expectedSources texture.op (hasLevel texture.lod) texture.projector.isSome
      texture.comparator.isSome texture.offset.isSome ↔ texture.coordinate.isSome = texture.op.hasCoordinate := by
  rw [expectedSources_eq accepted, length_textureOperands]
  cases texture.coordinate.isSome <;> cases texture.op.hasCoordinate <;> simp

/-! ### Evaluation of the operands -/

theorem evaluateAll_append {rs rs' : List Rvalue} (run : Runs (evaluateAll source (rs ++ rs')) s vs t) :
    ∃ xs u ys, Runs (evaluateAll source rs) s xs u ∧ Runs (evaluateAll source rs') u ys t ∧ vs = xs ++ ys := by
  induction rs generalizing s vs with
  | nil => exact ⟨[], s, vs, runs_evaluateAll_nil.mpr ⟨rfl, rfl⟩, run, rfl⟩
  | cons r rs ih =>
    obtain ⟨v, a, _, first, rest, rfl⟩ := runs_evaluateAll_cons.mp run
    obtain ⟨xs, u, ys, before, behind, rfl⟩ := ih rest
    exact ⟨v :: xs, u, ys, runs_evaluateAll_cons.mpr ⟨v, a, xs, first, before, rfl⟩, behind, rfl⟩

/-- The operands, evaluated, are the sources. -/
def Labels (source : Source.Program) (operands : List (TexSrcKind × Rvalue)) (s : State) (srcs : List TexSrc)
    (t : State) : Prop :=
  ∃ vs, Runs (evaluateAll source (operands.map Prod.snd)) s vs t ∧ srcs = labelled operands vs

theorem labels_append {os os' : List (TexSrcKind × Rvalue)}
    (run : Runs (evaluateAll source ((os ++ os').map Prod.snd)) s vs t) :
    ∃ srcs u srcs', Labels source os s srcs u ∧ Labels source os' u srcs' t ∧
      labelled (os ++ os') vs = srcs ++ srcs' := by
  rw [List.map_append] at run
  obtain ⟨xs, u, ys, first, second, rfl⟩ := evaluateAll_append run
  have same : os.length = xs.length := by rw [length_evaluateAll first, List.length_map]
  exact ⟨_, u, _, ⟨xs, first, rfl⟩, ⟨ys, second, rfl⟩, List.zipWith_append same⟩

theorem textureSource_runs {kind : TexSrcKind} {r : Option Rvalue}
    (h : Labels source (r.toList.map (kind, ·)) s srcs t) : Runs (textureSource source kind r) s srcs t := by
  obtain ⟨vs, run, rfl⟩ := h
  cases r with
  | none =>
    obtain ⟨rfl, rfl⟩ := runs_evaluateAll_nil.mp run
    exact runs_pure.mpr ⟨rfl, rfl⟩
  | some r =>
    simp only [Option.toList_some, List.map_cons, List.map_nil, evaluateAll, runs_bind, runs_pure] at run
    obtain ⟨v, _, value, _, _, ⟨rfl, rfl⟩, rfl, rfl⟩ := run
    exact runs_bind.mpr ⟨v, _, value, runs_pure.mpr ⟨rfl, rfl⟩⟩

/-- The component of a gather is a literal below four. -/
def gathers : LodInfo → Bool
  | .component r => r.word?.any (· < 4)
  | _ => true

theorem acceptsLod_eq (op : TextureOp) (lod : LodInfo) : acceptsLod op lod = (takesLod op lod && gathers lod) := by
  cases lod <;> cases op <;> rfl

theorem gatherComponent_eq (r : Rvalue) : gatherComponent r =
    if gathers (.component r) then .ok (r.word?.getD 0).toUInt8 else .error (.defect .gatherComponent) := by
  cases word : r.word? <;> simp [gatherComponent, gathers, word]

theorem lodSources_runs (accepted : acceptsLod op lod = true) (h : Labels source (lodOperands lod) s srcs t) :
    ∃ component, Runs (lodSources source op lod) s (srcs, component) t := by
  obtain ⟨vs, run, rfl⟩ := h
  rw [acceptsLod_eq, Bool.and_eq_true] at accepted
  obtain ⟨takes, fine⟩ := accepted
  cases lod with
  | absent =>
    obtain ⟨rfl, rfl⟩ := runs_evaluateAll_nil.mp run
    exact ⟨0, by simp [lodSources, takes, labelled, lodOperands]⟩
  | component r =>
    obtain ⟨rfl, rfl⟩ := runs_evaluateAll_nil.mp run
    refine ⟨(r.word?.getD 0).toUInt8, ?_⟩
    simp only [lodSources, takes, runs_unless, runs_bind, runs_check, runs_pure]
    exact ⟨by simp, _, _, ⟨by rw [gatherComponent_eq, if_pos fine], rfl⟩, rfl, rfl⟩
  | bias r | lod r | sampleIndex r =>
    simp only [lodOperands, List.map_cons, List.map_nil, evaluateAll, runs_bind, runs_pure] at run
    obtain ⟨v, _, value, _, _, ⟨rfl, rfl⟩, rfl, rfl⟩ := run
    refine ⟨0, ?_⟩
    simp only [lodSources, takes, runs_unless, runs_bind, runs_pure]
    exact ⟨by simp, v, _, value, rfl, rfl⟩
  | grad dpdx dpdy =>
    simp only [lodOperands, List.map_cons, List.map_nil, evaluateAll, runs_bind, runs_pure] at run
    obtain ⟨x, _, first, _, _, ⟨y, _, second, _, _, ⟨rfl, rfl⟩, rfl, rfl⟩, rfl, rfl⟩ := run
    refine ⟨0, ?_⟩
    simp only [lodSources, takes, runs_unless, runs_bind, runs_pure]
    exact ⟨by simp, x, _, first, y, _, second, rfl, rfl⟩

theorem lodSources_aborts (refused : acceptsLod op lod = false) :
    ∃ d, outcome (lodSources source op lod) s = (.error (.fault (.defect d)), s) ∧
      (d = .textureLod op lod ∨ d = .gatherComponent) := by
  rw [acceptsLod_eq, Bool.and_eq_false_iff] at refused
  cases takes : takesLod op lod with
  | false =>
    refine ⟨.textureLod op lod, ?_, .inl rfl⟩
    cases lod <;> simp only [lodSources, takes] <;> rfl
  | true =>
    rw [takes, Bool.true_eq_false, false_or] at refused
    cases lod with
    | component r =>
      refine ⟨.gatherComponent, ?_, .inr rfl⟩
      simp only [lodSources, takes, gatherComponent_eq, refused]
      rfl
    | _ => cases refused

theorem textureOperands_runs (run : Runs (evaluateAll source ((textureOperands texture).map Prod.snd)) u vs w) :
    ∃ coords u₁ projectors u₂ comparators u₃ offsets u₄ details,
      Runs (textureSource source .coord texture.coordinate) u coords u₁ ∧
      Runs (textureSource source .projector texture.projector) u₁ projectors u₂ ∧
      Runs (textureSource source .comparator texture.comparator) u₂ comparators u₃ ∧
      Runs (textureSource source .offset texture.offset) u₃ offsets u₄ ∧
      Labels source (lodOperands texture.lod) u₄ details w ∧
      labelled (textureOperands texture) vs = coords ++ projectors ++ comparators ++ offsets ++ details := by
  obtain ⟨_, u₄, details, ⟨_, run, rfl⟩, last, all⟩ := labels_append run
  obtain ⟨_, u₃, offsets, ⟨_, run, rfl⟩, fourth, four⟩ := labels_append run
  obtain ⟨_, u₂, comparators, ⟨_, run, rfl⟩, third, three⟩ := labels_append run
  obtain ⟨coords, u₁, projectors, first, second, two⟩ := labels_append run
  refine ⟨coords, u₁, projectors, u₂, comparators, u₃, offsets, u₄, details, textureSource_runs first,
    textureSource_runs second, textureSource_runs third, textureSource_runs fourth, last, ?_⟩
  rw [textureOperands, all, four, three, two]

theorem labelled_kinds {operands : List (TexSrcKind × Rvalue)} (same : vs.length = operands.length) :
    (labelled operands vs).map TexSrc.kind = operands.map Prod.fst ∧ (labelled operands vs).map TexSrc.value = vs := by
  induction operands generalizing vs with
  | nil =>
    obtain rfl := List.eq_nil_of_length_eq_zero same
    exact ⟨rfl, rfl⟩
  | cons o operands ih =>
    obtain ⟨v, vs, rfl⟩ := List.exists_cons_of_length_eq_add_one same
    obtain ⟨kinds, values⟩ := ih (Nat.succ.inj same)
    simp only [labelled] at kinds values
    simp [labelled, kinds, values]

/-! ### The tests -/

theorem samplerOf_cases (op : TextureOp) (type : ShaderType) :
    (∃ sampler, type.withoutArray = .sampler sampler ∧ samplerOf op type = .ok sampler) ∨
      (∀ sampler, type.withoutArray ≠ .sampler sampler) ∧
        ∃ other, samplerOf op type = .error (.defect (.notSampler op other)) := by
  unfold samplerOf
  split
  · rename_i sampler found
    exact .inl ⟨sampler, found, rfl⟩
  · rename_i other
    exact .inr ⟨other, _, rfl⟩

theorem textureDest_cases (op : TextureOp) (type : ShaderType) :
    type.baseType? ∈ [some .float, some .int, some .uint, some .bool] ∧ (∃ dest, textureDest op type = .ok dest) ∨
      type.baseType? ∉ [some .float, some .int, some .uint, some .bool] ∧
        textureDest op type = .error (.defect (.textureResult op type)) := by
  unfold textureDest
  split <;> simp_all

theorem checkOffset_cases (offset : Option Rvalue) :
    (∀ r, offset = some r → r.type.isScalar = true ∨ r.type.isVector = true) ∧
        checkOffset (offset.map Rvalue.type) = .ok () ∨
      ¬ (∀ r, offset = some r → r.type.isScalar = true ∨ r.type.isVector = true) ∧
        ∃ type, checkOffset (offset.map Rvalue.type) = .error (.defect (.texelOffset type)) := by
  cases offset with
  | none => exact .inl ⟨by simp, rfl⟩
  | some r =>
    by_cases fine : r.type.isScalar = true ∨ r.type.isVector = true
    · exact .inl ⟨by simpa using fine, if_pos (by simpa using fine)⟩
    · exact .inr ⟨by simpa using fine, r.type, if_neg (by simpa using fine)⟩

theorem outcome_of_error {x : Lower α} {f : α → Lower β} (failed : outcome x s = (.error e, t)) :
    outcome (x >>= f) s = (.error e, t) := by
  rw [outcome_bind, failed]

theorem outcome_of_check {e : Except Fault α} {f : α → Lower β} {a : α} (passed : e = .ok a) :
    outcome (check e >>= f) s = outcome (f a) s :=
  outcome_of_runs (runs_check.mpr ⟨passed, rfl⟩)

/-- An operation that passes the tests has its sources counted, and is then emitted. -/
theorem evaluateTexture_counted (checked : TextureChecked texture sampler)
    (chainRun : Runs (placeChain source texture.sampler) s chain u)
    (run : Runs (evaluateAll source ((textureOperands texture).map Prod.snd)) u vs w) :
    ∃ instr : TexInstr, instr.op = texture.op ∧ instr.texture = chain.head ∧
      instr.srcs = labelled (textureOperands texture) vs ∧
      outcome (evaluateTexture source texture) s =
        if texture.coordinate.isSome ≠ texture.op.hasCoordinate then
          (.error (.fault (.defect (.textureSources texture.op (textureOperands texture).length
            (expectedSources texture.op (hasLevel texture.lod) texture.projector.isSome texture.comparator.isSome
              texture.offset.isSome)))), w)
        else outcome (emitValue (.tex instr) (destinationWidth texture sampler) 32) w := by
  have length : (labelled (textureOperands texture) vs).length = (textureOperands texture).length := by
    rw [labelled, List.length_zipWith, length_evaluateAll run, List.length_map, Nat.min_self]
  have counted := sources_counted checked.lod
  obtain ⟨coords, u₁, projectors, u₂, comparators, u₃, offsets, u₄, details, first, second, third, fourth, last, all⟩ :=
    textureOperands_runs run
  obtain ⟨component, lodRun⟩ := lodSources_runs checked.lod last
  obtain ⟨found, sampled, isSampler⟩ | ⟨other, -⟩ := samplerOf_cases texture.op texture.sampler.type
  swap
  · exact absurd checked.sampled (other sampler)
  obtain rfl : found = sampler := ShaderType.sampler.inj (sampled.symm.trans checked.sampled)
  obtain ⟨-, dest, isDest⟩ | ⟨other, -⟩ := textureDest_cases texture.op texture.type
  swap
  · exact absurd checked.result other
  obtain ⟨-, fine⟩ | ⟨other, -⟩ := checkOffset_cases texture.offset
  swap
  · exact absurd checked.offset other
  obtain ⟨op, type, place, coordinate, projector, comparator, offset, lod⟩ := texture
  refine ⟨⟨op, found.dim, found.array, found.shadow, found.shadow && type.rows = 1, dest, chain.head,
    (coordinate.map fun c => c.type.rows).getD 0, component, coords ++ projectors ++ comparators ++ offsets ++ details⟩,
    rfl, rfl, all.symm, ?_⟩
  rw [all] at length
  rw [evaluateTexture, outcome_of_check isSampler, outcome_of_check isDest, outcome_of_runs chainRun,
    outcome_of_runs first, outcome_of_runs second, outcome_of_runs third, outcome_of_check fine, outcome_of_runs fourth,
    outcome_of_runs lodRun]
  dsimp only
  rw [length]
  by_cases wanted : coordinate.isSome = op.hasCoordinate
  · rw [if_neg (not_not.mpr (counted.mpr wanted)), if_neg (not_not.mpr wanted)]
    rfl
  · rw [if_pos (fun same => wanted (counted.mp same)), if_pos wanted]
    rfl

/-- An operation that fails one of the tests is refused before its sources are counted. -/
theorem evaluateTexture_refused (refused : ∀ sampler, ¬ TextureChecked texture sampler)
    (chainRun : Runs (placeChain source texture.sampler) s chain u)
    (run : Runs (evaluateAll source ((textureOperands texture).map Prod.snd)) u vs w) :
    ∃ d t, outcome (evaluateTexture source texture) s = (.error (.fault (.defect d)), t) ∧
      ∀ count expected, d ≠ .textureSources texture.op count expected := by
  obtain ⟨coords, u₁, projectors, u₂, comparators, u₃, offsets, u₄, details, first, second, third, fourth, -, -⟩ :=
    textureOperands_runs run
  obtain ⟨op, type, place, coordinate, projector, comparator, offset, lod⟩ := texture
  obtain ⟨sampler, sampled, isSampler⟩ | ⟨-, other, failed⟩ := samplerOf_cases op place.type
  swap
  · refine ⟨.notSampler op other, s, ?_, by simp⟩
    rw [evaluateTexture, failed]
    rfl
  obtain ⟨typed, dest, isDest⟩ | ⟨-, failed⟩ := textureDest_cases op type
  swap
  · refine ⟨.textureResult op type, s, ?_, by simp⟩
    rw [evaluateTexture, outcome_of_check isSampler, failed]
    rfl
  obtain ⟨shaped, fine⟩ | ⟨-, other, failed⟩ := checkOffset_cases offset
  swap
  · refine ⟨.texelOffset other, u₃, ?_, by simp⟩
    rw [evaluateTexture, outcome_of_check isSampler, outcome_of_check isDest, outcome_of_runs chainRun,
      outcome_of_runs first, outcome_of_runs second, outcome_of_runs third, failed]
    rfl
  have unaccepted : acceptsLod op lod = false := by
    cases accepted : acceptsLod op lod with
    | false => rfl
    | true => exact absurd ⟨sampled, typed, shaped, accepted⟩ (refused sampler)
  obtain ⟨d, failed, kinds⟩ : ∃ d, outcome (lodSources source op lod) u₄ = (.error (.fault (.defect d)), u₄) ∧ _ :=
    lodSources_aborts unaccepted
  refine ⟨d, u₄, ?_, by rcases kinds with rfl | rfl <;> simp⟩
  rw [evaluateTexture, outcome_of_check isSampler, outcome_of_check isDest, outcome_of_runs chainRun,
    outcome_of_runs first, outcome_of_runs second, outcome_of_runs third, outcome_of_check fine, outcome_of_runs fourth,
    outcome_of_error failed]

/-! ### The rules -/

theorem emitValue_succeeds {op : Operation} (uncapped : w.program.instrLimit = none) :
    (∃ v t, Runs (emitValue op width bitSize) w v t) ↔ 1 ≤ width ∧ width ≤ 4 := by
  have shape : ¬ (width = 0 ∨ 4 < width) ↔ 1 ≤ width ∧ width ≤ 4 := by
    simp only [UInt8.le_iff_toNat_le, UInt8.lt_iff_toNat_lt, ← UInt8.toNat_inj]
    simp
    omega
  rw [← shape]
  constructor
  · rintro ⟨v, t, run⟩
    exact (emitValue_ok run).2.2
  · intro narrow
    refine runs_of_not_fails fun t failed => ?_
    obtain ⟨-, wide | full⟩ := emitValue_fails failed
    · exact narrow wide
    · rw [not_isFull uncapped] at full
      cases full

theorem emitValue_error {op : Operation} (failed : outcome (emitValue op width bitSize) w = (.error e, t)) :
    e = .fault (.defect (.valueWidth width)) ∨ ∃ x, e = .exhausted x := by
  by_cases wide : width = 0 ∨ 4 < width
  · rw [emitValue, if_pos wide] at failed
    cases failed
    exact .inl rfl
  · rw [emitValue, if_neg wide, outcome_program, Program.addValue] at failed
    split at failed
    · cases failed
      exact .inr ⟨_, rfl⟩
    · cases failed

theorem TextureChecked.accepted_iff (checked : TextureChecked texture sampler) :
    (∃ sampler, TextureAccepted texture sampler) ↔ texture.coordinate.isSome = texture.op.hasCoordinate ∧
      1 ≤ destinationWidth texture sampler ∧ destinationWidth texture sampler ≤ 4 := by
  constructor
  · rintro ⟨other, accepted⟩
    obtain rfl : other = sampler := ShaderType.sampler.inj (accepted.sampled.symm.trans checked.sampled)
    exact ⟨accepted.coordinate, accepted.wide, accepted.narrow⟩
  · rintro ⟨coordinate, wide, narrow⟩
    exact ⟨sampler, checked, coordinate, wide, narrow⟩

/-- A texture operation whose sampler and operands can be lowered, without a cap on instructions, is itself lowered
exactly if the rules accept it. Its instruction has the operands that are present as sources, in order, each with the
value that evaluating it gave, and as many as the rules expect. The count that is made before the instruction is emitted
fails exactly if everything else is fine and a coordinate is missing or not wanted. -/
theorem texture_lowered_iff_accepted {chain : Chain} {vs : List ValueId} (uncapped : s.program.instrLimit = none)
    (sampler : Runs (placeChain source texture.sampler) s chain u)
    (operands : Runs (evaluateAll source ((textureOperands texture).map Prod.snd)) u vs w) :
    ((∃ v t, Runs (evaluateTexture source texture) s v t) ↔ ∃ sampler, TextureAccepted texture sampler) ∧
    (∀ v t, Runs (evaluateTexture source texture) s v t → v = w.nextValue ∧
      ∃ (sampler : SamplerType) (instr : TexInstr), texture.sampler.type.withoutArray = .sampler sampler ∧
      t = w.withValue (.tex instr) (destinationWidth texture sampler) 32 ∧
      instr.op = texture.op ∧ instr.texture = chain.head ∧
      instr.srcs.map TexSrc.kind = (textureOperands texture).map Prod.fst ∧ instr.srcs.map TexSrc.value = vs ∧
      instr.srcs.length = expectedSources texture.op (hasLevel texture.lod) texture.projector.isSome
        texture.comparator.isSome texture.offset.isSome) ∧
    ((∃ count expected t, outcome (evaluateTexture source texture) s =
        (.error (.fault (.defect (.textureSources texture.op count expected))), t)) ↔
      (∃ sampler, TextureChecked texture sampler) ∧ texture.coordinate.isSome ≠ texture.op.hasCoordinate) := by
  by_cases checked : ∃ sampler, TextureChecked texture sampler
  swap
  · obtain ⟨d, t, failed, other⟩ := evaluateTexture_refused (not_exists.mp checked) sampler operands
    refine ⟨⟨?_, ?_⟩, ?_, ⟨?_, ?_⟩⟩
    · rintro ⟨v, t', run⟩
      cases failed.symm.trans run
    · rintro ⟨sampler, accepted⟩
      exact absurd ⟨sampler, accepted.toTextureChecked⟩ checked
    · intro v t' run
      cases failed.symm.trans run
    · rintro ⟨count, expected, t', counted⟩
      have same := failed.symm.trans counted
      simp only [Prod.mk.injEq, Except.error.injEq, Failure.fault.injEq, Fault.defect.injEq] at same
      exact absurd same.1 (other count expected)
    · rintro ⟨known, -⟩
      exact absurd known checked
  obtain ⟨type, checked⟩ := checked
  obtain ⟨instr, isOp, isTexture, srcs, result⟩ := evaluateTexture_counted checked sampler operands
  by_cases wanted : texture.coordinate.isSome = texture.op.hasCoordinate
  · rw [if_neg (not_not.mpr wanted)] at result
    have same : ∀ v t, Runs (evaluateTexture source texture) s v t ↔
        Runs (emitValue (.tex instr) (destinationWidth texture type) 32) w v t := fun v t => by rw [Runs, result, Runs]
    have path : Path .value s w :=
      ((evaluates_placeChain source _).stepwise.path sampler).trans
        ((evaluates_evaluateAll source _).stepwise.path operands)
    have room : w.program.instrLimit = none := path.steady.limit.trans uncapped
    refine ⟨?_, fun v t run => ?_, ⟨?_, fun counted => absurd wanted counted.2⟩⟩
    · simp only [same, emitValue_succeeds room, checked.accepted_iff, wanted, true_and]
    · obtain ⟨rfl, rfl, -⟩ := emitValue_ok ((same v t).mp run)
      have length := length_evaluateAll operands
      rw [List.length_map] at length
      obtain ⟨kinds, values⟩ := labelled_kinds length
      have count := congrArg List.length values
      rw [List.length_map, length, (sources_counted checked.lod).mpr wanted] at count
      rw [← srcs] at kinds values count
      exact ⟨rfl, type, instr, checked.sampled, rfl, isOp, isTexture, kinds, values, count⟩
    · rintro ⟨count, expected, t, counted⟩
      obtain wrong | ⟨x, wrong⟩ := emitValue_error (result.symm.trans counted) <;> cases wrong
  · rw [if_pos wanted] at result
    refine ⟨?_, fun v t run => ?_, ⟨fun _ => ⟨⟨type, checked⟩, wanted⟩, fun _ => ⟨_, _, _, result⟩⟩⟩
    · rw [checked.accepted_iff]
      constructor
      · rintro ⟨v, t, run⟩
        cases result.symm.trans run
      · rintro ⟨here, -⟩
        exact absurd here wanted
    · cases result.symm.trans run

namespace Shadow

def position : Rvalue := .place (.var ⟨1⟩ (.vector .float 2))

def depth : Rvalue := .place (.var ⟨2⟩ (.scalar .float))

def lookup (coordinate : Option Rvalue) : Texture where
  op := .txd
  type := .scalar .float
  sampler := .var ⟨0⟩ (.sampler ⟨.dim2D, true, false, .float⟩)
  coordinate
  projector := none
  comparator := some depth
  offset := none
  lod := .grad position (.swizzle position ⟨1, 0, 0, 0⟩ 2)

def program : Source.Program where
  name := "shadow"
  layout := .fragment false .none false
  vars := #[
    { name := "map", type := .sampler ⟨.dim2D, true, false, .float⟩, mode := .uniform },
    { name := "position", type := .vector .float 2, mode := .shaderIn },
    { name := "depth", type := .scalar .float, mode := .shaderIn }]

def declared : State :=
  (outcome (do let _ ← declare program ⟨0⟩; let _ ← declare program ⟨1⟩; declare program ⟨2⟩) (.initial program {})).2

def sampled (texture : Texture) : State := (outcome (placeChain program texture.sampler) declared).2

def evaluated (texture : Texture) : State :=
  (outcome (evaluateAll program ((textureOperands texture).map Prod.snd)) (sampled texture)).2

def complete : Texture := lookup (some position)

def bare : Texture := lookup none

theorem checked (coordinate : Option Rvalue) :
    TextureChecked (lookup coordinate) ⟨.dim2D, true, false, .float⟩ :=
  ⟨rfl, List.mem_cons_self, by simp [lookup], rfl⟩

end Shadow

/-- With a coordinate the comparison has four sources; without one the count is wrong. -/
theorem texture_lowered_iff_accepted_shadow : Shadow.declared.program.instrLimit = none ∧
    (∃ chain vs, Runs (placeChain Shadow.program Shadow.complete.sampler) Shadow.declared chain
        (Shadow.sampled Shadow.complete) ∧
      Runs (evaluateAll Shadow.program ((textureOperands Shadow.complete).map Prod.snd))
        (Shadow.sampled Shadow.complete) vs (Shadow.evaluated Shadow.complete) ∧
      ∃ v instr, Runs (evaluateTexture Shadow.program Shadow.complete) Shadow.declared v
          ((Shadow.evaluated Shadow.complete).withValue (.tex instr) 1 32) ∧
        instr.srcs.map TexSrc.kind = [.coord, .comparator, .ddx, .ddy] ∧ instr.srcs.map TexSrc.value = vs) ∧
    ∃ count expected t, outcome (evaluateTexture Shadow.program Shadow.bare) Shadow.declared =
      (.error (.fault (.defect (.textureSources .txd count expected))), t) := by
  have uncapped : Shadow.declared.program.instrLimit = none := by decide +kernel
  refine ⟨uncapped, ?_, ?_⟩
  · obtain ⟨chain, sampler⟩ : ∃ chain, Runs (placeChain Shadow.program Shadow.complete.sampler) Shadow.declared chain
        (Shadow.sampled Shadow.complete) := runs_of_isOk (by decide +kernel)
    obtain ⟨vs, operands⟩ : ∃ vs, Runs (evaluateAll Shadow.program ((textureOperands Shadow.complete).map Prod.snd))
        _ vs (Shadow.evaluated Shadow.complete) := runs_of_isOk (by decide +kernel)
    obtain ⟨lowered, emitted, -⟩ := texture_lowered_iff_accepted uncapped sampler operands
    obtain ⟨v, t, run⟩ := lowered.mpr ⟨_, Shadow.checked _, rfl, by decide, by decide⟩
    obtain ⟨-, type, instr, sampled, rfl, -, -, kinds, values, -⟩ := emitted v t run
    obtain rfl := ShaderType.sampler.inj sampled
    exact ⟨chain, vs, sampler, operands, v, instr, run, kinds, values⟩
  · obtain ⟨chain, sampler⟩ : ∃ chain, Runs (placeChain Shadow.program Shadow.bare.sampler) Shadow.declared chain
        (Shadow.sampled Shadow.bare) := runs_of_isOk (by decide +kernel)
    obtain ⟨vs, operands⟩ : ∃ vs, Runs (evaluateAll Shadow.program ((textureOperands Shadow.bare).map Prod.snd)) _ vs
        (Shadow.evaluated Shadow.bare) := runs_of_isOk (by decide +kernel)
    obtain ⟨-, -, miscounts⟩ := texture_lowered_iff_accepted uncapped sampler operands
    exact miscounts.mpr ⟨⟨_, Shadow.checked none⟩, by decide⟩

end Lowering

end ShaderSSA
