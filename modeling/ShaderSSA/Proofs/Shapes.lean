import ShaderSSA.Proofs.Evaluation

/-!
Shapes of values. The width and the bit size of an evaluated value are those of its type, however it was made:
loaded, tested, computed, converted, sampled or read through selectors. Without native integers one case is
different: a conversion gives a word, also to a float type that is not as wide as one.
-/

namespace ShaderSSA

namespace Source.Rvalue

/-- The node whose value is read, below all selectors. -/
def core : Rvalue → Rvalue
  | .swizzle value _ _ => value.core
  | r => r

/-- A size query is declared as a 32-bit scalar, and a texture operation with the components that it writes. -/
def isDeclared : Rvalue → Bool
  | .expression op type _ => op ≠ .getBufferSize || (type.isScalar && type.bitSize = 32)
  | .texture ⟨op, type, sampler, _, _, _, _, _⟩ =>
    match sampler.type.withoutArray with
    | .sampler s => type.rows = Lowering.textureWidth op type (s.shadow && type.rows = 1)
    | _ => true
  | _ => true

/-- A conversion to a float type that is not as wide as a word. -/
def leavesWords : Rvalue → Bool
  | .expression op type _ =>
    op = .convert && (type.baseType? = some .float16 || type.baseType? = some .double)
  | _ => false

end Source.Rvalue

namespace Target

/-- The value is in the program and has the given shape. -/
def Program.Shapes (p : Program) (v : ValueId) (width bitSize : UInt8) : Prop :=
  ∃ d, p.value? v = some d ∧ d.width = width ∧ d.bitSize = bitSize

end Target

namespace Lowering
open Source Target Lower

variable {s t : State} {v value : ValueId} {bitSize width : UInt8} {native raw : Bool} {type : ShaderType}
  {op : Operation} {r : Rvalue} {source : Source.Program}

/-! ### What is emitted -/

theorem emitValue_shapes (run : Runs (emitValue op width bitSize) s v t) (small : t.program.values.size ≤ UInt32.size) :
    t.program.Shapes v width bitSize := by
  obtain ⟨rfl, rfl, -⟩ := emitValue_ok run
  have bound : s.program.values.size < UInt32.size := by
    have grown : (s.withValue op width bitSize).program.values.size = s.program.values.size + 1 := Array.size_push _
    omega
  refine ⟨⟨width, bitSize, s.nextInst⟩, ?_, rfl, rfl⟩
  rw [Program.value?, State.nextValue, UInt32.toNat_ofNat_of_lt' bound]
  exact Array.getElem?_push_size

theorem emitLoad_shapes (run : Runs (emitLoad raw op width bitSize) s v t)
    (small : t.program.values.size ≤ UInt32.size) : t.program.Shapes v width (if raw then 32 else bitSize) := by
  unfold emitLoad at run
  split at run
  · rename_i isRaw
    simp only [nonzeroTest, runs_bind, runs_valueDef] at run
    obtain ⟨zero, _, -, value, _, valueRun, d, u, ⟨found, rfl⟩, testRun⟩ := run
    have before : u.program.values.size ≤ UInt32.size :=
      Nat.le_trans (testRun.noLarger (by simp)).values small
    obtain ⟨d', there, width', -⟩ := emitValue_shapes valueRun before
    obtain rfl : d' = d := Option.some.inj (there.symm.trans found)
    rw [if_pos isRaw, ← width']
    exact emitValue_shapes testRun small
  · rename_i notRaw
    rw [if_neg notRaw]
    exact emitValue_shapes run small

/-! ### Widths of types -/

theorem valueBits_eq (native : Bool) (type : ShaderType) :
    valueBits native type = (type.baseType?.map (storedBits native)).getD 32 := by
  cases base : type.baseType? <;> simp [valueBits, ShaderType.bitSize, base, storedBits]

theorem valueBits_native (type : ShaderType) : valueBits true type = type.bitSize := by
  cases base : type.baseType? <;> simp [valueBits, base]

theorem valueBits_boolean (boolean : type.isBoolean = true) : valueBits native type = 32 := by
  simp only [ShaderType.isBoolean, Bool.and_eq_true, decide_eq_true_eq] at boolean
  rw [valueBits_eq, boolean.1]
  cases native <;> rfl

theorem tested_eq_valueBits (boolean : raw = true → type.isBoolean = true) :
    (if raw then 32 else valueBits native type) = valueBits native type := by
  cases raw with
  | false => rfl
  | true => exact (valueBits_boolean (boolean rfl)).symm

theorem valueBits_vector (native : Bool) (type : ShaderType) (width : UInt8) :
    valueBits native (.vector (type.baseType?.getD .float) width) = valueBits native type := by
  rw [valueBits_eq, valueBits_eq native type, ShaderType.vector, ShaderType.baseType?]
  cases type.baseType? with
  | none => cases native <;> rfl
  | some base => rfl

theorem valueBits_textureDest {op : TextureOp} {dest : TexDestType} (h : textureDest op type = .ok dest) :
    valueBits native type = 32 := by
  rw [valueBits_eq]
  unfold textureDest at h
  split at h
  case h_5 => cases h
  all_goals
    rename_i base
    rw [base]
    cases native <;> rfl

theorem valueBits_words (half : type.baseType? ≠ some .float16) (double : type.baseType? ≠ some .double) :
    valueBits false type = 32 := by
  rw [valueBits_eq]
  rcases base : type.baseType? with _ | (_ | _ | _ | _ | _ | _ | _ | _ | _ | _ | _ | _)
  case some.float16 => exact absurd base half
  case some.double => exact absurd base double
  all_goals rfl

theorem valueBits_word (word : type.bitSize = 32) : valueBits native type = 32 := by
  unfold valueBits
  split
  · rw [word, ite_self]
  · exact word

/-! ### Operators -/

theorem rows_of_isScalar (scalar : type.isScalar = true) : type.rows = 1 := by
  cases type <;> simp_all [ShaderType.isScalar, ShaderType.rows]

theorem reorder_shapes {lanes : Lanes} {width' : UInt8} (shape : s.program.Shapes value width' bitSize)
    (run : Runs (reorder value lanes width) s v t) (small : t.program.values.size ≤ UInt32.size) :
    t.program.Shapes v width bitSize := by
  obtain ⟨d, found, -, rfl⟩ := shape
  obtain ⟨d', there, moved⟩ := reorder_ok run
  obtain rfl : d' = d := Option.some.inj (there.symm.trans found)
  obtain ⟨unchanged, rfl, rfl⟩ | ⟨-, -, run⟩ := moved
  · exact ⟨d', found, unchanged.1.symm, rfl⟩
  · exact emitValue_shapes run small

theorem convert_shapes {src dst : ShaderType} (run : Runs (convert src dst value) s v t)
    (small : t.program.values.size ≤ UInt32.size) :
    t.program.Shapes v dst.rows (if s.scope.nativeIntegers then valueBits true dst else 32) := by
  obtain ⟨_, _, _, -, -, -, run⟩ := convert_ok run
  obtain ⟨native, run⟩ | ⟨floats, ⟨-, _, _, -, run⟩ | ⟨-, run⟩⟩ := run
  · rw [if_pos native]
    exact emitValue_shapes run small
  all_goals
    rw [if_neg (by simp [floats])]
    exact emitValue_shapes run small

theorem compute_shapes {op : ExprOp} {types : List ShaderType} {values : List ValueId}
    (run : Runs (compute op type types values) s v t) (small : t.program.values.size ≤ UInt32.size) :
    t.program.Shapes v type.rows (valueBits s.scope.nativeIntegers type) := by
  obtain ⟨_, _, _, _, -, -, -, -, run⟩ := compute_ok run
  exact emitValue_shapes run small

/-! ### Values -/

/-- The bit size of an evaluated value. -/
def evaluatedBits (native : Bool) (r : Rvalue) : UInt8 :=
  if !native && r.core.leavesWords then 32 else valueBits native r.type

theorem evaluatedBits_eq (h : r.core.leavesWords = false) : evaluatedBits native r = valueBits native r.type := by
  simp [evaluatedBits, h]

theorem evaluatedBits_operator {op : ExprOp} {operands : List Rvalue} (other : op ≠ .convert) :
    evaluatedBits native (.expression op type operands) = valueBits native type :=
  evaluatedBits_eq (by simp [Rvalue.core, Rvalue.leavesWords, other])

theorem evaluatedBits_convert (native : Bool) (type : ShaderType) (operands : List Rvalue) :
    evaluatedBits native (.expression .convert type operands) = if native then valueBits true type else 32 := by
  cases native with
  | true => rfl
  | false =>
    by_cases leaves : (Rvalue.expression .convert type operands).core.leavesWords = true
    · simp [evaluatedBits, leaves]
    · simp only [Rvalue.core, Rvalue.leavesWords, decide_true, Bool.true_and, Bool.or_eq_true, decide_eq_true_eq,
        not_or] at leaves
      rw [evaluatedBits, Rvalue.type, valueBits_words leaves.1 leaves.2]
      exact ite_self _

theorem loadLocation_shapes {head : LinkId} (run : Runs (loadLocation type head) s v t)
    (small : t.program.values.size ≤ UInt32.size) :
    t.program.Shapes v type.rows (valueBits s.scope.nativeIntegers type) := by
  obtain ⟨_, _, -, -, run⟩ := loadLocation_ok run
  have loaded := emitLoad_shapes run small
  rwa [tested_eq_valueBits fun raw => (Bool.and_eq_true_iff.mp raw).2] at loaded

theorem evaluateTexture_shapes {texture : Texture} (declared : (Rvalue.texture texture).isDeclared = true)
    (run : Runs (evaluateTexture source texture) s v t) (small : t.program.values.size ≤ UInt32.size) (native : Bool) :
    t.program.Shapes v (Rvalue.texture texture).type.rows (valueBits native (Rvalue.texture texture).type) := by
  obtain ⟨op, type, sampler, coordinate, projector, comparator, offset, lod⟩ := texture
  simp only [evaluateTexture, runs_bind, runs_check] at run
  obtain ⟨samplerType, _, ⟨isSampler, rfl⟩, _, _, ⟨dest, rfl⟩, chain, _, -, _, _, -, _, _, -, _, _, -, _, _, -, _, _,
    -, ⟨_, _⟩, _, -, run⟩ := run
  have sampled : sampler.type.withoutArray = .sampler samplerType := by
    unfold samplerOf at isSampler
    split at isSampler
    · rename_i found
      rw [found, Except.ok.inj isSampler]
    · cases isSampler
  rw [Rvalue.isDeclared, sampled, decide_eq_true_eq] at declared
  split at run
  · exact (runs_abort run).elim
  · rw [Rvalue.type, declared, valueBits_textureDest dest]
    exact emitValue_shapes run small

theorem Runs.native_eq {α : Type} {m : Lower α} {a : α} (run : Runs m s a t) (plain : Stepwise .value m) :
    t.scope.nativeIntegers = s.scope.nativeIntegers := (plain.path run).steady.native

/-- An evaluated value is as wide as its type says, also in the bits of its components, but for conversions to other
float types than words when there are no native integers. -/
theorem evaluate_shapes : ∀ {r : Rvalue} {s t : State} {v : ValueId},
    Runs (evaluate source r) s v t → t.program.values.size ≤ UInt32.size → r.core.isDeclared = true →
    t.program.Shapes v r.type.rows (evaluatedBits s.scope.nativeIntegers r)
  | .place p, s, t, v, run, small, declared => by
    obtain ⟨chain, u, chainRun, loadRun⟩ := evaluate_place run
    rw [evaluatedBits_eq rfl, ← chainRun.native_eq (evaluates_placeChain source p).stepwise]
    exact loadLocation_shapes loadRun small
  | .constant l, s, t, v, run, small, declared => by
    obtain ⟨chain, u, chainRun, loadRun⟩ := evaluate_constant run
    rw [evaluatedBits_eq rfl, ← chainRun.native_eq (evaluates_constantChain l).stepwise]
    exact loadLocation_shapes loadRun small
  | .swizzle value lanes width, s, t, v, run, small, declared => by
    obtain ⟨w, u, valueRun, orderRun⟩ := evaluate_swizzle run
    have before := Nat.le_trans (orderRun.noLarger (by simp)).values small
    have shape := reorder_shapes (evaluate_shapes valueRun before declared) orderRun small
    rw [Rvalue.type, evaluatedBits, Rvalue.core, Rvalue.type, valueBits_vector]
    exact shape
  | .texture texture, s, t, v, run, small, declared => by
    simp only [evaluate] at run
    rw [evaluatedBits_eq rfl]
    exact evaluateTexture_shapes declared run small _
  | .expression op type operands, s, t, v, run, small, declared => by
    have operand {op : ExprOp} (number skip : Nat) : Stepwise .value (evaluateOperand source op number skip operands) :=
      (evaluates_evaluateOperand source op operands number skip).stepwise
    have interpolant (op : ExprOp) : Stepwise .value (interpolantChain source op operands) :=
      (evaluates_interpolantChain source op operands).stepwise
    cases evaluate_expression run with
    | uboLoad blockRun offsetRun loadRun =>
      have loaded := emitLoad_shapes loadRun small
      rw [tested_eq_valueBits id, offsetRun.native_eq (operand _ _), blockRun.native_eq (operand _ _)] at loaded
      rwa [evaluatedBits_operator (by simp)]
    | size blockRun sizeRun =>
      simp only [Rvalue.core, Rvalue.isDeclared, ne_eq, not_true_eq_false, decide_false, Bool.false_or,
        Bool.and_eq_true, decide_eq_true_eq] at declared
      rw [evaluatedBits_operator (by simp), valueBits_word declared.2, Rvalue.type,
        rows_of_isScalar declared.1]
      exact emitValue_shapes sizeRun small
    | centroid chainRun takeRun =>
      rw [evaluatedBits_operator (by simp), ← chainRun.native_eq (interpolant _)]
      exact emitValue_shapes takeRun small
    | sample named other chainRun sampleRun takeRun =>
      rw [evaluatedBits_operator (by rintro rfl; cases named), ← chainRun.native_eq (interpolant _),
        ← sampleRun.native_eq (operand _ _)]
      exact emitValue_shapes takeRun small
    | convert typed allRun convertRun =>
      rw [evaluatedBits_convert, ← allRun.native_eq (evaluates_evaluateAll source operands).stepwise]
      exact convert_shapes convertRun small
    | compute _ _ _ other allRun computeRun =>
      rw [evaluatedBits_operator other, ← allRun.native_eq (evaluates_evaluateAll source operands).stepwise]
      exact compute_shapes computeRun small

/-- With native integers an evaluated value has the rows and the bits of its type. Of size queries and textures only
the one that the selectors read must be declared as its instruction is. -/
theorem evaluate_follows_type {source : Source.Program} {r : Rvalue} (native : s.scope.nativeIntegers = true)
    (declared : r.core.isDeclared = true) (run : Runs (evaluate source r) s v t)
    (small : t.program.values.size ≤ UInt32.size) :
    ∃ d, t.program.value? v = some d ∧ d.width = r.type.rows ∧ d.bitSize = r.type.bitSize := by
  obtain ⟨d, found, width, bits⟩ := evaluate_shapes run small declared
  refine ⟨d, found, width, ?_⟩
  rw [bits, native, evaluatedBits, Bool.not_true, Bool.false_and, if_neg Bool.false_ne_true, valueBits_native]

/-! ### Values to look at -/

namespace Lamp

def samplerType : ShaderType := .sampler ⟨.dim2D, false, false, .float⟩

def isLit : Rvalue := .place (.var ⟨0⟩ (.scalar .bool))

def texel : Rvalue :=
  .texture ⟨.tex, .vector .float 4, .var ⟨1⟩ samplerType, some (.place (.var ⟨2⟩ (.vector .float 2))), none, none, none,
    .absent⟩

def shade : Rvalue :=
  .swizzle (.expression .csel (.vector .float 4)
    [.swizzle isLit (.all 0) 4, texel, .expression .neg (.vector .float 4) [texel]]) ⟨3, 1, 0, 0⟩ 2

def brightness : Rvalue := .expression .convert (.scalar .double) [.place (.var ⟨3⟩ (.scalar .int))]

def program : Source.Program where
  name := "lamp"
  layout := .fragment false .none false
  vars := #[
    { name := "isLit", type := .scalar .bool, mode := .uniform, interfaceBlock := some "Switch" },
    { name := "pattern", type := samplerType, mode := .uniform },
    { name := "spot", type := .vector .float 2, mode := .shaderIn },
    { name := "steps", type := .scalar .int, mode := .uniform }]

def declareAll : Lower Unit := do
  let _ ← declare program ⟨0⟩
  let _ ← declare program ⟨1⟩
  let _ ← declare program ⟨2⟩
  let _ ← declare program ⟨3⟩

def evaluated (native : Bool) (r : Rvalue) (good : State → ValueId → State → Bool) : Bool :=
  match outcome declareAll (.initial program { nativeIntegers := native }) with
  | (.error _, _) => false
  | (.ok _, s) =>
    match outcome (evaluate program r) s with
    | (.error _, _) => false
    | (.ok v, t) => good s v t

theorem evaluated_runs (native : Bool) (r : Rvalue) (good : State → ValueId → State → Bool)
    (h : evaluated native r good = true) :
    ∃ s v t, Runs declareAll (.initial program { nativeIntegers := native }) () s ∧
      Runs (evaluate program r) s v t ∧ good s v t = true := by
  unfold evaluated at h
  split at h
  · cases h
  rename_i s declared
  split at h
  · cases h
  rename_i v t found
  exact ⟨s, v, t, declared, found, h⟩

end Lamp

theorem evaluate_follows_type_shade : ∃ s v t d,
    Runs Lamp.declareAll (.initial Lamp.program {}) () s ∧ s.scope.nativeIntegers = true ∧
    Lamp.shade.core.isDeclared = true ∧ Runs (evaluate Lamp.program Lamp.shade) s v t ∧
    t.program.values.size ≤ UInt32.size ∧ t.program.value? v = some d ∧ d.width = 2 ∧ d.bitSize = 32 := by
  obtain ⟨s, v, t, declared, run, good⟩ := Lamp.evaluated_runs true Lamp.shade
    (fun s _ t => s.scope.nativeIntegers && t.program.values.size ≤ UInt32.size) (by decide +kernel)
  simp only [Bool.and_eq_true, decide_eq_true_eq] at good
  obtain ⟨d, found, width, bits⟩ := evaluate_follows_type good.1 (by decide) run good.2
  exact ⟨s, v, t, d, declared, good.1, by decide, run, good.2, found, width, bits⟩

/-! ### Words -/

theorem valueBits_core (native : Bool) : ∀ r : Rvalue, valueBits native r.core.type = valueBits native r.type
  | .swizzle value lanes width => by
    rw [Rvalue.core, valueBits_core native value, Rvalue.type, valueBits_vector]
  | .expression .. | .texture _ | .constant _ | .place _ => rfl

theorem valueBits_of_leavesWords (leaves : r.leavesWords = true) : valueBits false r.type ≠ 32 := by
  cases r with
  | expression op type operands =>
    simp only [Rvalue.leavesWords, Bool.and_eq_true, Bool.or_eq_true, decide_eq_true_eq] at leaves
    rw [Rvalue.type, valueBits_eq]
    rcases leaves.2 with half | double
    · rw [half]
      decide
    · rw [double]
      decide
  | swizzle | texture | constant | place => cases leaves

/-- Without native integers an evaluated value has the width of its type, as every load of the type has, exactly when it
is not a conversion to a float type that is not as wide as a word. Such a conversion gives a word. -/
theorem evaluate_width_iff {source : Source.Program} {r : Rvalue} (floats : s.scope.nativeIntegers = false)
    (declared : r.core.isDeclared = true) (run : Runs (evaluate source r) s v t)
    (small : t.program.values.size ≤ UInt32.size) :
    ∃ d, t.program.value? v = some d ∧ (d.bitSize = valueBits false r.type ↔ r.core.leavesWords = false) ∧
      (r.core.leavesWords = true → d.bitSize = 32) := by
  obtain ⟨d, found, -, bits⟩ := evaluate_shapes run small declared
  rw [floats] at bits
  cases leaves : r.core.leavesWords with
  | false =>
    rw [evaluatedBits_eq leaves] at bits
    exact ⟨d, found, by simp [bits], by rintro ⟨⟩⟩
  | true =>
    have word : d.bitSize = 32 := by simp [bits, evaluatedBits, leaves]
    have wide := valueBits_of_leavesWords leaves
    rw [valueBits_core] at wide
    refine ⟨d, found, ?_, fun _ => word⟩
    rw [word]
    simp [Ne.symm wide]

theorem evaluate_width_iff_shade : ∃ s v t d,
    Runs Lamp.declareAll (.initial Lamp.program { nativeIntegers := false }) () s ∧ s.scope.nativeIntegers = false ∧
    Lamp.shade.core.isDeclared = true ∧ Runs (evaluate Lamp.program Lamp.shade) s v t ∧
    t.program.values.size ≤ UInt32.size ∧ t.program.value? v = some d ∧
    d.bitSize = valueBits false Lamp.shade.type := by
  obtain ⟨s, v, t, declared, run, good⟩ := Lamp.evaluated_runs false Lamp.shade
    (fun s _ t => !s.scope.nativeIntegers && t.program.values.size ≤ UInt32.size) (by decide +kernel)
  simp only [Bool.and_eq_true, Bool.not_eq_true', decide_eq_true_eq] at good
  obtain ⟨d, found, same, -⟩ := evaluate_width_iff good.1 (by decide) run good.2
  exact ⟨s, v, t, d, declared, good.1, by decide, run, good.2, found, same.mpr (by decide)⟩

/-- An integer that is converted to a double is a word, but doubles are loaded with 64 bits. -/
theorem evaluate_converts_to_word : ∃ s v t d,
    Runs Lamp.declareAll (.initial Lamp.program { nativeIntegers := false }) () s ∧ s.scope.nativeIntegers = false ∧
    Lamp.brightness.core.isDeclared = true ∧ Runs (evaluate Lamp.program Lamp.brightness) s v t ∧
    t.program.value? v = some d ∧ d.bitSize = 32 ∧ valueBits false Lamp.brightness.type = 64 := by
  obtain ⟨s, v, t, declared, run, good⟩ := Lamp.evaluated_runs false Lamp.brightness
    (fun s v t => !s.scope.nativeIntegers && (t.program.value? v).any fun d => d.bitSize = 32)
    (by decide +kernel)
  simp only [Bool.and_eq_true, Bool.not_eq_true', Option.any_eq_true, decide_eq_true_eq] at good
  obtain ⟨floats, d, found, word⟩ := good
  exact ⟨s, v, t, d, declared, floats, by decide, run, found, word, by decide⟩

end Lowering

end ShaderSSA
