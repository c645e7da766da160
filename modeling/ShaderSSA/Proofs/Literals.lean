import ShaderSSA.Proofs.Progress

/-!
What the constant of a literal holds. It nests as the literal does, and its components are the bit
patterns of the scalars. Nothing is lost where integers are native: the type of a literal and its
constant determine the literal.
-/

namespace ShaderSSA

/-- The types of the elements or fields of an aggregate, in order. -/
def ShaderType.partTypes? : ShaderType → Option (List ShaderType)
  | .array element length => some (.replicate length.toNat element)
  | .struct _ fields => some (fields.map Prod.snd)
  | _ => none

namespace Source

variable {bits : Nat} {ls : List Literal}

/-- An integer modulo two to the number of bits. -/
def wrapped (bits : Nat) (i : Int) : Nat := (i % (2 ^ bits : Nat)).toNat

/-- The bits that stand for a scalar: two's complement for integers, all ones for `true`. -/
def Scalar.pattern : Scalar → Nat
  | .u8 v => wrapped 8 v.toNat
  | .i8 v => wrapped 8 v.toInt
  | .u16 v => wrapped 16 v.toNat
  | .i16 v => wrapped 16 v.toInt
  | .u32 v => wrapped 32 v.toNat
  | .i32 v => wrapped 32 v.toInt
  | .u64 v => wrapped 64 v.toNat
  | .i64 v => wrapped 64 v.toInt
  | .f16 bits => bits.toNat
  | .f32 bits => bits.toNat
  | .f64 bits => bits.toNat
  | .bool v => if v then 0xffffffff else 0

namespace Literal

def element? : Literal → Nat → Option Literal
  | .aggregate _ elements, i => elements[i]?
  | .components .., _ => none

/-- The part of a literal at the end of a path of element numbers. -/
def descend (l : Literal) : List Nat → Option Literal
  | [] => some l
  | i :: path => (l.element? i).bind fun e => e.descend path

/-- What can be wrong with one node of a literal. -/
inductive Malformed : Literal → Prop where
  | notNumeric {type : ShaderType} {scalars : List Scalar} : type.baseType? = none →
      Malformed (.components type scalars)
  | componentCount {type : ShaderType} {scalars : List Scalar} :
      scalars.length ≠ type.rows.toNat * type.columns.toNat → Malformed (.components type scalars)
  | otherBase {type : ShaderType} {scalars : List Scalar} {base : BaseType} {s : Scalar} :
      type.baseType? = some base → s ∈ scalars → s.base ≠ base → Malformed (.components type scalars)
  | integerMatrix {type : ShaderType} {scalars : List Scalar} {base : BaseType} :
      type.baseType? = some base → base.isFloat = false → 1 < type.columns → Malformed (.components type scalars)
  | notAggregate {type : ShaderType} {elements : List Literal} : type.partTypes? = none →
      Malformed (.aggregate type elements)
  | elementCount {type : ShaderType} {elements : List Literal} {parts : List ShaderType} :
      type.partTypes? = some parts → elements.length ≠ parts.length → Malformed (.aggregate type elements)

mutual

/-- Every element has the type that its aggregate gives it. -/
def isNested : Literal → Bool
  | .components .. => true
  | .aggregate type elements => type.partTypes? = some (elements.map Literal.type) && allNested elements

def allNested : List Literal → Bool
  | [] => true
  | l :: ls => l.isNested && allNested ls

end

theorem allNested_iff : allNested ls = true ↔ ∀ l ∈ ls, l.isNested = true := by
  induction ls with
  | nil => simp [allNested]
  | cons l ls ih => simp [allNested, ih]

end Literal

/-! ### Patterns of scalars -/

theorem wrapped_lt (bits : Nat) (i : Int) : wrapped bits i < 2 ^ bits := by
  have positive : (0 : Int) < (2 ^ bits : Nat) := Int.natCast_pos.mpr (Nat.two_pow_pos bits)
  have below := Int.emod_lt_of_pos i positive
  have above := Int.emod_nonneg i (Int.ne_of_gt positive)
  exact (Int.toNat_lt above).mpr below

theorem wrapped_natCast {n : Nat} (small : n < 2 ^ bits) : wrapped bits n = n := by
  rw [wrapped, Int.emod_eq_of_lt (Int.natCast_nonneg n) (Int.ofNat_lt.mpr small), Int.toNat_natCast]

theorem wrapped_toInt (x : BitVec bits) : wrapped bits x.toInt = x.toNat := by
  rw [← wrapped_natCast x.isLt, wrapped, wrapped, BitVec.toInt_eq_toNat_bmod, Int.bmod_emod]

namespace Scalar

theorem pattern_lt (s : Scalar) : s.pattern < 2 ^ s.base.bitSize.toNat := by
  cases s with
  | bool v => cases v <;> decide
  | f16 bits | f32 bits | f64 bits => exact bits.toNat_lt
  | u8 v | i8 v | u16 v | i16 v | u32 v | i32 v | u64 v | i64 v => exact wrapped_lt _ _

theorem eq_of_pattern_eq {a b : Scalar} (base : a.base = b.base) (same : a.pattern = b.pattern) : a = b := by
  have unsigned {bits m n : Nat} (left : m < 2 ^ bits) (right : n < 2 ^ bits)
      (h : wrapped bits m = wrapped bits n) : m = n := by
    rwa [wrapped_natCast left, wrapped_natCast right] at h
  have signed {bits : Nat} {x y : BitVec bits} (h : wrapped bits x.toInt = wrapped bits y.toInt) : x = y := by
    rw [wrapped_toInt, wrapped_toInt] at h
    exact BitVec.eq_of_toNat_eq h
  cases a <;> cases b <;> cases base
  case u8.u8 v w => exact congrArg u8 (UInt8.toNat_inj.mp (unsigned v.toNat_lt w.toNat_lt same))
  case i8.i8 v w => exact congrArg i8 (Int8.toBitVec_inj.mp (signed same))
  case u16.u16 v w => exact congrArg u16 (UInt16.toNat_inj.mp (unsigned v.toNat_lt w.toNat_lt same))
  case i16.i16 v w => exact congrArg i16 (Int16.toBitVec_inj.mp (signed same))
  case u32.u32 v w => exact congrArg u32 (UInt32.toNat_inj.mp (unsigned v.toNat_lt w.toNat_lt same))
  case i32.i32 v w => exact congrArg i32 (Int32.toBitVec_inj.mp (signed same))
  case u64.u64 v w => exact congrArg u64 (UInt64.toNat_inj.mp (unsigned v.toNat_lt w.toNat_lt same))
  case i64.i64 v w => exact congrArg i64 (Int64.toBitVec_inj.mp (signed same))
  case f16.f16 v w => exact congrArg f16 (UInt16.toNat_inj.mp same)
  case f32.f32 v w => exact congrArg f32 (UInt32.toNat_inj.mp same)
  case f64.f64 v w => exact congrArg f64 (UInt64.toNat_inj.mp same)
  case bool.bool v w => cases v <;> cases w <;> first | rfl | cases same

end Scalar

end Source

namespace Lowering
open Source Target Lower

variable {c : Constant} {elements : List Literal} {native : Bool} {scalars : List Scalar} {type : ShaderType}
  {α β : Type} {base : BaseType} {bits : UInt64} {s : Scalar} {xs : List α} {ys : List β}

theorem scalarPattern?_base (h : scalarPattern? native base s = some bits) : s.base = base := by
  cases base <;> cases s <;> first | rfl | cases h

theorem scalarPattern?_pattern (h : scalarPattern? true base s = some bits) : bits.toNat = s.pattern := by
  obtain rfl := scalarPattern?_base h
  cases s with
  | bool v => cases v <;> cases h <;> rfl
  | f16 v | f32 v | f64 v => cases h; simp [Scalar.pattern]
  | u8 v | u16 v | u32 v | u64 v =>
    cases h
    simp [Scalar.pattern, wrapped_natCast v.toNat_lt]
  | i8 v | i16 v | i32 v | i64 v =>
    cases h
    exact (wrapped_toInt v.toBitVec).symm

/-! ### Constants of literals -/

theorem forall₂_found {R : α → β → Prop} (h : List.Forall₂ R xs ys) {i : Nat} {x : α}
    (found : xs[i]? = some x) : ∃ y, ys[i]? = some y ∧ R x y := by
  induction h generalizing i with
  | nil => simp at found
  | cons first _ ih =>
    cases i with
    | zero =>
      obtain rfl := Option.some.inj found
      exact ⟨_, rfl, first⟩
    | succ i => exact ih found

theorem forall₂_unique {R : α → β → Prop} {xs' : List α} (h : List.Forall₂ R xs ys) (h' : List.Forall₂ R xs' ys)
    (unique : ∀ {i : Nat} {x x' : α} {y : β}, xs[i]? = some x → xs'[i]? = some x' → R x y → R x' y → x = x') :
    xs = xs' := by
  induction h generalizing xs' with
  | nil => cases h'; rfl
  | cons first _ ih =>
    cases h' with
    | cons first' rest' =>
      have heads := unique (i := 0) rfl rfl first first'
      have tails := ih rest' fun {i} {_} {_} {_} left right => unique (i := i + 1) left right
      rw [heads, tails]

theorem elementCount_eq (type : ShaderType) : elementCount type =
    match type.partTypes? with
    | some parts => .ok parts.length
    | none => .error (.defect (.aggregateLiteral type)) := by
  cases type <;> simp [elementCount, ShaderType.partTypes?]

theorem elementCount_ok {n : Nat} (h : elementCount type = .ok n) :
    ∃ parts, type.partTypes? = some parts ∧ n = parts.length := by
  rw [elementCount_eq] at h
  split at h
  · rename_i parts found
    exact ⟨parts, found, (Except.ok.inj h).symm⟩
  · cases h

/-! ### Which literals have constants -/

theorem components_isShaped :
    (Literal.components type scalars).isShaped = true ↔
      ∃ base, type.baseType? = some base ∧ scalars.length = type.rows.toNat * type.columns.toNat ∧
        ¬ (1 < type.columns ∧ base.isFloat = false) ∧ ∀ s ∈ scalars, s.base = base := by
  simp only [Literal.isShaped, Option.any_eq_true, Bool.and_eq_true, decide_eq_true_eq, Bool.or_eq_true,
    List.all_eq_true, not_and, Bool.not_eq_false, UInt8.not_le.symm, and_assoc, Decidable.imp_iff_not_or, not_not]

theorem aggregate_isShaped :
    (Literal.aggregate type elements).isShaped = true ↔
      (∃ parts, type.partTypes? = some parts ∧ elements.length = parts.length) ∧
        ∀ e ∈ elements, e.isShaped = true := by
  rw [← allShaped_iff]
  cases type <;> simp [Literal.isShaped, ShaderType.partTypes?]

theorem components_malformed :
    (Literal.components type scalars).Malformed ↔ ¬ (Literal.components type scalars).isShaped = true := by
  rw [components_isShaped]
  constructor
  · rintro malformed ⟨base, numeric, length, shape, bases⟩
    cases malformed with
    | notNumeric is => rw [numeric] at is; cases is
    | componentCount other => exact other length
    | otherBase is member other =>
      obtain rfl := Option.some.inj (numeric.symm.trans is)
      exact other (bases _ member)
    | integerMatrix is integer wide =>
      obtain rfl := Option.some.inj (numeric.symm.trans is)
      exact shape ⟨wide, integer⟩
  · intro unshaped
    cases found : type.baseType? with
    | none => exact .notNumeric found
    | some base =>
      by_cases length : scalars.length = type.rows.toNat * type.columns.toNat
      · by_cases shape : 1 < type.columns ∧ base.isFloat = false
        · exact .integerMatrix found shape.2 shape.1
        · by_contra fine
          exact unshaped ⟨base, found, length, shape, fun s member =>
            by_contra fun other => fine (.otherBase found member other)⟩
      · exact .componentCount length

theorem aggregate_malformed :
    (Literal.aggregate type elements).Malformed ↔
      ¬ ∃ parts, type.partTypes? = some parts ∧ elements.length = parts.length := by
  constructor
  · rintro malformed ⟨parts, found, length⟩
    cases malformed with
    | notAggregate is => rw [found] at is; cases is
    | elementCount is other =>
      obtain rfl := Option.some.inj (found.symm.trans is)
      exact other length
  · intro unshaped
    cases found : type.partTypes? with
    | none => exact .notAggregate found
    | some parts => exact .elementCount found fun length => unshaped ⟨parts, found, length⟩

theorem forall_descend_aggregate {P : Literal → Prop} :
    (∀ path node, (Literal.aggregate type elements).descend path = some node → P node) ↔
      P (.aggregate type elements) ∧ ∀ e ∈ elements, ∀ path node, e.descend path = some node → P node := by
  constructor
  · intro all
    refine ⟨all [] _ rfl, fun e member path node found => ?_⟩
    obtain ⟨i, at_i⟩ := List.getElem?_of_mem member
    exact all (i :: path) node (by simp [Literal.descend, Literal.element?, at_i, found])
  · rintro ⟨here, below⟩ path node found
    cases path with
    | nil =>
      obtain rfl := Option.some.inj found
      exact here
    | cons i path =>
      simp only [Literal.descend, Literal.element?, Option.bind_eq_some_iff] at found
      obtain ⟨e, at_i, found⟩ := found
      exact below e (List.mem_of_getElem? at_i) path node found

theorem isShaped_iff_descend (l : Literal) : l.isShaped = true ↔
    ∀ path node, l.descend path = some node → ¬ node.Malformed := by
  induction l using Literal.nesting with
  | components type scalars =>
    rw [← not_not (a := _ = true), ← components_malformed]
    refine ⟨fun fine path node found => ?_, fun all => all [] _ rfl⟩
    cases path with
    | nil =>
      obtain rfl := Option.some.inj found
      exact fine
    | cons i path => simp [Literal.descend, Literal.element?] at found
  | aggregate type elements ih =>
    rw [aggregate_isShaped, forall_descend_aggregate (P := fun node => ¬ node.Malformed), aggregate_malformed, not_not]
    exact and_congr_right fun _ => forall₂_congr ih

theorem isShaped_of_constantOf (l : Literal) (h : constantOf native l = .ok c) : l.isShaped = true := by
  induction l using Literal.nesting generalizing c with
  | components type scalars =>
    obtain ⟨base, bits, numeric, length, shape, -, patterns⟩ := constantOf_components h
    refine components_isShaped.mpr ⟨base, numeric, length, shape, fun s member => ?_⟩
    obtain ⟨b, -, pattern⟩ := exists_of_forall₂ patterns member
    exact scalarPattern?_base pattern
  | aggregate type elements ih =>
    obtain ⟨count, cs, -, each⟩ := constantOf_aggregate.mp h
    refine aggregate_isShaped.mpr ⟨elementCount_ok count, fun e member => ?_⟩
    obtain ⟨k, -, is⟩ := exists_of_forall₂ each member
    exact ih e member is

theorem constantOf_defect (l : Literal) {f : Fault} (h : constantOf native l = .error f) : ∃ d, f = .defect d := by
  induction l using Literal.nesting with
  | components type scalars =>
    rw [constantOf, componentsConstant] at h
    cases found : type.baseType? with
    | none =>
      rw [found] at h
      exact ⟨_, (Except.error.inj h).symm⟩
    | some base =>
      simp only [found] at h
      split at h
      · exact ⟨_, (Except.error.inj h).symm⟩
      split at h
      · exact ⟨_, (Except.error.inj h).symm⟩
      rcases bind_eq_error h with failed | ⟨bits, -, h⟩
      · obtain ⟨s, -, failed⟩ := mapM_error failed
        unfold scalarPattern at failed
        split at failed
        · cases failed
        · exact ⟨_, (Except.error.inj failed).symm⟩
      · cases h
  | aggregate type elements ih =>
    rw [constantOf, elementCount_eq] at h
    rcases bind_eq_error h with failed | ⟨n, -, h⟩
    · cases found : type.partTypes? with
      | none =>
        rw [found] at failed
        exact ⟨_, (Except.error.inj failed).symm⟩
      | some parts => rw [found] at failed; cases failed
    · split at h
      · exact ⟨_, (Except.error.inj h).symm⟩
      · rcases bind_eq_error h with failed | ⟨cs, -, h⟩
        · obtain ⟨e, member, failed⟩ := mapM_error (constantsOf_eq native elements ▸ failed)
          exact ih e member failed
        · cases h

theorem constantOf_iff (native : Bool) (l : Literal) : (∃ c, constantOf native l = .ok c) ↔ l.isShaped = true :=
  ⟨fun ⟨_, h⟩ => isShaped_of_constantOf l h, constantOf_ok native⟩

theorem constantOf_refused (native : Bool) (l : Literal) :
    (∃ d, constantOf native l = .error (.defect d)) ↔ ¬ ∃ c, constantOf native l = .ok c := by
  cases result : constantOf native l with
  | ok c => simp
  | error f =>
    obtain ⟨d, rfl⟩ := constantOf_defect l result
    simp

/-! ### Reading a constant -/

/-- The constant of a part is the part of the constant. -/
theorem constantOf_descend {l : Literal} (h : constantOf native l = .ok c) (path : List Nat) :
    (l.descend path).map (constantOf native) = (c.descend path).map .ok := by
  induction path generalizing l c with
  | nil => simp [Literal.descend, Constant.descend, h]
  | cons i path ih =>
    cases l with
    | components type scalars =>
      obtain ⟨base, bits, -, -, -, rfl, -⟩ := constantOf_components h
      rfl
    | aggregate type elements =>
      obtain ⟨-, cs, rfl, each⟩ := constantOf_aggregate.mp h
      simp only [Literal.descend, Literal.element?, Constant.descend, Constant.element?]
      cases found : elements[i]? with
      | none =>
        have past : cs[i]? = none := by
          rw [List.getElem?_eq_none_iff, ← each.length_eq]
          exact List.getElem?_eq_none_iff.mp found
        simp [past]
      | some e =>
        obtain ⟨k, there, is⟩ := forall₂_found each found
        simp [there, ih is]

/-- The constant is read as components of the given type. -/
structure Holds (c : Constant) (type : ShaderType) (scalars : List Scalar) (base : BaseType) : Prop where
  numeric : type.baseType? = some base
  bitSize : c.bitSize? = some base.bitSize
  inside : ∀ {column row : UInt8}, column < type.columns → row < type.rows →
    ∃ s bits, scalars[column.toNat * type.rows.toNat + row.toNat]? = some s ∧
      c.component? column row = some bits ∧ bits.toNat = s.pattern ∧ bits.toNat < 2 ^ base.bitSize.toNat
  outside : ∀ {column row : UInt8}, ¬ (column < type.columns ∧ row < type.rows) → c.component? column row = none

theorem constantOf_holds (h : constantOf true (.components type scalars) = .ok c) :
    ∃ base, Holds c type scalars base := by
  obtain ⟨base, bits, numeric, length, -, rfl, patterns⟩ := constantOf_components h
  refine ⟨base, numeric, rfl, ?_, ?_⟩
  · intro column row inColumns inRows
    have inside : column.toNat * type.rows.toNat + row.toNat < scalars.length := by
      have next : (column.toNat + 1) * type.rows.toNat ≤ type.columns.toNat * type.rows.toNat :=
        Nat.mul_le_mul_right _ (UInt8.lt_iff_toNat_lt.mp inColumns)
      have small := UInt8.lt_iff_toNat_lt.mp inRows
      rw [length, Nat.mul_comm type.rows.toNat]
      rw [Nat.add_mul, Nat.one_mul] at next
      omega
    have found := List.getElem?_eq_getElem inside
    obtain ⟨b, there, pattern⟩ := forall₂_found patterns found
    have same := scalarPattern?_pattern pattern
    refine ⟨_, b, found, by simp [Constant.component?, inColumns, inRows, there], same, ?_⟩
    rw [same, ← scalarPattern?_base pattern]
    exact Scalar.pattern_lt _
  · intro column row beyond
    simp [Constant.component?, beyond]

/-- A literal whose elements have the types that their aggregates give them is known from its type and its constant. -/
theorem constantOf_injective (l : Literal) {m : Literal} (h : constantOf true l = .ok c)
    (h' : constantOf true m = .ok c) (type : l.type = m.type) (nested : l.isNested = true)
    (nested' : m.isNested = true) : l = m := by
  induction l using Literal.nesting generalizing m c with
  | components type scalars =>
    obtain ⟨base, bits, numeric, -, -, rfl, patterns⟩ := constantOf_components h
    cases m with
    | aggregate type' elements =>
      obtain ⟨-, cs, same, -⟩ := constantOf_aggregate.mp h'
      cases same
    | components type' scalars' =>
      cases type
      obtain ⟨base', bits', numeric', -, -, same, patterns'⟩ := constantOf_components h'
      obtain rfl := Option.some.inj (numeric.symm.trans numeric')
      obtain ⟨-, -, -, rfl⟩ := Constant.numeric.inj same
      congr 1
      refine forall₂_unique patterns patterns' fun _ _ left right => ?_
      refine Scalar.eq_of_pattern_eq ((scalarPattern?_base left).trans (scalarPattern?_base right).symm) ?_
      rw [← scalarPattern?_pattern left, ← scalarPattern?_pattern right]
  | aggregate type elements ih =>
    obtain ⟨-, cs, rfl, each⟩ := constantOf_aggregate.mp h
    cases m with
    | components type' scalars =>
      obtain ⟨base, bits, -, -, -, same, -⟩ := constantOf_components h'
      cases same
    | aggregate type' elements' =>
      cases type
      obtain ⟨-, cs', same, each'⟩ := constantOf_aggregate.mp h'
      obtain rfl := Constant.aggregate.inj same
      simp only [Literal.isNested, Bool.and_eq_true, decide_eq_true_eq, Literal.allNested_iff] at nested nested'
      have types := Option.some.inj (nested.1.symm.trans nested'.1)
      congr 1
      refine forall₂_unique each each' fun {i} e e' k found found' left right => ?_
      have same : e.type = e'.type := by simpa [found, found'] using congrArg (fun ts => ts[i]?) types
      exact ih e (List.mem_of_getElem? found) left right same (nested.2 e (List.mem_of_getElem? found))
        (nested'.2 e' (List.mem_of_getElem? found'))

/-- Constants exist for literals without malformed nodes and nest as their literals do. Where integers are native they
hold the patterns of the components, and with the type they determine the literal. -/
theorem constantOf_faithful (l : Literal) :
    (∀ native, ((∃ c, constantOf native l = .ok c) ↔ ∀ path node, l.descend path = some node → ¬ node.Malformed) ∧
      ((∃ d, constantOf native l = .error (.defect d)) ↔ ∃ path node, l.descend path = some node ∧ node.Malformed) ∧
      ∀ c path, constantOf native l = .ok c → (l.descend path).map (constantOf native) = (c.descend path).map .ok) ∧
    (∀ c path type scalars, constantOf true l = .ok c → l.descend path = some (.components type scalars) →
      ∃ k base, c.descend path = some k ∧ Holds k type scalars base) ∧
    ∀ m c, constantOf true l = .ok c → constantOf true m = .ok c → l.type = m.type → l.isNested = true →
      m.isNested = true → l = m := by
  refine ⟨fun native => ?_, fun c path type scalars h found => ?_, fun m c => constantOf_injective l⟩
  · have accepted := (constantOf_iff native l).trans (isShaped_iff_descend l)
    refine ⟨accepted, ?_, fun c path h => constantOf_descend h path⟩
    rw [constantOf_refused, accepted]
    simp
  · have there := constantOf_descend h path
    rw [found, Option.map_some, eq_comm, Option.map_eq_some_iff] at there
    obtain ⟨k, at_path, is⟩ := there
    obtain ⟨base, holds⟩ := constantOf_holds is.symm
    exact ⟨k, base, at_path, holds⟩

namespace Points

def point : ShaderType := .struct "Point" [("at", .vector .float 2), ("level", .scalar .int8), ("seen", .scalar .bool)]

def literal : Literal := .aggregate (.array point 2) [
  .aggregate point [.components (.vector .float 2) [.f32 0x3f800000, .f32 0], .components (.scalar .int8) [.i8 5],
    .bool false],
  .aggregate point [.components (.vector .float 2) [.f32 0xc0000000, .f32 1], .components (.scalar .int8) [.i8 (-3)],
    .bool true]]

def constant : Constant := .aggregate [
  .aggregate [.numeric 32 1 2 [0x3f800000, 0], .numeric 8 1 1 [5], .numeric 32 1 1 [0]],
  .aggregate [.numeric 32 1 2 [0xc0000000, 1], .numeric 8 1 1 [0xfd], .numeric 32 1 1 [0xffffffff]]]

def ragged : Literal := .aggregate (.array point 1) [.aggregate point []]

end Points

theorem constantOf_faithful_points :
    constantOf true Points.literal = .ok Points.constant ∧ Points.literal.isNested = true ∧
      (∃ k base, Points.constant.descend [1, 1] = some k ∧ Holds k (.scalar .int8) [.i8 (-3)] base) ∧
      (∀ native, ∃ d, constantOf native Points.ragged = .error (.defect d)) ∧
      ∀ m, constantOf true m = .ok Points.constant → m.type = .array Points.point 2 → m.isNested = true →
        m = Points.literal := by
  have is : constantOf true Points.literal = .ok Points.constant := rfl
  have nested : Points.literal.isNested = true := by decide
  obtain ⟨-, reads, unique⟩ := constantOf_faithful Points.literal
  refine ⟨is, nested, reads _ [1, 1] _ _ is rfl, fun native => ?_, fun m same type other => ?_⟩
  · exact ((constantOf_faithful Points.ragged).1 native).2.1.mpr ⟨[0], _, rfl, .elementCount rfl (by decide)⟩
  · exact (unique m _ is same type.symm nested other).symm

end Lowering

end ShaderSSA
