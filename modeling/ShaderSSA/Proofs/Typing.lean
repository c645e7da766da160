import Mathlib.Data.List.Forall2
import ShaderSSA.Proofs.Progress
import ShaderSSA.Proofs.Semantics

/-!
Well-typed values have a value: as many components as their type has rows, all of its base type. They can
also be evaluated, so lowering does not fail on them.
-/

namespace ShaderSSA
variable {type : ShaderType} {α β : Type} {ys : List β} {f : α → Option β} {xs : List α}

theorem mapM_total {P : β → Prop}
    (each : ∀ x ∈ xs, ∃ y, f x = some y ∧ P y) : ∃ ys, xs.mapM f = some ys ∧ ys.length = xs.length ∧ ∀ y ∈ ys, P y := by
  induction xs with
  | nil => exact ⟨[], by simp⟩
  | cons x xs ih =>
    obtain ⟨y, first, fine⟩ := each x List.mem_cons_self
    obtain ⟨ys, rest, length, all⟩ := ih fun z member => each z (List.mem_cons_of_mem _ member)
    exact ⟨y :: ys, by simp [List.mapM_cons, first, rest], by simp [length], by simpa using ⟨fine, all⟩⟩

theorem mapM_cons_eq_some {x : α} :
    (x :: xs).mapM f = some ys ↔ ∃ y, f x = some y ∧ ∃ zs, xs.mapM f = some zs ∧ y :: zs = ys := by
  simp [List.mapM_cons, Option.bind_eq_some_iff]

theorem mapM_length (h : xs.mapM f = some ys) : ys.length = xs.length := by
  induction xs generalizing ys with
  | nil =>
    obtain rfl : [] = ys := by simpa using h
    rfl
  | cons x xs ih =>
    obtain ⟨y, -, zs, rest, rfl⟩ := mapM_cons_eq_some.mp h
    rw [List.length_cons, List.length_cons, ih rest]

theorem mapM_getElem? (h : xs.mapM f = some ys) (i : Nat) : ys[i]? = xs[i]?.bind f := by
  induction xs generalizing ys i with
  | nil =>
    obtain rfl : [] = ys := by simpa using h
    rfl
  | cons x xs ih =>
    obtain ⟨y, first, rest, others, rfl⟩ := mapM_cons_eq_some.mp h
    cases i with
    | zero => simp [first]
    | succ i => simpa using ih others i

theorem mapM_transfer {γ : Type} {g : α → Option γ} {k : β → γ}
    (each : ∀ x ∈ xs, ∀ y, f x = some y → g x = some (k y)) (h : xs.mapM f = some ys) :
    xs.mapM g = some (ys.map k) := by
  induction xs generalizing ys with
  | nil =>
    obtain rfl : [] = ys := by simpa using h
    rfl
  | cons x xs ih =>
    obtain ⟨y, first, rest, others, rfl⟩ := mapM_cons_eq_some.mp h
    have later := ih (fun z member => each z (List.mem_cons_of_mem _ member)) others
    simp [List.mapM_cons, each x List.mem_cons_self y first, later]

theorem mapM_range {f : Nat → Option α} {n : Nat} (length : xs.length = n)
    (each : ∀ (i : Nat) (inside : i < xs.length), f i = some xs[i]) : (List.range n).mapM f = some xs := by
  subst length
  induction xs generalizing f with
  | nil => rfl
  | cons x xs ih =>
    have first := each 0 (by simp)
    have rest := @ih (fun i => f (i + 1)) fun i inside => each (i + 1) (by simpa using inside)
    rw [List.length_cons, List.range_succ_eq_map, List.mapM_cons, first, List.mapM_map]
    simp only [Function.comp_def, Nat.succ_eq_add_one, rest]
    rfl

@[simp] theorem ShaderType.rows_vector (base : BaseType) (rows : UInt8) : (vector base rows).rows = rows := rfl

@[simp] theorem ShaderType.baseType?_vector (base : BaseType) (rows : UInt8) :
    (vector base rows).baseType? = some base := rfl

theorem ShaderType.isWords_iff : type.isWords = true ↔
    ∃ base rows, type = .vector base rows ∧ base.isWord = true ∧ 1 ≤ rows ∧ rows ≤ 4 := by
  rw [isWords, Bool.and_eq_true, isValue_iff]
  constructor
  · rintro ⟨⟨base, rows, rfl, low, high⟩, word⟩
    exact ⟨base, rows, rfl, by simpa using word, low, high⟩
  · rintro ⟨base, rows, rfl, word, low, high⟩
    exact ⟨⟨base, rows, rfl, low, high⟩, by simpa using word⟩

namespace Source
variable {types : List ShaderType} {operands : List (List Datum)} {whole : Stored Datum} {op : ExprOp} {width : UInt8}
  {i : Nat}

/-- The components are those of a value of the type. -/
structure Spans (type : ShaderType) (data : List Datum) : Prop where
  length : data.length = type.rows.toNat
  bases : ∀ d ∈ data, type.baseType? = some d.base

theorem Spans.truth (v : Bool) : Spans (.scalar .bool) [.bool v] :=
  ⟨rfl, by simp [ShaderType.scalar, Datum.base]⟩

/-! ### Operators on components -/

/-- On components of types that the form takes, the function gives one of the type that the form says. -/
def Follows (form : OperatorForm) (f : List Datum → Option Datum) : Prop :=
  ∀ {data b}, form.result? (data.map Datum.base) = some b → ∃ d, f data = some d ∧ d.base = b

namespace Datum

theorem integer_typed {f g} : Follows .integer (integer f g) := by
  intro data b h
  match data with
  | [] | _ :: _ :: _ => simp [OperatorForm.result?] at h
  | [x] => cases x <;> simp_all [OperatorForm.result?, BaseType.isInt32, base, integer]

theorem integers_typed {f g} : Follows .integers (integers f g) := by
  intro data b h
  match data with
  | [] | [_] | _ :: _ :: _ :: _ => simp [OperatorForm.result?] at h
  | [x, y] => cases x <;> cases y <;> simp_all [OperatorForm.result?, BaseType.isInt32, base, integers]

theorem ordered_typed {f g} : Follows .ordered (ordered f g) := by
  intro data b h
  match data with
  | [] | [_] | _ :: _ :: _ :: _ => simp [OperatorForm.result?] at h
  | [x, y] => cases x <;> cases y <;> simp_all [OperatorForm.result?, BaseType.isInt32, base, ordered]

theorem truths_typed {f} : Follows .truths (truths f) := by
  intro data b h
  match data with
  | [] | [_] | _ :: _ :: _ :: _ => simp [OperatorForm.result?] at h
  | [x, y] => cases x <;> cases y <;> simp_all [OperatorForm.result?, base, truths]

theorem negated_typed : Follows .negated negated := by
  intro data b h
  match data with
  | [] | _ :: _ :: _ => simp [OperatorForm.result?] at h
  | [x] => cases x <;> simp_all [OperatorForm.result?, base, negated]

theorem equals_typed {expected : Bool} : Follows .equals (equals expected) := by
  intro data b h
  match data with
  | [] | [_] | _ :: _ :: _ :: _ => simp [OperatorForm.result?] at h
  | [x, y] =>
    simp only [List.map_cons, List.map_nil, OperatorForm.result?, Bool.and_eq_true, decide_eq_true_eq,
      Option.ite_none_right_eq_some, Option.some.injEq] at h
    exact ⟨_, if_pos h.1.2, h.2⟩

theorem selected_typed : Follows .selected selected := by
  intro data b h
  match data with
  | [] | [_] | [_, _] | _ :: _ :: _ :: _ :: _ => simp [OperatorForm.result?] at h
  | [.int _, _, _] | [.uint _, _, _] => simp [OperatorForm.result?, base] at h
  | [.bool c, x, y] =>
    simp only [List.map_cons, List.map_nil, OperatorForm.result?, base, Bool.and_eq_true, decide_eq_true_eq,
      Option.ite_none_right_eq_some, Option.some.injEq] at h
    refine ⟨if c then x else y, rfl, ?_⟩
    cases c with
    | true => exact h.2
    | false => exact h.1.2.symm.trans h.2

end Datum

theorem apply_typed {form : OperatorForm} (is : op.form? = some form) : Follows form op.apply := by
  cases op with
  | neg | bitNot =>
    cases is
    exact Datum.integer_typed
  | add | sub | mul | min | max | bitAnd | bitOr | bitXor =>
    cases is
    exact Datum.integers_typed
  | less | greater | lequal | gequal =>
    cases is
    exact Datum.ordered_typed
  | logicAnd | logicOr | logicXor =>
    cases is
    exact Datum.truths_typed
  | logicNot =>
    cases is
    exact Datum.negated_typed
  | equal | nequal =>
    cases is
    exact Datum.equals_typed
  | csel =>
    cases is
    exact Datum.selected_typed
  | _ => cases is

/-! ### Operators on operands -/

theorem combine_eq {form : OperatorForm} (is : op.form? = some form) (width : Nat)
    (operands : List (List Datum)) : combine op width operands =
      (List.range width).mapM fun i => (operands.mapM (spread · i)).bind op.apply := by
  unfold combine
  split
  · cases is
  · cases is
  · cases is
  · rfl

theorem spread_typed {data : List Datum} (spans : Spans type data)
    (wide : type.rows = 1 ∨ type.rows = width) (inside : i < width.toNat) :
    ∃ d, spread data i = some d ∧ type.baseType? = some d.base := by
  unfold spread
  split
  · rename_i one
    have there : 0 < data.length := by omega
    exact ⟨data[0], List.getElem?_eq_getElem there, spans.bases _ (List.getElem_mem there)⟩
  · rename_i many
    have there : i < data.length := by
      rcases wide with one | same
      · exact absurd (by rw [spans.length, one]; rfl) many
      · rw [spans.length, same]
        exact inside
    exact ⟨data[i], List.getElem?_eq_getElem there, spans.bases _ (List.getElem_mem there)⟩

theorem spreads_typed (spans : List.Forall₂ Spans types operands)
    (wide : ∀ type ∈ types, type.rows = 1 ∨ type.rows = width) (inside : i < width.toNat) :
    ∃ ds, operands.mapM (spread · i) = some ds ∧ types.mapM ShaderType.baseType? = some (ds.map Datum.base) := by
  induction spans with
  | nil => exact ⟨[], by simp⟩
  | cons first rest ih =>
    obtain ⟨d, chosen, base⟩ := spread_typed first (wide _ List.mem_cons_self) inside
    obtain ⟨ds, others, bases⟩ := ih fun type member => wide type (List.mem_cons_of_mem _ member)
    exact ⟨d :: ds, by simp [List.mapM_cons, chosen, others], by simp [List.mapM_cons, base, bases]⟩

theorem flatten_typed (spans : List.Forall₂ Spans types operands) {base : Option BaseType}
    (scalars : ∀ type ∈ types, type.rows = 1 ∧ type.baseType? = base) :
    operands.flatten.length = types.length ∧ ∀ d ∈ operands.flatten, base = some d.base := by
  induction spans with
  | nil => simp
  | cons first rest ih =>
    obtain ⟨length, bases⟩ := ih fun type member => scalars type (List.mem_cons_of_mem _ member)
    obtain ⟨one, same⟩ := scalars _ List.mem_cons_self
    refine ⟨?_, ?_⟩
    · rw [List.flatten_cons, List.length_append, length, first.length, one, List.length_cons]
      exact Nat.add_comm ..
    · intro d member
      rw [List.flatten_cons, List.mem_append] at member
      rcases member with here | there
      · exact same ▸ first.bases d here
      · exact bases d there

theorem areAlike_iff : areAlike types = true ↔ ∃ operand, types = [operand, operand] := by
  match types with
  | [] | [_] | _ :: _ :: _ :: _ => simp [areAlike]
  | [a, b] => simp [areAlike, eq_comm]

/-- The three kinds of operators: constructors, comparisons of whole vectors, and those that work on each
component by itself. -/
theorem accepts_cases (words : type.isWords = true)
    (h : accepts op type types = true) : (op = .vector ∧ 2 ≤ type.rows ∧ types.length = type.rows.toNat ∧
      ∀ operand ∈ types, operand.rows = 1 ∧ operand.baseType? = type.baseType?) ∨
    ((op = .allEqual ∨ op = .anyNequal) ∧ type = .scalar .bool ∧ ∃ operand, types = [operand, operand]) ∨
    (∃ form bases, op.form? = some form ∧ (∀ operand ∈ types, operand.rows = 1 ∨ operand.rows = type.rows) ∧
      types.mapM ShaderType.baseType? = some bases ∧ form.result? bases = type.baseType?) := by
  unfold accepts at h
  split at h
  · simp only [Bool.and_eq_true, decide_eq_true_eq, List.all_eq_true] at h
    exact .inl ⟨rfl, h.1.1, h.1.2, h.2⟩
  · simp only [Bool.and_eq_true, decide_eq_true_eq, areAlike_iff] at h
    exact .inr (.inl ⟨.inl rfl, h⟩)
  · simp only [Bool.and_eq_true, decide_eq_true_eq, areAlike_iff] at h
    exact .inr (.inl ⟨.inr rfl, h⟩)
  · simp only [Bool.and_eq_true, List.all_eq_true, Bool.or_eq_true, decide_eq_true_eq] at h
    obtain ⟨wide, result⟩ := h
    obtain ⟨base, rows, rfl, -⟩ := ShaderType.isWords_iff.mp words
    simp only [ShaderType.baseType?_vector, Option.bind_eq_some_iff] at result
    obtain ⟨form, is, bases, known, result⟩ := result
    exact .inr (.inr ⟨form, bases, is, wide, known, result⟩)

theorem combine_typed (words : type.isWords = true) (accepted : accepts op type types = true)
    (spans : List.Forall₂ Spans types operands) :
    ∃ data, combine op type.rows.toNat operands = some data ∧ Spans type data := by
  obtain ⟨rfl, -, length, scalars⟩ | ⟨is, rfl, operand, rfl⟩ | ⟨form, bases, is, wide, known, result⟩ :=
    accepts_cases words accepted
  · obtain ⟨size, bases⟩ := flatten_typed spans scalars
    exact ⟨_, rfl, size.trans length, bases⟩
  · match operands, spans with
    | [a, b], _ => rcases is with rfl | rfl <;> exact ⟨_, rfl, .truth _⟩
  · obtain ⟨base, rows, rfl, -⟩ := ShaderType.isWords_iff.mp words
    rw [combine_eq is]
    have each : ∀ i ∈ List.range rows.toNat,
        ∃ d, (operands.mapM (spread · i)).bind op.apply = some d ∧ d.base = base := by
      intro i inside
      obtain ⟨ds, chosen, same⟩ := spreads_typed spans wide (List.mem_range.mp inside)
      obtain rfl := Option.some.inj (known.symm.trans same)
      obtain ⟨d, applied, is⟩ := apply_typed is result
      exact ⟨d, by rw [chosen, Option.bind_some, applied], is⟩
    obtain ⟨data, computed, length, typed⟩ := mapM_total each
    refine ⟨data, computed, by rw [length, List.length_range]; rfl, ?_⟩
    intro d member
    rw [typed d member]
    rfl

/-! ### Places -/

theorem holdsAll_iff {fields : List (String × ShaderType)} {parts : List (Stored Datum)} :
    holdsAll fields parts = true ↔ List.Forall₂ (fun field part => holds field.2 part = true) fields parts := by
  induction fields generalizing parts with
  | nil => cases parts <;> simp [holdsAll]
  | cons field fields ih => cases parts <;> simp [holdsAll, ih]

theorem holds_field {part : ShaderType} {index : UInt32}
    (h : holds type whole = true) (is : type.field? index = some part) :
    ∃ inner, whole.part? index.toNat = some inner ∧ holds part inner = true := by
  cases type with
  | struct name fields =>
    simp only [ShaderType.field?, Option.map_eq_some_iff] at is
    obtain ⟨field, found, rfl⟩ := is
    cases whole with
    | vector components => simp [holds] at h
    | parts parts =>
      simp only [holds, holdsAll_iff] at h
      obtain ⟨inside, rfl⟩ := List.getElem?_eq_some_iff.mp found
      have there : index.toNat < parts.length := h.length_eq ▸ inside
      exact ⟨parts[index.toNat], List.getElem?_eq_getElem there, List.Forall₂.get h inside there⟩
  | _ => simp [ShaderType.field?] at is

theorem isColumn_vector {base : BaseType} {rows : UInt8} (h : isColumn base rows whole = true) :
    ∃ data, whole = .vector data ∧ data.length = rows.toNat ∧ ∀ d ∈ data, base.isWord = true → d.base = base := by
  cases whole with
  | parts parts => simp [isColumn] at h
  | vector data =>
    simp only [isColumn, Bool.and_eq_true, decide_eq_true_eq, List.all_eq_true, Bool.or_eq_true,
      Bool.not_eq_true'] at h
    refine ⟨data, rfl, h.1, fun d member word => ?_⟩
    exact (h.2 d member).resolve_left (by simp [word])

theorem holds_element {part : ShaderType} (h : holds type whole = true)
    (is : type.indexResult? = some part) (inside : i < type.extent) :
    ∃ inner, whole.part? i = some inner ∧ holds part inner = true := by
  cases type with
  | array element length =>
    obtain rfl := Option.some.inj is
    cases whole with
    | vector components => simp [holds] at h
    | parts parts =>
      simp only [holds, Bool.and_eq_true, decide_eq_true_eq, List.all_eq_true] at h
      have there : i < parts.length := h.1 ▸ inside
      exact ⟨parts[i], List.getElem?_eq_getElem there, h.2 _ (List.getElem_mem there)⟩
  | numeric base rows columns =>
    simp only [ShaderType.indexResult?] at is
    simp only [ShaderType.extent] at inside
    simp only [holds] at h
    by_cases matrix : 1 < columns
    · rw [if_pos matrix] at is inside h
      obtain rfl := Option.some.inj is
      cases whole with
      | vector components => simp at h
      | parts parts =>
        simp only [Bool.and_eq_true, decide_eq_true_eq, List.all_eq_true] at h
        have there : i < parts.length := h.1 ▸ inside
        refine ⟨parts[i], List.getElem?_eq_getElem there, ?_⟩
        simpa [ShaderType.vector, holds] using h.2 _ (List.getElem_mem there)
    · rw [if_neg matrix] at is inside h
      obtain ⟨-, same⟩ := Option.ite_none_right_eq_some.mp is
      obtain rfl := Option.some.inj same
      obtain ⟨data, rfl, length, bases⟩ := isColumn_vector h
      have there : i < data.length := length ▸ inside
      refine ⟨.vector [data[i]], by simp [Stored.part?, there], ?_⟩
      by_cases word : base.isWord = true
      · simp [ShaderType.scalar, ShaderType.vector, holds, isColumn, bases _ (List.getElem_mem there) word]
      · simp [ShaderType.scalar, ShaderType.vector, holds, isColumn, word]
  | _ => simp [ShaderType.indexResult?] at is

variable {source : Program} {seen : List VarId} {contents : Contents} {form : OperatorForm} {b base : BaseType}
  {bases : List BaseType} {op : ExprOp} {type : ShaderType}

theorem content_typed (suits : source.Suits contents) : ∀ (p : Place), p.isTyped source seen = true →
    ∃ whole, p.content contents = some whole ∧ holds p.type whole = true
  | .var id type, h => by
    simp only [Place.isTyped, Bool.and_eq_true, Option.any_eq_true, decide_eq_true_eq] at h
    obtain ⟨-, decl, found, rfl, -⟩ := h
    exact ⟨contents id, by rw [Place.content], suits found⟩
  | .field record index type, h => by
    simp only [Place.isTyped, Bool.and_eq_true, decide_eq_true_eq] at h
    obtain ⟨whole, read, fine⟩ := content_typed suits record h.2
    obtain ⟨inner, part, good⟩ := holds_field fine h.1
    exact ⟨inner, by rw [Place.content, read, Option.bind_some, part], good⟩
  | .element array index type, h => by
    simp only [Place.isTyped, Bool.and_eq_true, Option.any_eq_true, decide_eq_true_eq] at h
    obtain ⟨⟨is, reached⟩, i, literal, inside⟩ := h
    obtain ⟨whole, read, fine⟩ := content_typed suits array reached
    obtain ⟨inner, part, good⟩ := holds_element fine is inside
    exact ⟨inner, by simp [Place.content, read, literal, part], good⟩

/-! ### Values -/

theorem place_typed (suits : source.Suits contents) {p : Place} (words : p.type.isWords = true)
    (h : p.isTyped source seen = true) : ∃ data, p.content contents = some (.vector data) ∧ Spans p.type data := by
  obtain ⟨whole, read, fine⟩ := content_typed suits p h
  obtain ⟨base, rows, is, word, -⟩ := ShaderType.isWords_iff.mp words
  rw [is] at fine ⊢
  obtain ⟨data, rfl, length, bases⟩ := isColumn_vector (by simpa [ShaderType.vector, holds] using fine)
  exact ⟨data, read, length, fun d member => by rw [bases d member word]; rfl⟩

theorem datum?_typed (word : base.isWord = true) {s : Scalar} (is : s.base = base) :
    ∃ d, s.datum? = some d ∧ d.base = base := by
  subst is
  cases s <;> first | exact ⟨_, rfl, rfl⟩ | cases word

theorem constant_typed {l : Literal} (words : l.type.isWords = true) (shaped : l.isShaped = true) :
    ∃ scalars data, l = .components l.type scalars ∧ scalars.mapM Scalar.datum? = some data ∧ Spans l.type data := by
  obtain ⟨base, rows, is, word, -⟩ := ShaderType.isWords_iff.mp words
  cases l with
  | aggregate type elements =>
    obtain rfl : type = .vector base rows := is
    simp [Literal.isShaped, ShaderType.vector] at shaped
  | components type scalars =>
    obtain rfl : type = .vector base rows := is
    simp only [Literal.isShaped, ShaderType.baseType?_vector, Option.any_some, Bool.and_eq_true, decide_eq_true_eq,
      List.all_eq_true] at shaped
    obtain ⟨⟨count, -⟩, bases⟩ := shaped
    obtain ⟨data, read, length, typed⟩ := mapM_total fun s member => datum?_typed word (bases s member)
    refine ⟨scalars, data, rfl, read, ?_, fun d member => by rw [typed d member]; rfl⟩
    rw [length, count]
    exact Nat.mul_one _

theorem swizzle_typed {data : List Datum} (spans : Spans type data) {lanes : Lanes} (high : width ≤ 4)
    (inside : ∀ c ∈ lanes.take width, c < type.rows) (is : type.baseType? = some base) :
    ∃ picked, ((lanes.take width).mapM fun c => data[c.toNat]?) = some picked ∧ Spans (.vector base width) picked := by
  have each : ∀ c ∈ lanes.take width, ∃ d, data[c.toNat]? = some d ∧ type.baseType? = some d.base := by
    intro c member
    have there : c.toNat < data.length := spans.length ▸ UInt8.lt_iff_toNat_lt.mp (inside c member)
    exact ⟨data[c.toNat], List.getElem?_eq_getElem there, spans.bases _ (List.getElem_mem there)⟩
  obtain ⟨picked, read, length, bases⟩ := mapM_total each
  refine ⟨picked, read, ?_, fun d member => by rw [ShaderType.baseType?_vector, ← is, bases d member]⟩
  have four : width.toNat ≤ 4 := UInt8.le_iff_toNat_le.mp high
  simp [length, Lanes.take, Lanes.toList, Nat.min_eq_left four]

theorem isTyped_isWords : ∀ {r : Rvalue}, r.isTyped source seen = true → r.type.isWords = true
  | .place p, h | .constant l, h => by
    simp only [Rvalue.isTyped, Bool.and_eq_true] at h
    exact h.1
  | .swizzle value lanes width, h => by
    simp only [Rvalue.isTyped, Bool.and_eq_true, decide_eq_true_eq] at h
    obtain ⟨⟨⟨low, high⟩, -⟩, typed⟩ := h
    obtain ⟨base, rows, is, word, -⟩ := ShaderType.isWords_iff.mp (isTyped_isWords typed)
    exact ShaderType.isWords_iff.mpr ⟨base, width, by rw [Rvalue.type, is]; rfl, word, low, high⟩
  | .texture _, h => by simp [Rvalue.isTyped] at h
  | .expression op type operands, h => by
    simp only [Rvalue.isTyped, Bool.and_eq_true] at h
    exact h.1.1

mutual

/-- A well-typed value has a value of its type. -/
theorem value_typed (suits : source.Suits contents) : ∀ (r : Rvalue), r.isTyped source seen = true →
    ∃ data, r.value contents = some data ∧ Spans r.type data
  | .place p, h => by
    simp only [Rvalue.isTyped, Bool.and_eq_true] at h
    obtain ⟨data, read, spans⟩ := place_typed suits h.1 h.2
    exact ⟨data, by simp [Rvalue.value, read, Stored.components?], spans⟩
  | .constant l, h => by
    simp only [Rvalue.isTyped, Bool.and_eq_true] at h
    obtain ⟨scalars, data, is, read, spans⟩ := constant_typed h.1 h.2
    exact ⟨data, by rw [is, Rvalue.value, read], spans⟩
  | .swizzle value lanes width, h => by
    simp only [Rvalue.isTyped, Bool.and_eq_true, decide_eq_true_eq, List.all_eq_true] at h
    obtain ⟨⟨⟨-, high⟩, inside⟩, typed⟩ := h
    obtain ⟨data, read, spans⟩ := value_typed suits value typed
    obtain ⟨base, rows, is, -⟩ := ShaderType.isWords_iff.mp (isTyped_isWords typed)
    obtain ⟨picked, chosen, good⟩ := swizzle_typed spans high inside (by rw [is]; rfl)
    refine ⟨picked, by rw [Rvalue.value, read, Option.bind_some, chosen], ?_⟩
    rwa [Rvalue.type, is]
  | .texture _, h => by simp [Rvalue.isTyped] at h
  | .expression op type operands, h => by
    simp only [Rvalue.isTyped, Bool.and_eq_true] at h
    obtain ⟨operandData, read, spans⟩ := values_typed suits operands h.2
    obtain ⟨data, computed, good⟩ := combine_typed h.1.1 h.1.2 spans
    exact ⟨data, by rw [Rvalue.value, read, Option.bind_some, computed], good⟩

theorem values_typed (suits : source.Suits contents) : ∀ (rs : List Rvalue), allTyped source seen rs = true →
    ∃ operands, valuesOf contents rs = some operands ∧ List.Forall₂ Spans (rs.map Rvalue.type) operands
  | [], _ => ⟨[], by simp [valuesOf]⟩
  | r :: rs, h => by
    simp only [allTyped, Bool.and_eq_true] at h
    obtain ⟨data, first, spans⟩ := value_typed suits r h.1
    obtain ⟨operands, rest, all⟩ := values_typed suits rs h.2
    exact ⟨data :: operands, by simp [valuesOf, first, rest], .cons spans all⟩

end

/-! ### Well-typed values can be evaluated -/

theorem index?_word? {r : Rvalue} (h : r.index? = some i) : ∃ w, r.word? = some w ∧ w.toNat = i := by
  unfold Rvalue.index? at h
  split at h
  · exact ⟨_, rfl, Option.some.inj h⟩
  · rename_i v
    obtain ⟨positive, same⟩ := Option.ite_none_right_eq_some.mp h
    exact ⟨v.toUInt32, rfl, (Int32.toNat_toUInt32_of_le positive).trans (Option.some.inj same)⟩
  · cases h

theorem reachable_of_isTyped : ∀ {p : Place}, p.isTyped source seen = true → p.reachable seen = true
  | .var id type, h => by
    simp only [Place.isTyped, Bool.and_eq_true] at h
    rw [Place.reachable, h.1]
  | .field record index type, h => by
    simp only [Place.isTyped, Bool.and_eq_true] at h
    rw [Place.reachable, h.1, reachable_of_isTyped h.2, Bool.and_self]
  | .element array index type, h => by
    simp only [Place.isTyped, Bool.and_eq_true, Option.any_eq_true] at h
    obtain ⟨⟨is, reached⟩, i, literal, -⟩ := h
    obtain ⟨w, word, -⟩ := index?_word? literal
    have constant : index.constant?.isSome = true := by
      cases index <;> first | rfl | simp [Rvalue.word?, Rvalue.constant?] at word
    simp [Place.reachable, is, reachable_of_isTyped reached, constant, word]

theorem result?_length (h : form.result? bases = some b) : bases.length = form.arity := by
  unfold OperatorForm.result? at h
  split at h <;> first | rfl | cases h

theorem result?_ne_nil (h : form.result? bases = some b) : bases ≠ [] := by
  rintro rfl
  cases form <;> cases h

theorem form_takes (is : op.form? = some form) : op.isComputation = true ∧ op.takes form.arity = true := by
  cases op <;> cases is <;> exact ⟨rfl, rfl⟩

theorem accepts_takes (words : type.isWords = true) (h : accepts op type types = true) :
    op.isComputation = true ∧ op.takes types.length = true := by
  obtain ⟨base, rows, rfl, -, low, high⟩ := ShaderType.isWords_iff.mp words
  obtain ⟨rfl, two, length, -⟩ | ⟨is, -, operand, rfl⟩ | ⟨form, bases, is, -, known, result⟩ := accepts_cases words h
  · rw [length]
    rcases UInt8.width_cases low high with rfl | rfl | rfl | rfl
    · exact absurd two (by rw [ShaderType.rows_vector]; decide)
    all_goals exact ⟨rfl, rfl⟩
  · rcases is with rfl | rfl <;> exact ⟨rfl, rfl⟩
  · rw [← mapM_length known, result?_length result]
    exact form_takes is

mutual

theorem evaluable_of_isTyped : ∀ {r : Rvalue}, r.isTyped source seen = true → r.evaluable seen = true
  | .place p, h => by
    simp only [Rvalue.isTyped, ShaderType.isWords, Bool.and_eq_true] at h
    rw [Rvalue.evaluable, h.1.1, reachable_of_isTyped h.2, Bool.and_self]
  | .constant l, h => by
    simp only [Rvalue.isTyped, ShaderType.isWords, Bool.and_eq_true] at h
    rw [Rvalue.evaluable, h.1.1, h.2, Bool.and_self]
  | .swizzle value lanes width, h => by
    simp only [Rvalue.isTyped, Bool.and_eq_true] at h
    simp only [Rvalue.evaluable, h.1, evaluable_of_isTyped h.2, Bool.and_self]
  | .texture _, h => by simp [Rvalue.isTyped] at h
  | .expression op type operands, h => by
    simp only [Rvalue.isTyped, Bool.and_eq_true] at h
    obtain ⟨computation, takes⟩ := accepts_takes h.1.1 h.1.2
    have value : type.isValue = true := by
      have words := h.1.1
      simp only [ShaderType.isWords, Bool.and_eq_true] at words
      exact words.1
    rw [List.length_map] at takes
    simp only [Rvalue.evaluable, value, computation, takes, allEvaluable_of_allTyped h.2, Bool.and_self]

theorem allEvaluable_of_allTyped : ∀ {rs : List Rvalue}, allTyped source seen rs = true → allEvaluable seen rs = true
  | [], _ => by rw [allEvaluable]
  | r :: rs, h => by
    simp only [allTyped, Bool.and_eq_true] at h
    rw [allEvaluable, evaluable_of_isTyped h.1, allEvaluable_of_allTyped h.2, Bool.and_self]

end

end Source

end ShaderSSA
