import ShaderSSA.Proofs.Execution

/-!
Opcodes compute what their operators say. Sources read operands componentwise, so that a scalar stands for a vector;
the opcodes are correct on booleans because these are all ones or zero.
-/

namespace ShaderSSA

namespace Source.Datum

variable {d : Datum} {data : List Datum}

theorem word_bool (v : Bool) : (Datum.bool v).word = truth v := rfl

theorem truth_inj {a b : Bool} : truth a = truth b ↔ a = b := by cases a <;> cases b <;> decide

theorem toUInt32_inj {a b : Int32} : a.toUInt32 = b.toUInt32 ↔ a = b :=
  ⟨fun same => by simpa using congrArg UInt32.toInt32 same, congrArg _⟩

theorem word_inj {a b : Datum} (same : a.base = b.base) : a.word = b.word ↔ a = b := by
  cases a <;> cases b <;> simp_all [base, word, truth_inj, toUInt32_inj]

theorem map_word_inj {base : BaseType} {xs ys : List Datum} (left : ∀ d ∈ xs, d.base = base)
    (right : ∀ d ∈ ys, d.base = base) : xs.map word = ys.map word ↔ xs = ys := by
  induction xs generalizing ys with
  | nil => cases ys <;> simp
  | cons x xs ih =>
    cases ys with
    | nil => simp
    | cons y ys =>
      simp only [List.mem_cons, forall_eq_or_imp] at left right
      simp only [List.map_cons, List.cons.injEq, word_inj (left.1.trans right.1.symm), ih left.2 right.2]

theorem integer_some {f : Int32 → Int32} {g : UInt32 → UInt32} (h : integer f g data = some d) :
    (∃ a, data = [.int a] ∧ d = .int (f a)) ∨ ∃ a, data = [.uint a] ∧ d = .uint (g a) := by
  unfold integer at h
  split at h
  · exact .inl ⟨_, rfl, (Option.some.inj h).symm⟩
  · exact .inr ⟨_, rfl, (Option.some.inj h).symm⟩
  · cases h

theorem integers_some {f : Int32 → Int32 → Int32} {g : UInt32 → UInt32 → UInt32} (h : integers f g data = some d) :
    (∃ a b, data = [.int a, .int b] ∧ d = .int (f a b)) ∨ ∃ a b, data = [.uint a, .uint b] ∧ d = .uint (g a b) := by
  unfold integers at h
  split at h
  · exact .inl ⟨_, _, rfl, (Option.some.inj h).symm⟩
  · exact .inr ⟨_, _, rfl, (Option.some.inj h).symm⟩
  · cases h

theorem ordered_some {f : Int32 → Int32 → Bool} {g : UInt32 → UInt32 → Bool} (h : ordered f g data = some d) :
    (∃ a b, data = [.int a, .int b] ∧ d = .bool (f a b)) ∨ ∃ a b, data = [.uint a, .uint b] ∧ d = .bool (g a b) := by
  unfold ordered at h
  split at h
  · exact .inl ⟨_, _, rfl, (Option.some.inj h).symm⟩
  · exact .inr ⟨_, _, rfl, (Option.some.inj h).symm⟩
  · cases h

theorem truths_some {f : Bool → Bool → Bool} (h : truths f data = some d) :
    ∃ a b, data = [.bool a, .bool b] ∧ d = .bool (f a b) := by
  unfold truths at h
  split at h
  · exact ⟨_, _, rfl, (Option.some.inj h).symm⟩
  · cases h

theorem negated_some (h : negated data = some d) : ∃ a, data = [.bool a] ∧ d = .bool !a := by
  unfold negated at h
  split at h
  · exact ⟨_, rfl, (Option.some.inj h).symm⟩
  · cases h

theorem equals_some {expected : Bool} (h : equals expected data = some d) :
    ∃ a b, data = [a, b] ∧ a.base = b.base ∧ d = .bool (decide (a = b) == expected) := by
  unfold equals at h
  split at h
  · obtain ⟨same, is⟩ := Option.ite_none_right_eq_some.mp h
    exact ⟨_, _, rfl, same, (Option.some.inj is).symm⟩
  · cases h

theorem selected_some (h : selected data = some d) : ∃ c a b, data = [.bool c, a, b] ∧ d = if c then a else b := by
  unfold selected at h
  split at h
  · exact ⟨_, _, _, rfl, (Option.some.inj h).symm⟩
  · cases h

end Source.Datum

namespace Lowering
open Source Target Lower
variable {op : ExprOp}

/-! ### Opcodes -/

def exchanged {α : Type} (op : ExprOp) (xs : List α) : List α :=
  match xs with
  | a :: b :: rest => if op = .greater || op = .lequal then b :: a :: rest else xs
  | _ => xs

theorem exchanged_map {α β : Type} (op : ExprOp) (f : α → β) (xs : List α) :
    (exchanged op xs).map f = exchanged op (xs.map f) := by
  match xs with
  | [] | [_] => rfl
  | a :: b :: rest =>
    simp only [exchanged, List.map_cons]
    split <;> rfl

theorem mem_exchanged {α : Type} {x : α} {xs : List α} (h : x ∈ exchanged op xs) : x ∈ xs := by
  match xs with
  | [] | [_] => exact h
  | a :: b :: rest =>
    simp only [exchanged] at h
    split at h
    · exact (List.Perm.swap a b rest).mem_iff.mp h
    · exact h

theorem orderOperands_exchanged {values ordered : List ValueId}
    (h : orderOperands op values = .ok ordered) : ordered = exchanged op values := by
  unfold orderOperands at h
  split at h
  · rename_i is
    match values with
    | [] | [_] => cases h
    | a :: b :: rest =>
      rw [exchanged, if_pos is]
      exact (Except.ok.inj h).symm
  · rename_i is
    obtain rfl := Except.ok.inj h
    match values with
    | [] | [_] => rfl
    | a :: b :: rest => rw [exchanged, if_neg is]

/-- The opcode that is chosen for an operator on components computes it on their words. -/
theorem lanewise_apply {form : OperatorForm} (is : op.form? = some form) {data : List Datum} {d : Datum}
    (applied : op.apply data = some d) {choice : Selection} (native : choice.nativeIntegers = true)
    (input : data.head?.map Datum.base = some choice.input) (output : d.base = choice.output) {opcode : AluOp}
    (chosen : choice.opcode op = .ok opcode) :
    opcode.shape = .lanes ∧ opcode.lanewise ((exchanged op data).map Datum.word) = some d.word := by
  cases op with
  | neg | bitNot =>
    obtain ⟨a, rfl, rfl⟩ | ⟨a, rfl, rfl⟩ := Datum.integer_some applied
    all_goals
      simp only [Selection.opcode, Selection.byOutput, Selection.logic, native, ← output, Datum.base] at chosen
      obtain rfl := Except.ok.inj chosen
      exact ⟨rfl, by simp [exchanged, Datum.word, AluOp.lanewise, BaseType.isFloat, BaseType.isSignedInt]⟩
  | add | sub | mul | bitAnd | bitOr | bitXor =>
    obtain ⟨a, b, rfl, rfl⟩ | ⟨a, b, rfl, rfl⟩ := Datum.integers_some applied
    all_goals
      simp only [Selection.opcode, Selection.byOutput, Selection.logic, native, ← output, Datum.base] at chosen
      obtain rfl := Except.ok.inj chosen
      exact ⟨rfl, by simp [exchanged, Datum.word, AluOp.lanewise, BaseType.isFloat, BaseType.isSignedInt]⟩
  | min | max =>
    -- these are the only ones of two operands whose opcode depends on the sign
    obtain ⟨a, b, rfl, rfl⟩ | ⟨a, b, rfl, rfl⟩ := Datum.integers_some applied
    all_goals
      simp only [Selection.opcode, Selection.byOutput, native, ← output, Datum.base] at chosen
      obtain rfl := Except.ok.inj chosen
      refine ⟨rfl, ?_⟩
    · simp only [exchanged, List.map_cons, List.map_nil, Datum.word, reduceCtorEq, decide_false, Bool.or_self,
        Bool.false_eq_true, if_false, BaseType.isFloat, BaseType.isSignedInt, Bool.not_true, AluOp.lanewise,
        Int32.toInt32_toUInt32, if_true]
      exact congrArg some (apply_ite Int32.toUInt32 (a ≤ b) _ _).symm
    · rfl
  | less | greater | lequal | gequal =>
    obtain ⟨a, b, rfl, rfl⟩ | ⟨a, b, rfl, rfl⟩ := Datum.ordered_some applied
    all_goals
      simp only [List.head?_cons, Option.map_some, Option.some.injEq, Datum.base] at input
      simp only [Selection.opcode, Selection.comparison, native, ← input] at chosen
      obtain rfl := Except.ok.inj chosen
      exact ⟨rfl, by simp [exchanged, Datum.word, AluOp.lanewise, BaseType.isFloat, BaseType.isSignedInt,
        BaseType.isBoolean]⟩
  | logicAnd | logicOr | logicXor =>
    obtain ⟨a, b, rfl, rfl⟩ := Datum.truths_some applied
    simp only [Selection.opcode, Selection.logic, native] at chosen
    obtain rfl := Except.ok.inj chosen
    exact ⟨rfl, by cases a <;> cases b <;> rfl⟩
  | logicNot =>
    obtain ⟨a, rfl, rfl⟩ := Datum.negated_some applied
    simp only [Selection.opcode, Selection.logic, native] at chosen
    obtain rfl := Except.ok.inj chosen
    exact ⟨rfl, by cases a <;> rfl⟩
  | equal | nequal =>
    obtain ⟨a, b, rfl, same, rfl⟩ := Datum.equals_some applied
    simp only [List.head?_cons, Option.map_some, Option.some.injEq] at input
    simp only [Selection.opcode, Selection.comparison, native, ← input] at chosen
    obtain rfl := Except.ok.inj chosen
    have integer : a.base.isFloat = false := by cases a <;> rfl
    exact ⟨by simp [integer, AluOp.shape],
      by simp [exchanged, integer, AluOp.lanewise, Datum.word_inj same, Datum.word_bool]⟩
  | csel =>
    obtain ⟨c, a, b, rfl, rfl⟩ := Datum.selected_some applied
    simp only [Selection.opcode, Selection.logic, native] at chosen
    obtain rfl := Except.ok.inj chosen
    exact ⟨rfl, by cases c <;> rfl⟩
  | _ => cases is

/-! ### Sources -/

variable {regs : RegisterFile} {i : Nat} {a : Operand} {args : List Operand} {bases : List BaseType}
  {types : List ShaderType}

/-- An evaluated operand: the value that holds it, and its components. -/
abbrev Operand := ValueId × List Datum

def Operand.words (a : Operand) : ValueId × List UInt32 := (a.1, a.2.map Datum.word)

def Operand.src (a : Operand) : AluSrc := .broadcast a.1 (UInt8.ofNat a.2.length)

theorem lanes_getElem? (lanes : Lanes) {width : UInt8} (inside : i < width.toNat) :
    lanes.toList[i]? = (lanes.take width)[i]? := by
  rw [Lanes.take, List.getElem?_take_of_lt inside]

theorem read_src (is : regs a.1 = a.2.map Datum.word) (four : i < 4) {d : Datum} (h : spread a.2 i = some d)
    (small : a.2.length ≤ 4) : a.src.read regs i = some d.word := by
  have lane : a.src.lanes.toList[i]? = some (UInt8.ofNat (min i ((UInt8.ofNat a.2.length).toNat - 1))) := by
    match i, four with
    | 0, _ | 1, _ | 2, _ | 3, _ => rfl
  have bytes : UInt8.size = 256 := rfl
  have width : (UInt8.ofNat a.2.length).toNat = a.2.length := UInt8.toNat_ofNat_of_lt' (by omega)
  have index : (UInt8.ofNat (min i (a.2.length - 1))).toNat = min i (a.2.length - 1) :=
    UInt8.toNat_ofNat_of_lt' (by omega)
  have value : a.src.value = a.1 := rfl
  rw [AluSrc.read, lane, Option.bind_some, width, index, value, is, List.getElem?_map]
  unfold spread at h
  split at h
  · rename_i one
    rw [one, Nat.sub_self, Nat.min_zero, h, Option.map_some]
  · obtain ⟨inside, -⟩ := List.getElem?_eq_some_iff.mp h
    rw [Nat.min_eq_left (by omega), h, Option.map_some]

theorem read_srcs (is : ∀ a ∈ args, regs a.1 = a.2.map Datum.word) (small : ∀ a ∈ args, a.2.length ≤ 4) (four : i < 4)
    {ds : List Datum} (h : (args.map Prod.snd).mapM (spread · i) = some ds) :
    (args.map Operand.src).mapM (AluSrc.read regs · i) = some (ds.map Datum.word) := by
  induction args generalizing ds with
  | nil =>
    obtain rfl : [] = ds := by simpa using h
    rfl
  | cons a args ih =>
    obtain ⟨d, first, rest, others, rfl⟩ := mapM_cons_eq_some.mp h
    simp only [List.mem_cons, forall_eq_or_imp] at is small
    simp [List.mapM_cons, read_src is.1 four first small.1, ih is.2 small.2 others]

theorem read_all (is : regs a.1 = a.2.map Datum.word) (small : a.2.length ≤ 4) :
    (List.range a.2.length).mapM (a.src.read regs) = some (a.2.map Datum.word) := by
  refine mapM_range (by simp) fun i inside => ?_
  have there : i < a.2.length := by simpa using inside
  have component : spread a.2 i = some a.2[i] := by
    unfold spread
    split
    · obtain rfl : i = 0 := by omega
      exact List.getElem?_eq_getElem there
    · exact List.getElem?_eq_getElem there
  rw [read_src is (by omega) component small, List.getElem_map]

theorem read_firsts (is : ∀ a ∈ args, regs a.1 = a.2.map Datum.word) (one : ∀ a ∈ args, a.2.length = 1) :
    (args.map fun a => (⟨a.1, .all 0⟩ : AluSrc)).mapM (AluSrc.read regs · 0) =
      some ((args.map Prod.snd).flatten.map Datum.word) := by
  induction args with
  | nil => rfl
  | cons a args ih =>
    simp only [List.mem_cons, forall_eq_or_imp] at is one
    obtain ⟨d, single⟩ := List.length_eq_one_iff.mp one.1
    have first : AluSrc.read regs ⟨a.1, .all 0⟩ 0 = some d.word := by
      simp [AluSrc.read, Lanes.all, Lanes.toList, is.1, single]
    simp [List.mapM_cons, first, ih is.2 one.2, single]

/-! ### Operators -/

theorem exchanged_mapM {α β : Type} (op : ExprOp) {f : α → Option β} {xs : List α} {ys : List β}
    (h : xs.mapM f = some ys) : (exchanged op xs).mapM f = some (exchanged op ys) := by
  match xs with
  | [] | [_] =>
    have length := mapM_length h
    match ys, length with
    | [], _ | [_], _ => exact h
  | a :: b :: rest =>
    obtain ⟨x, first, _, rest, rfl⟩ := mapM_cons_eq_some.mp h
    obtain ⟨y, second, zs, others, rfl⟩ := mapM_cons_eq_some.mp rest
    simp only [exchanged]
    split <;> simp [List.mapM_cons, first, second, others]

def choiceOf (base : BaseType) (types : List ShaderType) : Selection where
  nativeIntegers := true
  input := (types.head?.bind ShaderType.baseType?).getD base
  output := base
  width := (types.head?.map ShaderType.rows).getD 1
  arity := types.length

theorem choiceOf_input (base : BaseType) (known : types.mapM ShaderType.baseType? = some bases) (any : bases ≠ []) :
    bases.head? = some (choiceOf base types).input := by
  cases types with
  | nil => exact absurd (by simpa using known.symm) any
  | cons first types =>
    obtain ⟨b, is, rest, -, rfl⟩ := mapM_cons_eq_some.mp known
    simp [choiceOf, is]

/-- How an operator reads its operands. -/
def srcsFor (op : ExprOp) (args : List Operand) : List AluSrc :=
  if op = .vector then args.map fun a => ⟨a.1, .all 0⟩ else (exchanged op args).map Operand.src

theorem spans_mem {operands : List (List Datum)} (spans : List.Forall₂ Spans types operands) {data : List Datum}
    (member : data ∈ operands) : ∃ type ∈ types, Spans type data := by
  induction spans with
  | nil => cases member
  | cons first rest ih =>
    rcases List.mem_cons.mp member with rfl | later
    · exact ⟨_, List.mem_cons_self, first⟩
    · obtain ⟨type, among, span⟩ := ih later
      exact ⟨type, List.mem_cons_of_mem _ among, span⟩

section
variable {op : ExprOp} {types : List ShaderType} {args : List Operand} {base : BaseType} {rows : UInt8}
  {opcode : AluOp} {data : List Datum}

theorem lanes_perform {form : OperatorForm} (is : op.form? = some form)
    (wide : ∀ operand ∈ types, operand.rows = 1 ∨ operand.rows = rows)
    (known : types.mapM ShaderType.baseType? = some bases) (result : form.result? bases = some base)
    (spans : List.Forall₂ Spans types (args.map Prod.snd)) (low : 1 ≤ rows) (high : rows ≤ 4)
    (holds : ∀ a ∈ args, regs a.1 = a.2.map Datum.word) (small : ∀ a ∈ args, a.2.length ≤ 4)
    (chosen : (choiceOf base types).opcode op = .ok opcode)
    (value : combine op rows.toNat (args.map Prod.snd) = some data) :
    opcode.perform regs (srcsFor op args) rows.toNat = some (data.map Datum.word) := by
  have four : rows.toNat ≤ 4 := UInt8.le_iff_toNat_le.mp high
  have notVector : op ≠ .vector := by
    rintro rfl
    cases is
  have each : ∀ i < rows.toNat, ∃ ds d, (args.map Prod.snd).mapM (spread · i) = some ds ∧ op.apply ds = some d ∧
      opcode.shape = .lanes ∧ opcode.lanewise ((exchanged op ds).map Datum.word) = some d.word := by
    intro i inside
    obtain ⟨ds, components, same⟩ := spreads_typed spans wide inside
    obtain rfl := Option.some.inj (known.symm.trans same)
    obtain ⟨d, applied, output⟩ := apply_typed is result
    have input : ds.head?.map Datum.base = some (choiceOf base types).input := by
      rw [← List.head?_map]
      exact choiceOf_input base known (result?_ne_nil result)
    exact ⟨ds, d, components, applied, lanewise_apply is applied rfl input output chosen⟩
  obtain ⟨-, -, -, -, shape, -⟩ := each 0 (UInt8.le_iff_toNat_le.mp low)
  rw [combine_eq is] at value
  rw [srcsFor, if_neg notVector, AluOp.perform, shape]
  refine mapM_transfer ?_ value
  intro i member d computed
  have inside := List.mem_range.mp member
  obtain ⟨ds, d', components, applied, -, words⟩ := each i inside
  rw [components, Option.bind_some, applied] at computed
  obtain rfl := Option.some.inj computed
  have read := exchanged_mapM op (read_srcs holds small (Nat.lt_of_lt_of_le inside four) components)
  rw [← exchanged_map, ← exchanged_map] at read
  rw [read, Option.bind_some, words]

theorem vector_perform (two : 2 ≤ rows) (high : rows ≤ 4) (length : types.length = rows.toNat)
    (spans : List.Forall₂ Spans types (args.map Prod.snd)) (scalars : ∀ operand ∈ types, operand.rows = 1)
    (holds : ∀ a ∈ args, regs a.1 = a.2.map Datum.word)
    (chosen : (choiceOf base types).opcode .vector = .ok opcode) :
    opcode.perform regs (srcsFor .vector args) rows.toNat = some ((args.map Prod.snd).flatten.map Datum.word) := by
  have count : args.length = types.length := by rw [spans.length_eq, List.length_map]
  have one : ∀ a ∈ args, a.2.length = 1 := by
    intro a member
    obtain ⟨operand, among, span⟩ := spans_mem spans (List.mem_map_of_mem member)
    rw [span.length, scalars operand among]
    rfl
  have shape : opcode.shape = .gather args.length := by
    simp only [Selection.opcode, choiceOf, ← count] at chosen
    rw [count, length]
    rw [count, length] at chosen
    rcases UInt8.width_cases (UInt8.le_trans (by decide) two) high with rfl | rfl | rfl | rfl
    · exact absurd two (by decide)
    all_goals
      obtain rfl := Except.ok.inj chosen
      rfl
  rw [srcsFor, if_pos rfl, AluOp.perform, shape]
  simp only [List.length_map, if_true]
  exact read_firsts holds one

theorem fused_perform {operand : ShaderType} {a b : Operand} (words : operand.isWords = true)
    (left : Spans operand a.2) (right : Spans operand b.2) (first : regs a.1 = a.2.map Datum.word)
    (second : regs b.1 = b.2.map Datum.word) (equal : Bool)
    (chosen : (choiceOf .bool [operand, operand]).opcode (if equal then .allEqual else .anyNequal) = .ok opcode) :
    opcode.perform regs [a.src, b.src] 1 = some [Datum.truth (decide (a.2 = b.2) == equal)] := by
  obtain ⟨base, rows, rfl, word, low, high⟩ := ShaderType.isWords_iff.mp words
  have same : a.2.map Datum.word = b.2.map Datum.word ↔ a.2 = b.2 :=
    @Datum.map_word_inj base _ _ (fun d member => (Option.some.inj (left.bases d member)).symm)
      fun d member => (Option.some.inj (right.bases d member)).symm
  have integer : base.isFloat = false := by cases base <;> first | rfl | cases word
  have aSize : a.2.length = rows.toNat := left.length
  have bSize : b.2.length = rows.toNat := right.length
  have four : rows.toNat ≤ 4 := UInt8.le_iff_toNat_le.mp high
  have aRead := read_all first (by omega)
  have bRead := read_all second (by omega)
  rw [aSize] at aRead
  rw [bSize] at bRead
  have picked : fusedCompare equal base rows true = .ok opcode := by
    cases equal <;> simpa [Selection.opcode, choiceOf] using chosen
  have compared : AluOp.compared regs rows.toNat equal [a.src, b.src] =
      some [Datum.truth (decide (a.2 = b.2) == equal)] := by
    simp [AluOp.compared, aRead, bRead, same]
  rcases UInt8.width_cases low high with rfl | rfl | rfl | rfl
  · -- a single component has no opcode of its own and is compared as in `equal` and `nequal`
    obtain ⟨x, isX⟩ := List.length_eq_one_iff.mp aSize
    obtain ⟨y, isY⟩ := List.length_eq_one_iff.mp bSize
    have readX : a.src.read regs 0 = some x.word := read_src first (by decide) (by simp [spread, isX]) (by omega)
    have readY : b.src.read regs 0 = some y.word := read_src second (by decide) (by simp [spread, isY]) (by omega)
    simp only [isX, isY, List.map_cons, List.map_nil, List.cons.injEq, and_true] at same
    cases equal <;> simp only [fusedCompare, integer, byWidth] at picked <;> obtain rfl := Except.ok.inj picked <;>
      simp [AluOp.perform, AluOp.shape, readX, readY, AluOp.lanewise, same, isX, isY]
  all_goals
    cases equal <;> simp only [fusedCompare, integer, byWidth] at picked <;> obtain rfl := Except.ok.inj picked <;>
      exact compared

end

end Lowering

end ShaderSSA
