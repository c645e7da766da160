import ShaderSSA.Proofs.Spelling

/-!
# Readers read back what is written

`Reads spare r v a` says that the reader `r` gives `a` on every text of the value `v`, also where
members listed in `spare` are missing from objects inside of it. Each way of building a reader has one
lemma: a reader of parts that read their values back reads the whole back.
-/

namespace ShaderSSA.Json

open Outcome
variable {spare less : List (String × Value)}

/-! ### Missing members -/

mutual

/-- The second value is the first one without some of the members in `spare`. -/
inductive Trims (spare : List (String × Value)) : Value → Value → Prop
  | same (v : Value) : Trims spare v v
  | array {vs ws : List Value} (items : TrimsItems spare vs ws) : Trims spare (.array vs) (.array ws)
  | object {ms ns : List (String × Value)} (members : TrimsMembers spare ms ns) :
    Trims spare (.object ms) (.object ns)

inductive TrimsItems (spare : List (String × Value)) : List Value → List Value → Prop
  | nil : TrimsItems spare [] []
  | cons {v w : Value} {vs ws : List Value} (value : Trims spare v w)
    (rest : TrimsItems spare vs ws) : TrimsItems spare (v :: vs) (w :: ws)

inductive TrimsMembers (spare : List (String × Value)) :
    List (String × Value) → List (String × Value) → Prop
  | nil : TrimsMembers spare [] []
  | keep {k : String} {v w : Value} {ms ns : List (String × Value)} (value : Trims spare v w)
    (rest : TrimsMembers spare ms ns) : TrimsMembers spare ((k, v) :: ms) ((k, w) :: ns)
  | drop {m : String × Value} {ms ns : List (String × Value)} (member : m ∈ spare)
    (rest : TrimsMembers spare ms ns) : TrimsMembers spare (m :: ms) ns

end

theorem TrimsItems.same (spare : List (String × Value)) (vs : List Value) :
    TrimsItems spare vs vs := by
  induction vs with
  | nil => exact .nil
  | cons v vs ih => exact .cons (.same v) ih

theorem TrimsMembers.same (spare : List (String × Value)) (ms : List (String × Value)) :
    TrimsMembers spare ms ms := by
  induction ms with
  | nil => exact .nil
  | cons m ms ih => exact .keep (.same m.2) ih

theorem Trims.of_array {vs : List Value} {w : Value}
    (trims : Trims spare (.array vs) w) : ∃ ws, w = .array ws ∧ TrimsItems spare vs ws := by
  cases trims with
  | same => exact ⟨vs, rfl, .same spare vs⟩
  | array items => exact ⟨_, rfl, items⟩

theorem Trims.of_object {ms : List (String × Value)} {w : Value}
    (trims : Trims spare (.object ms) w) : ∃ ns, w = .object ns ∧ TrimsMembers spare ms ns := by
  cases trims with
  | same => exact ⟨ms, rfl, .same spare ms⟩
  | object members => exact ⟨_, rfl, members⟩

mutual

theorem Trims.mono (fewer : less ⊆ spare) {v w : Value} : Trims less v w → Trims spare v w
  | .same v => .same v
  | .array items => .array (items.mono fewer)
  | .object members => .object (members.mono fewer)

theorem TrimsItems.mono (fewer : less ⊆ spare) {vs ws : List Value} : TrimsItems less vs ws → TrimsItems spare vs ws
  | .nil => .nil
  | .cons value rest => .cons (value.mono fewer) (rest.mono fewer)

theorem TrimsMembers.mono (fewer : less ⊆ spare)
    {ms ns : List (String × Value)} : TrimsMembers less ms ns → TrimsMembers spare ms ns
  | .nil => .nil
  | .keep value rest => .keep (value.mono fewer) (rest.mono fewer)
  | .drop member rest => .drop (fewer member) (rest.mono fewer)

end

/-- No member of this name may be missing. -/
def isFixed (spare : List (String × Value)) (name : String) : Bool := spare.all fun m => m.1 ≠ name

theorem not_mem_of_isFixed {m : String × Value} (fixed : isFixed spare m.1 = true) : m ∉ spare := by
  intro member
  simpa using List.all_eq_true.mp fixed m member

/-! ### Reading back -/

/-- The text starts with a text of `v`, perhaps without members in `spare`, and goes on with
`rest`. -/
inductive Begins (spare : List (String × Value)) (v : Value) (rest : List Char) : List Char → Prop
  | intro {w : Value} {bs cs : List Char} (trims : Trims spare v w) (blank : Blank bs)
    (spells : Spells w cs) (ends : Ends rest) : Begins spare v rest (bs ++ (cs ++ rest))

/-- The reader gives `a` on every text of `v` that nests no deeper than it may go. -/
def Reads (spare : List (String × Value)) (r : Reader α) (v : Value) (a : α) : Prop :=
  ∀ ⦃depth : Nat⦄ ⦃text rest : List Char⦄, v.depth ≤ depth → depth ≤ maxDepth →
    Begins spare v rest text → r depth text = .done a rest

variable {spare ms less : List (String × Value)} {α β τ : Type} {r : Reader α} {v : Value} {a : α}
  {text rest cs : List Char} {depth fuel : Nat} {expected name : String} {first : Bool} {vs ws : List Value} {i : Int}
  {m : String × Value}

namespace Begins

theorem mono (fewer : less ⊆ spare) (begins : Begins less v rest text) : Begins spare v rest text := by
  obtain ⟨trims, blank, spells, ends⟩ := begins
  exact ⟨trims.mono fewer, blank, spells, ends⟩

theorem skipBlanks (begins : Begins spare v rest text) :
    Begins spare v rest (Json.skipBlanks text) := by
  obtain ⟨trims, blank, spells, ends⟩ := begins
  have start := Begins.intro trims blank_nil spells ends
  obtain ⟨c, ds, rfl, opening⟩ := spells.opens
  rwa [List.cons_append, skipBlanks_to blank (isBlank_of_isOpening opening)]

theorem null (begins : Begins spare .null rest text) :
    Json.skipBlanks text = 'n' :: 'u' :: 'l' :: 'l' :: rest := by
  obtain ⟨trims, blank, spells, -⟩ := begins
  cases trims
  cases spells
  exact skipBlanks_to blank (by decide) _

theorem yes (begins : Begins spare (.bool true) rest text) :
    Json.skipBlanks text = 't' :: 'r' :: 'u' :: 'e' :: rest := by
  obtain ⟨trims, blank, spells, -⟩ := begins
  cases trims
  cases spells
  exact skipBlanks_to blank (by decide) _

theorem no (begins : Begins spare (.bool false) rest text) :
    Json.skipBlanks text = 'f' :: 'a' :: 'l' :: 's' :: 'e' :: rest := by
  obtain ⟨trims, blank, spells, -⟩ := begins
  cases trims
  cases spells
  exact skipBlanks_to blank (by decide) _

theorem string {s : String} (begins : Begins spare (.string s) rest text) :
    Json.skipBlanks text = '"' :: (s.toList.flatMap escapedChar ++ '"' :: rest) := by
  obtain ⟨trims, blank, spells, -⟩ := begins
  cases trims
  cases spells
  rw [stringChars, List.cons_append, List.cons_append, skipBlanks_to blank (by decide)]
  simp

theorem int (begins : Begins spare (.int i) rest text) : Json.skipBlanks text = intChars i ++ rest ∧ Ends rest := by
  obtain ⟨trims, blank, spells, ends⟩ := begins
  cases trims
  obtain ⟨c, ds, start, opening⟩ := spells.opens
  cases spells
  rw [start, List.cons_append, skipBlanks_to blank (isBlank_of_isOpening opening)]
  exact ⟨rfl, ends⟩

theorem array (begins : Begins spare (.array vs) rest text) :
    ∃ ws cs, Json.skipBlanks text = '[' :: (cs ++ ']' :: rest) ∧ TrimsItems spare vs ws ∧
      SpellsItems true ws cs := by
  obtain ⟨trims, blank, spells, -⟩ := begins
  obtain ⟨ws, rfl, items⟩ := trims.of_array
  cases spells with
  | array spelled =>
    refine ⟨ws, _, ?_, items, spelled⟩
    rw [List.cons_append, skipBlanks_to blank (by decide)]
    simp

theorem object (begins : Begins spare (.object ms) rest text) :
    ∃ ns cs, Json.skipBlanks text = '\x7b' :: (cs ++ '\x7d' :: rest) ∧ TrimsMembers spare ms ns ∧
      SpellsMembers true ns cs := by
  obtain ⟨trims, blank, spells, -⟩ := begins
  obtain ⟨ns, rfl, members⟩ := trims.of_object
  cases spells with
  | object spelled =>
    refine ⟨ns, _, ?_, members, spelled⟩
    rw [List.cons_append, skipBlanks_to blank (by decide)]
    simp

end Begins

namespace Reads

theorem mono (fewer : less ⊆ spare) (reads : Reads spare r v a) : Reads less r v a :=
  fun _ _ _ deep limit begins => reads deep limit (begins.mono fewer)

theorem of_depth (reads : v.depth ≤ maxDepth → Reads spare r v a) : Reads spare r v a :=
  fun _ _ _ deep limit => reads (Nat.le_trans deep limit) deep limit

theorem map (f : α → β) (reads : Reads spare r v a) : Reads spare (r.map f) v (f a) := by
  intro depth text rest deep limit begins
  rw [Reader.map, reads deep limit begins]
  rfl

theorem bool (b : Bool) : Reads spare .bool (.bool b) b := by
  intro depth text rest _ _ begins
  cases b with
  | true => simp [Reader.bool, begins.yes, scanIdent, Outcome.map, andThen]
  | false => simp [Reader.bool, begins.no, scanIdent, Outcome.map, andThen]

theorem string (s : String) : Reads spare .string (.string s) s := by
  intro depth text rest _ _ begins
  simp [Reader.string, begins.string, scanString_stringChars]

theorem number {accept : Numeral → Except Issue α} (least : -0x8000000000000000 ≤ i) (most : i ≤ 0xffffffffffffffff)
    (accepts : accept (.integer i) = .ok a) : Reads spare (.number expected accept) (.int i) a := by
  intro depth text rest _ _ begins
  obtain ⟨start, ends⟩ := begins.int
  have fits : i.natAbs ≤ maxSignificand := by
    unfold maxSignificand
    omega
  unfold Reader.number
  rw [start]
  by_cases negative : i < 0
  · have numeral : integerNumeral true i.natAbs = .integer i := by
      have size : 0 < i.natAbs ∧ i.natAbs ≤ 0x8000000000000000 := by omega
      have sign : -(i.natAbs : Int) = i := by omega
      rw [integerNumeral, if_neg (by decide), if_pos size, sign]
    simp [intChars, negative, scanNumber_digitChars true fits ends, numeral, andThen, accepts]
  · have numeral : integerNumeral false i.natAbs = .integer i := by
      have sign : (i.natAbs : Int) = i := by omega
      rw [integerNumeral, if_pos (by decide), sign]
    have scanned := scanNumber_digitChars false fits ends
    obtain ⟨c, ds, digits, digit⟩ := digitChars_digit i.natAbs
    have notSign : c ≠ '-' := by
      rintro rfl
      exact absurd digit (by decide)
    rw [digits, List.cons_append] at scanned
    simp [intChars, negative, digits, notSign, startsWithDigit, digit, scanned, numeral, andThen,
      accepts]

theorem integer {name : String} {low high i : Int} {ofInt : Int → α} (same : ofInt i = a)
    (inside : low ≤ i ∧ i ≤ high)
    (wide : -0x8000000000000000 ≤ low ∧ high ≤ 0xffffffffffffffff) :
    Reads spare (.integer name low high ofInt) (.int i) a :=
  number (by omega) (by omega) (by rw [← same]; exact if_pos inside)

theorem uint8 (n : UInt8) : Reads spare .uint8 (.nat n.toNat) n :=
  integer (by simp) (by have := n.toNat_lt; omega) (by decide)

theorem uint16 (n : UInt16) : Reads spare .uint16 (.nat n.toNat) n :=
  integer (by simp) (by have := n.toNat_lt; omega) (by decide)

theorem uint32 (n : UInt32) : Reads spare .uint32 (.nat n.toNat) n :=
  integer (by simp) (by have := n.toNat_lt; omega) (by decide)

theorem uint64 (n : UInt64) : Reads spare .uint64 (.nat n.toNat) n :=
  integer (by simp) (by have := n.toNat_lt; omega) (by decide)

theorem size (n : UInt64) : Reads spare .size (.nat n.toNat) n :=
  integer (by simp) (by have := n.toNat_lt; omega) (by decide)

theorem int8 (i : Int8) : Reads spare .int8 (.int i.toInt) i :=
  integer (by simp) (by have := i.toInt_lt; have := i.le_toInt; omega) (by decide)

theorem int16 (i : Int16) : Reads spare .int16 (.int i.toInt) i :=
  integer (by simp) (by have := i.toInt_lt; have := i.le_toInt; omega) (by decide)

theorem int32 (i : Int32) : Reads spare .int32 (.int i.toInt) i :=
  integer (by simp) (by have := i.toInt_lt; have := i.le_toInt; omega) (by decide)

theorem int64 (i : Int64) : Reads spare .int64 (.int i.toInt) i :=
  integer (by simp) (by have := i.toInt_lt; have := i.le_toInt; omega) (by decide)

end Reads

/-! ### Options -/

/-- No text of the value starts like `null`. -/
def Value.isPresent : Value → Bool
  | .null | .float32 _ | .float64 _ => false
  | _ => true

theorem Begins.not_null (begins : Begins spare v rest text) (present : v.isPresent = true)
    (cs : List Char) : Json.skipBlanks text ≠ 'n' :: cs := by
  cases v with
  | null | float32 | float64 => cases present
  | bool b =>
    cases b with
    | true => simp [begins.yes]
    | false => simp [begins.no]
  | int i =>
    obtain ⟨c, ds, digits, digit⟩ := digitChars_digit i.natAbs
    have notLetter : c ≠ 'n' := by
      rintro rfl
      exact absurd digit (by decide)
    rw [begins.int.1, intChars]
    split <;> simp [digits, notLetter]
  | string s => simp [begins.string]
  | array vs =>
    obtain ⟨ws, ds, start, -⟩ := begins.array
    simp [start]
  | object ms =>
    obtain ⟨ns, ds, start, -⟩ := begins.object
    simp [start]

theorem Reads.option {f : α → Value} {x : Option α} (present : ∀ a ∈ x, (f a).isPresent = true)
    (reads : ∀ a ∈ x, Reads spare r (f a) a) : Reads spare r.option (.option f x) x := by
  intro depth text rest deep limit begins
  unfold Reader.option
  cases x with
  | none => simp [Begins.null begins, scanIdent, Outcome.map, andThen]
  | some a =>
    have read := reads a rfl deep limit begins.skipBlanks
    split
    next cs start => exact absurd start (begins.not_null (present a rfl) cs)
    next => rw [read]; rfl

/-! ### Arrays -/

theorem depth_le_itemsDepth (member : v ∈ vs) : v.depth ≤ itemsDepth vs := by
  induction vs with
  | nil => cases member
  | cons w vs ih =>
    rw [itemsDepth]
    obtain rfl | member := List.mem_cons.mp member
    · exact Nat.le_max_left _ _
    · exact Nat.le_trans (ih member) (Nat.le_max_right _ _)

theorem SpellsItems.length_le (spells : SpellsItems first vs cs) : vs.length ≤ cs.length := by
  induction vs generalizing first cs with
  | nil => simp
  | cons v vs ih =>
    cases spells with
    | cons separates value rest =>
      obtain ⟨c, ds, rfl, -⟩ := value.opens
      have := ih rest
      simp only [List.length_append, List.length_cons]
      omega

theorem SpellsItems.ends (spells : SpellsItems false vs cs) (rest : List Char) : Ends (cs ++ ']' :: rest) := by
  cases spells with
  | nil blank => exact ends_blank blank (ends_cons (by decide))
  | cons separates =>
    cases separates with
    | later before =>
      rw [List.append_assoc, List.append_assoc]
      exact ends_blank before (ends_cons (by decide))

theorem items_done {f : α → Value} (rest : List Char) (items : List α) (reads : ∀ a ∈ items, Reads spare r (f a) a)
    (limit : depth ≤ maxDepth) (deep : itemsDepth (items.map f) ≤ depth) (trims : TrimsItems spare (items.map f) ws)
    (spells : SpellsItems first ws cs) (enough : ws.length < fuel) :
    Reader.items r depth fuel first (cs ++ ']' :: rest) = .done items (']' :: rest) := by
  obtain ⟨fuel, rfl⟩ := Nat.exists_eq_add_one.mpr (Nat.zero_lt_of_lt enough)
  induction items generalizing fuel first ws cs with
  | nil =>
    cases trims
    cases spells with
    | nil blank => simp [Reader.items, scanNextItem_end blank, andThen]
  | cons a items ih =>
    simp only [List.map_cons, itemsDepth, Nat.max_le] at deep
    cases trims with
    | cons trimmed trims =>
      cases spells with
      | @cons _ bs cs ds _ _ separates value others =>
        obtain ⟨fuel, rfl⟩ := Nat.exists_eq_add_one.mpr
          (Nat.lt_of_le_of_lt (Nat.zero_le _) (Nat.lt_of_succ_lt_succ enough))
        have begins := Begins.intro trimmed blank_nil value (others.ends rest)
        have read := reads a (by simp) deep.1 limit begins
        have later := ih (fun b member => reads b (by simp [member])) deep.2 trims others fuel
          (Nat.lt_of_succ_lt_succ enough)
        rw [Reader.items, List.append_assoc, List.append_assoc, scanNextItem_next separates value]
        rw [List.nil_append] at read
        simp [andThen, read, later, Outcome.map]

theorem Reads.list {f : α → Value} {items : List α} (reads : ∀ a ∈ items, Reads spare r (f a) a) :
    Reads spare (.list r) (.array (items.map f)) items := by
  intro depth text rest deep limit begins
  obtain ⟨ws, cs, start, trims, spells⟩ := begins.array
  unfold Reader.list Reader.inArray
  simp only [start]
  cases depth with
  | zero => simp [Value.depth] at deep
  | succ depth =>
    have deep : itemsDepth (items.map f) ≤ depth := by simpa [Value.depth] using deep
    have enough : ws.length < (cs ++ ']' :: rest).length + 1 := by
      have := spells.length_le
      rw [List.length_append]
      omega
    simp only [items_done rest items reads (by omega) deep trims spells enough]
    exact close_array items blank_nil rest

theorem Reads.array {f : α → Value} {items : Array α} (reads : ∀ a ∈ items, Reads spare r (f a) a) :
    Reads spare (.array r) (.ofArray f items) items :=
  (Reads.list fun a member => reads a (Array.mem_toList_iff.mp member)).map List.toArray

/-! ### Records -/

theorem SpellsMembers.length_le (spells : SpellsMembers first ms cs) : ms.length ≤ cs.length := by
  induction ms generalizing first cs with
  | nil => simp
  | cons m ms ih =>
    cases spells with
    | cons separates before after value rest =>
      have := ih rest
      simp only [List.length_append, List.length_cons]
      omega

theorem SpellsMembers.ends (spells : SpellsMembers false ms cs) (rest : List Char) : Ends (cs ++ '\x7d' :: rest) := by
  cases spells with
  | nil blank => exact ends_blank blank (ends_cons (by decide))
  | cons separates =>
    cases separates with
    | later before =>
      rw [List.append_assoc, List.append_assoc]
      exact ends_blank before (ends_cons (by decide))

namespace Fields

variable {τ : Type}

def names : {τ : Type} → Fields τ → List String
  | _, .nil => []
  | _, .cons field rest => field.name :: rest.names

/-- The keys are the names of the fields. They are all different, and no member with one of them may
be missing. -/
def areKeys (spare : List (String × Value)) (fs : Fields τ) (keys : List String) : Bool :=
  keys = fs.names && fs.names.Nodup && fs.names.all (isFixed spare)

/-- The values are read back as the fields of the tuple. -/
def ReadsItems (spare : List (String × Value)) : {τ : Type} → Fields τ → List Value → τ → Prop
  | _, .nil, vs, _ => vs = []
  | _, .cons _ _, [], _ => False
  | _, .cons field rest, v :: vs, (a, b) =>
    Reads spare field.read v a ∧ rest.ReadsItems spare vs b

/-- A member that may be missing is the default of its field. -/
def Supplies (spare : List (String × Value)) :
    {τ : Type} → Fields τ → List (String × Value) → τ → Prop
  | _, .nil, _, _ => True
  | _, .cons _ _, [], _ => True
  | _, .cons field rest, m :: ms, (a, b) =>
    (m ∈ spare → field.absent = some a) ∧ rest.Supplies spare ms b

/-- The members stand for the fields of the tuple. -/
structure ReadsMembers (spare : List (String × Value)) (fs : Fields τ) (ms : List (String × Value))
    (t : τ) : Prop where
  keys : ms.map (·.1) = fs.names
  items : fs.ReadsItems spare (ms.map (·.2)) t
  supplies : fs.Supplies spare ms t

/-- What the slots hold and what the members `ms` will still put there is the tuple: the fields that
are settled come first, and the others are those of the members. -/
def Awaits (spare : List (String × Value)) :
    {τ : Type} → (fs : Fields τ) → fs.Slots → List (String × Value) → τ → Prop
  | _, .nil, _, ms, _ => ms = []
  | _, @Fields.cons α _ field rest, slots, ms, (a, b) =>
    let slots : Option α × rest.Slots := slots
    (slots = (none, rest.emptySlots) ∧ (Fields.cons field rest).ReadsMembers spare ms (a, b)) ∨
    (slots.1.or field.absent = some a ∧ field.name ∉ ms.map (·.1) ∧ rest.Awaits spare slots.2 ms b)

theorem ReadsMembers.of_cons {field : Field α} {rest : Fields β} {a : α} {b : β}
    (reads : (Fields.cons field rest).ReadsMembers spare (m :: ms) (a, b)) :
    m.1 = field.name ∧ Reads spare field.read m.2 a ∧ (m ∈ spare → field.absent = some a) ∧
      rest.ReadsMembers spare ms b := by
  obtain ⟨keys, ⟨read, items⟩, default, supplies⟩ := reads
  obtain ⟨same, keys⟩ := List.cons.inj keys
  exact ⟨same, read, default, keys, items, supplies⟩

theorem ReadsMembers.awaits {fs : Fields τ} {t : τ} (reads : fs.ReadsMembers spare ms t) :
    fs.Awaits spare fs.emptySlots ms t := by
  cases fs with
  | nil => exact List.map_eq_nil_iff.mp reads.keys
  | cons field rest => exact .inl ⟨rfl, reads⟩

namespace Awaits

theorem drop {fs : Fields τ} {slots : fs.Slots} {t : τ} (awaits : fs.Awaits spare slots (m :: ms) t)
    (distinct : fs.names.Nodup) (member : m ∈ spare) : fs.Awaits spare slots ms t := by
  induction fs with
  | nil => cases awaits
  | cons field rest ih =>
    obtain ⟨a, b⟩ := t
    obtain ⟨fresh, distinct⟩ := List.nodup_cons.mp distinct
    obtain ⟨empty, reads⟩ | ⟨settled, other, awaits⟩ := awaits
    · cases empty
      obtain ⟨-, -, default, reads⟩ := reads.of_cons
      exact .inr ⟨default member, reads.keys ▸ fresh, reads.awaits⟩
    · exact .inr ⟨settled, fun later => other (List.mem_cons_of_mem _ later), ih awaits distinct⟩

theorem read {fs : Fields τ} {slots : fs.Slots} {k : String} {ms : List (String × Value)} {t : τ}
    {bs : List Char} {depth : Nat} (awaits : fs.Awaits spare slots ((k, v) :: ms) t)
    (distinct : fs.names.Nodup) (blank : Blank bs) (deep : v.depth ≤ depth)
    (limit : depth ≤ maxDepth) (begins : Begins spare v rest text) :
    ∃ next, fs.readMember k depth (bs ++ ':' :: text) slots = .done next rest ∧
      fs.Awaits spare next ms t := by
  induction fs with
  | nil => cases awaits
  | cons field fields ih =>
    obtain ⟨a, b⟩ := t
    obtain ⟨fresh, distinct⟩ := List.nodup_cons.mp distinct
    obtain ⟨empty, reads⟩ | ⟨settled, other, awaits⟩ := awaits
    · cases empty
      obtain ⟨rfl, read, -, reads⟩ := reads.of_cons
      refine ⟨(some a, fields.emptySlots), ?_, .inr ⟨rfl, reads.keys ▸ fresh, reads.awaits⟩⟩
      simp [readMember, scanColon_blank blank, andThen, read deep limit begins, Outcome.map]
    · obtain ⟨next, done, awaits⟩ := ih awaits distinct
      have different : field.name ≠ k := fun same => other (by simp [same])
      refine ⟨(slots.1, next), ?_, .inr ⟨settled, fun later => other (by simp [later]), awaits⟩⟩
      simp [readMember, different, done, Outcome.map, andThen]

theorem assemble {fs : Fields τ} {slots : fs.Slots} {t : τ} (awaits : fs.Awaits spare slots [] t) :
    fs.assemble slots = .ok t := by
  induction fs with
  | nil => rfl
  | cons field rest ih =>
    obtain ⟨a, b⟩ := t
    obtain ⟨-, reads⟩ | ⟨settled, -, awaits⟩ := awaits
    · exact reads.items.elim
    · simp [Fields.assemble, settled, ih awaits]

end Awaits

theorem readMembers_done {fs : Fields τ} {slots : fs.Slots} {ns : List (String × Value)} {t : τ} (rest : List Char)
    (distinct : fs.names.Nodup) (limit : depth ≤ maxDepth) (deep : membersDepth ms ≤ depth)
    (awaits : fs.Awaits spare slots ms t) (trims : TrimsMembers spare ms ns) (spells : SpellsMembers first ns cs)
    (enough : ns.length < fuel) :
    ∃ last, fs.readMembers depth fuel first slots (cs ++ '\x7d' :: rest) = .done last ('\x7d' :: rest) ∧
      fs.Awaits spare last [] t := by
  -- On the members of the whole object, not on those of the text: a missing one settles its field
  -- without a step of the loop.
  induction ms generalizing fuel first slots ns cs with
  | nil =>
    obtain ⟨fuel, rfl⟩ := Nat.exists_eq_add_one.mpr (Nat.zero_lt_of_lt enough)
    cases trims
    cases spells with
    | nil blank =>
      exact ⟨slots, by simp [readMembers, scanNextKey_end blank, andThen], awaits⟩
  | cons m ms ih =>
    obtain ⟨fuel, rfl⟩ := Nat.exists_eq_add_one.mpr (Nat.zero_lt_of_lt enough)
    simp only [membersDepth, Nat.max_le] at deep
    cases trims with
    | drop member trims => exact ih deep.2 (awaits.drop distinct member) trims spells enough
    | keep trimmed trims =>
      cases spells with
      | cons separates before after value others =>
        have begins := Begins.intro trimmed after value (others.ends rest)
        obtain ⟨next, done, awaits⟩ := awaits.read distinct before deep.1 limit begins
        obtain ⟨last, finish, awaits⟩ := ih deep.2 awaits trims others (Nat.lt_of_succ_lt_succ enough)
        refine ⟨last, ?_, awaits⟩
        simp [readMembers, stringChars, scanNextKey_next separates, andThen, scanString_stringChars,
          done, finish]

theorem readItems_done {fs : Fields τ} (expected : String) {count : Nat} {t : τ} (rest : List Char)
    (limit : depth ≤ maxDepth) (deep : itemsDepth vs ≤ depth) (reads : fs.ReadsItems spare vs t)
    (trims : TrimsItems spare vs ws) (spells : SpellsItems first ws cs) (start : first = decide (count = 0)) :
    ∃ bs, Blank bs ∧
      fs.readItems expected depth count (cs ++ ']' :: rest) = .done t (bs ++ ']' :: rest) := by
  induction fs generalizing vs ws count first cs with
  | nil =>
    cases reads
    cases trims
    cases spells with
    | nil blank => exact ⟨cs, blank, rfl⟩
  | cons field fields ih =>
    obtain ⟨a, b⟩ := t
    cases trims with
    | nil => exact reads.elim
    | cons trimmed trims =>
      obtain ⟨read, reads⟩ := reads
      simp only [itemsDepth, Nat.max_le] at deep
      cases spells with
      | @cons _ bs cs ds _ _ separates value others =>
        have begins := Begins.intro trimmed blank_nil value (others.ends rest)
        have read := read deep.1 limit begins
        obtain ⟨es, blank, done⟩ := ih deep.2 reads trims others (by simp : false = decide (count + 1 = 0))
        refine ⟨es, blank, ?_⟩
        rw [List.nil_append] at read
        rw [readItems, ← start, List.append_assoc, List.append_assoc, scanNextItem_next separates value]
        simp [andThen, read, done, Outcome.map]

end Fields

/-- An object is read back as a record if its members stand for the fields. -/
theorem Reads.recordWith {fs : Fields τ} {f : τ → α} (t : τ) (reads : fs.ReadsMembers spare ms t)
    (distinct : fs.names.Nodup) : Reads spare ((Reader.record expected fs).map f) (.object ms) (f t) := by
  refine .map f fun depth text rest deep limit begins => ?_
  obtain ⟨ns, cs, start, trims, spells⟩ := begins.object
  unfold Reader.record
  simp only [start]
  cases depth with
  | zero => simp [Value.depth] at deep
  | succ depth =>
    have deep : membersDepth ms ≤ depth := by simpa [Value.depth] using deep
    -- The loop is bounded by the length of the text, and every member takes a character.
    have enough : ns.length < (cs ++ '\x7d' :: rest).length + 1 := by
      have := spells.length_le
      rw [List.length_append]
      omega
    obtain ⟨last, done, awaits⟩ :=
      Fields.readMembers_done rest distinct (by omega) deep reads.awaits trims spells enough
    simp only [done, andThen, awaits.assemble]
    exact close_object t rest

theorem Fields.supplies_of_isFixed {fs : Fields τ} {t : τ} (fixed : ∀ m ∈ ms, isFixed spare m.1 = true) :
    fs.Supplies spare ms t := by
  induction fs generalizing ms with
  | nil => trivial
  | cons field rest ih =>
    obtain ⟨a, b⟩ := t
    cases ms with
    | nil => trivial
    | cons m ms =>
      exact ⟨fun member => absurd member (not_mem_of_isFixed (fixed m (by simp))),
        ih fun n member => fixed n (by simp [member])⟩

theorem Reads.record {fs : Fields τ} {f : τ → α} (t : τ) (items : fs.ReadsItems spare (ms.map (·.2)) t)
    (keys : fs.areKeys spare (ms.map (·.1)) = true) :
    Reads spare ((Reader.record expected fs).map f) (.object ms) (f t) := by
  simp only [Fields.areKeys, Bool.and_eq_true, decide_eq_true_eq, List.all_eq_true] at keys
  obtain ⟨⟨same, distinct⟩, fixed⟩ := keys
  rw [← same] at fixed
  refine .recordWith t ⟨same, items, Fields.supplies_of_isFixed fun m member => ?_⟩ distinct
  exact fixed m.1 (List.mem_map_of_mem member)

theorem Reads.tuple {fs : Fields τ} {f : τ → α} (t : τ) (reads : fs.ReadsItems spare vs t) :
    Reads spare ((Reader.tuple fs).map f) (.array vs) (f t) := by
  refine .map f fun depth text rest deep limit begins => ?_
  obtain ⟨ws, cs, start, trims, spells⟩ := begins.array
  unfold Reader.tuple Reader.inArray
  simp only [start]
  cases depth with
  | zero => simp [Value.depth] at deep
  | succ depth =>
    have deep : itemsDepth vs ≤ depth := by simpa [Value.depth] using deep
    obtain ⟨bs, blank, done⟩ := Fields.readItems_done ("an array of length " ++ toString fs.count)
      rest (by omega) deep reads trims spells (show true = decide (0 = 0) from rfl)
    simp only [done]
    exact close_array t blank rest

/-! ### Variants -/

theorem Reads.bare {vs : List (Variant α)} (found : vs.find? (fun u => u.name = name) = some (.unit name a)) :
    Reads spare (.variants vs) (.string name) a := by
  intro depth text rest _ _ begins
  simp [Reader.variants, begins.string, Reader.variantName, scanString_stringChars, andThen,
    Variant.find, found, Variant.bare, Variant.unit]

theorem Reads.variants {vs : List (Variant α)} {w : Variant α} (found : vs.find? (fun u => u.name = name) = some w)
    (content : Reads spare w.read v a) (fixed : isFixed spare name = true) :
    Reads spare (.variants vs) (.variant name v) a := by
  intro depth text rest deep limit begins
  obtain ⟨ns, cs, start, trims, spells⟩ := begins.object
  cases trims with
  | drop member => exact absurd member (not_mem_of_isFixed fixed)
  | keep trimmed trims =>
    cases trims
    cases depth with
    | zero => simp [Value.variant, Value.depth] at deep
    | succ depth =>
      have deep : v.depth ≤ depth := by simpa [Value.variant, Value.depth, membersDepth] using deep
      cases spells with
      | @cons _ bs es fs cs ds _ _ _ separates before after value others =>
        have begins := Begins.intro trimmed after value (others.ends rest)
        have read := content deep (by omega) begins
        -- The member is the first and the last of the object, so no comma stands around it.
        cases separates with
        | first blank =>
          cases others with
          | nil trailing =>
            have key := skipBlanks_to blank (show isBlank '"' = false by decide)
            have brace := skipBlanks_to trailing (show isBlank '\x7d' = false by decide)
            simp [Reader.variants, start, stringChars, key, Reader.variantName,
              scanString_stringChars, andThen, Variant.find, found, scanColon_blank before, read,
              Reader.variantEnd, brace, Outcome.map]

theorem Variant.find?_of_mem {vs : List (Variant α)} {w : Variant α} (member : w ∈ vs)
    (distinct : (vs.map (·.name)).Nodup) : vs.find? (fun u => u.name = w.name) = some w := by
  induction vs with
  | nil => cases member
  | cons u vs ih =>
    obtain ⟨fresh, distinct⟩ := List.nodup_cons.mp distinct
    obtain rfl | member := List.mem_cons.mp member
    · simp
    · have different : u.name ≠ w.name := fun same => fresh (List.mem_map.mpr ⟨w, member, same.symm⟩)
      rw [List.find?_cons_of_neg (by simp [different]), ih member distinct]

theorem Reads.names {all : List α} {name : α → String} (complete : ∀ a, a ∈ all)
    (distinct : (all.map name).Nodup) (a : α) : Reads spare (.names all name) (.string (name a)) a := by
  refine .bare (Variant.find?_of_mem (w := .unit (name a) a) (List.mem_map_of_mem (complete a)) ?_)
  rw [List.map_map]
  exact distinct

/-! ### Whole texts -/

/-- A value that is read back is decoded from what is written for it, with or without the members
that may be missing. -/
theorem Reads.decode {w : Value} (reads : Reads spare r v a) (shallow : v.depth ≤ maxDepth)
    (trims : Trims spare v w) : Json.decode r w.pretty = .ok a := by
  have ends : Ends [] := by simp [Ends]
  have begins := Begins.intro trims blank_nil (w.prettyChars_spells 0) ends
  have read := reads shallow (Nat.le_refl _) begins
  rw [List.nil_append, List.append_nil] at read
  simp [Json.decode, Value.pretty, read, skipBlanks]

end ShaderSSA.Json
