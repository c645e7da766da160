import ShaderSSA.Json.Reader

/-!
# The texts of a JSON value

`Spells v cs` says that the characters `cs` are a text of the value `v`: blanks may stand between any
two tokens, and a scalar is written in one way. What `Value.prettyChars` writes is such a text, and
the scanners take such texts apart.
-/

namespace ShaderSSA.Json

open Outcome

variable {bs rest : List Char} {c : Char} {first : Bool} {level n peak : Nat}

/-! ### Blanks and scalars -/

def Blank (cs : List Char) : Prop := ∀ c ∈ cs, isBlank c = true

theorem blank_nil : Blank [] := by simp [Blank]

theorem blank_space : Blank [' '] := by simp [Blank, isBlank]

theorem blank_lineBreak (level : Nat) : Blank (lineBreak level) := by
  intro c member
  obtain rfl | member := List.mem_cons.mp member
  · decide
  · rw [List.eq_of_mem_replicate member]
    decide

theorem skipBlanks_append (blank : Blank bs) (cs : List Char) : skipBlanks (bs ++ cs) = skipBlanks cs :=
  List.dropWhile_append_of_pos blank

theorem skipBlanks_cons (h : isBlank c = false) (cs : List Char) : skipBlanks (c :: cs) = c :: cs := by
  simp [skipBlanks, h]

theorem skipBlanks_to (blank : Blank bs) (h : isBlank c = false) (cs : List Char) :
    skipBlanks (bs ++ c :: cs) = c :: cs := by
  rw [skipBlanks_append blank, skipBlanks_cons h]

/-- A character that separates tokens or is one by itself. -/
def isStructural (c : Char) : Bool :=
  isBlank c || c = ',' || c = ':' || c = '"' || c = '[' || c = ']' || c = '\x7b' || c = '\x7d'

/-- What may follow a number: the end, or a character that is not part of a number. -/
def Ends (rest : List Char) : Prop := ∀ c ∈ rest.head?, isStructural c = true

theorem ends_cons {cs : List Char} (h : isStructural c = true) : Ends (c :: cs) := by
  simpa [Ends] using h

theorem ends_blank {cs : List Char} (blank : Blank bs) (h : Ends cs) : Ends (bs ++ cs) := by
  cases bs with
  | nil => exact h
  | cons b bs => exact ends_cons (by simp [isStructural, blank b (by simp)])

theorem isDigit_eq (c : Char) : isDigit c = c.isDigit := by
  simp [isDigit, Char.isDigit, Char.le_def]

theorem isStructural_of_isDigit (h : isDigit c = true) : isStructural c = false := by
  rw [Bool.eq_false_iff]
  intro structural
  simp only [isStructural, isBlank, Bool.or_eq_true, decide_eq_true_eq] at structural
  obtain ((((((((((rfl | rfl) | rfl) | rfl) | rfl) | rfl) | rfl) | rfl) | rfl) | rfl) | rfl) := structural
  all_goals exact absurd h (by decide)

/-! ### Texts -/

/-- What stands before an element or a member: blanks, and a comma if it is not the first one. -/
inductive Separates : Bool → List Char → Prop
  | first {bs : List Char} (blank : Blank bs) : Separates true bs
  | later {bs cs : List Char} (before : Blank bs) (after : Blank cs) :
    Separates false (bs ++ ',' :: cs)

mutual

/-- The characters are a text of the value, without blanks around it. -/
inductive Spells : Value → List Char → Prop
  | null : Spells .null ['n', 'u', 'l', 'l']
  | yes : Spells (.bool true) ['t', 'r', 'u', 'e']
  | no : Spells (.bool false) ['f', 'a', 'l', 's', 'e']
  | int (i : Int) : Spells (.int i) (intChars i)
  | float32 (bits : UInt32) : Spells (.float32 bits) (floatChars layout32 binary32 bits.toNat)
  | float64 (bits : UInt64) : Spells (.float64 bits) (floatChars layout64 binary64 bits.toNat)
  | string (s : String) : Spells (.string s) (stringChars s)
  | array {vs : List Value} {cs : List Char} (items : SpellsItems true vs cs) :
    Spells (.array vs) ('[' :: (cs ++ [']']))
  | object {ms : List (String × Value)} {cs : List Char} (members : SpellsMembers true ms cs) :
    Spells (.object ms) ('\x7b' :: (cs ++ ['\x7d']))

/-- The characters are a text of the elements up to the closing bracket. -/
inductive SpellsItems : Bool → List Value → List Char → Prop
  | nil {first : Bool} {bs : List Char} (blank : Blank bs) : SpellsItems first [] bs
  | cons {first : Bool} {bs cs ds : List Char} {v : Value} {vs : List Value}
    (separates : Separates first bs) (value : Spells v cs) (rest : SpellsItems false vs ds) :
    SpellsItems first (v :: vs) (bs ++ (cs ++ ds))

/-- The characters are a text of the members up to the closing brace. -/
inductive SpellsMembers : Bool → List (String × Value) → List Char → Prop
  | nil {first : Bool} {bs : List Char} (blank : Blank bs) : SpellsMembers first [] bs
  | cons {first : Bool} {bs es fs cs ds : List Char} {k : String} {v : Value}
    {ms : List (String × Value)} (separates : Separates first bs) (before : Blank es)
    (after : Blank fs) (value : Spells v cs) (rest : SpellsMembers false ms ds) :
    SpellsMembers first ((k, v) :: ms) (bs ++ (stringChars k ++ (es ++ ':' :: (fs ++ (cs ++ ds)))))

end

/-! ### Printing -/

theorem Separates.comma (level : Nat) : Separates false (',' :: lineBreak level) :=
  .later blank_nil (blank_lineBreak level)

mutual

theorem Value.prettyChars_spells (level : Nat) : (v : Value) → Spells v (v.prettyChars level)
  | .null => .null
  | .bool true => .yes
  | .bool false => .no
  | .int i => .int i
  | .float32 bits => .float32 bits
  | .float64 bits => .float64 bits
  | .string s => .string s
  | .array [] => .array (.nil blank_nil)
  | .array (v :: vs) => by
    have items := SpellsItems.cons (.first (blank_lineBreak (level + 1)))
      (v.prettyChars_spells (level + 1)) (prettyItems_spells (level + 1) (blank_lineBreak level) vs)
    simpa [Value.prettyChars] using Spells.array items
  | .object [] => .object (.nil blank_nil)
  | .object ((k, v) :: ms) => by
    have members := SpellsMembers.cons (k := k) (.first (blank_lineBreak (level + 1))) blank_nil
      blank_space (v.prettyChars_spells (level + 1))
      (prettyMembers_spells (level + 1) (blank_lineBreak level) ms)
    simpa [Value.prettyChars] using Spells.object members

theorem prettyItems_spells (level : Nat) {bs : List Char} (blank : Blank bs) :
    (vs : List Value) → SpellsItems false vs (prettyItems level vs ++ bs)
  | [] => .nil blank
  | v :: vs => by
    have items := SpellsItems.cons (.comma level) (v.prettyChars_spells level)
      (prettyItems_spells level blank vs)
    simpa [prettyItems] using items

theorem prettyMembers_spells (level : Nat) {bs : List Char} (blank : Blank bs) :
    (ms : List (String × Value)) → SpellsMembers false ms (prettyMembers level ms ++ bs)
  | [] => .nil blank
  | (k, v) :: ms => by
    have members := SpellsMembers.cons (k := k) (.comma level) blank_nil blank_space
      (v.prettyChars_spells level) (prettyMembers_spells level blank ms)
    simpa [prettyMembers] using members

end

/-! ### First characters -/

/-- The characters are not empty and none of them is structural. -/
def Bare (cs : List Char) : Prop := cs ≠ [] ∧ ∀ c ∈ cs, isStructural c = false

theorem isDigit_of_mem_digitChars (member : c ∈ digitChars n) : isDigit c = true := by
  rw [isDigit_eq]
  exact Nat.isDigit_of_mem_toDigits (by decide) (by decide) member

theorem bare_digitChars (n : Nat) : Bare (digitChars n) :=
  ⟨Nat.toDigits_ne_nil, fun _ member => isStructural_of_isDigit (isDigit_of_mem_digitChars member)⟩

theorem bare_intChars (i : Int) : Bare (intChars i) := by
  have ⟨_, digits⟩ := bare_digitChars i.natAbs
  unfold intChars
  split
  · exact ⟨by simp, fun c member => (List.mem_cons.mp member).elim (· ▸ rfl) (digits c)⟩
  · exact bare_digitChars _

theorem bare_cons {cs : List Char} (h : isStructural c = false) (rest : ∀ d ∈ cs, isStructural d = false) :
    Bare (c :: cs) :=
  ⟨by simp, by simpa [h] using rest⟩

theorem bare_plain (d : Decimal) (lead : Int) : Bare (FloatLayout.plain d lead) := by
  have digits := (bare_digitChars d.digits).2
  have zeros (n : Nat) : ∀ c ∈ FloatLayout.zeros n, isStructural c = false := fun c member =>
    List.eq_of_mem_replicate member ▸ rfl
  have front (n : Nat) : ∀ c ∈ (digitChars d.digits).take n, isStructural c = false :=
    fun c member => digits c (List.mem_of_mem_take member)
  have back (n : Nat) : ∀ c ∈ (digitChars d.digits).drop n, isStructural c = false :=
    fun c member => digits c (List.mem_of_mem_drop member)
  unfold FloatLayout.plain
  simp only
  split
  · refine ⟨by simp, ?_⟩
    simp only [List.forall_mem_append]
    exact ⟨⟨digits, zeros _⟩, by simp [isStructural, isBlank]⟩
  split
  · refine ⟨by simp, ?_⟩
    simp only [List.forall_mem_append, List.forall_mem_cons]
    exact ⟨front _, rfl, back _⟩
  · refine ⟨by simp, ?_⟩
    simp only [List.cons_append, List.forall_mem_cons, List.forall_mem_append]
    exact ⟨rfl, rfl, zeros _, digits⟩

theorem bare_scientific (l : FloatLayout) (d : Decimal) (lead : Int) :
    Bare (l.scientific d lead) := by
  have digits (n : Nat) := (bare_digitChars n).2
  have fraction : ∀ c ∈ (if (digitChars d.digits).length ≤ 1 then []
      else '.' :: (digitChars d.digits).drop 1), isStructural c = false := by
    split
    · simp
    · exact (bare_cons rfl fun c member => digits _ c (List.mem_of_mem_drop member)).2
  have sign : ∀ c ∈ (if lead < 0 then ['-'] else if l.plus then ['+'] else []),
      isStructural c = false := by
    split
    · simp [isStructural, isBlank]
    · split <;> simp [isStructural, isBlank]
  refine ⟨by simp [FloatLayout.scientific], ?_⟩
  unfold FloatLayout.scientific
  simp only [List.forall_mem_append, List.forall_mem_cons]
  exact ⟨⟨⟨fun c member => digits _ c (List.mem_of_mem_take member), fraction⟩, rfl, sign⟩, digits _⟩

theorem bare_magnitudeChars (l : FloatLayout) (f : BinaryFormat) (m : Nat) :
    Bare (l.magnitudeChars f m) := by
  unfold FloatLayout.magnitudeChars
  split
  · exact bare_cons rfl (by simp [isStructural, isBlank])
  · simp only
    split
    · exact bare_plain _ _
    · exact bare_scientific _ _ _

theorem bare_floatChars (l : FloatLayout) (f : BinaryFormat) (bits : Nat) :
    Bare (floatChars l f bits) := by
  unfold floatChars
  split
  · unfold FloatLayout.chars
    simp only
    split
    · exact bare_cons rfl (bare_magnitudeChars ..).2
    · exact bare_magnitudeChars ..
  · exact bare_cons rfl (by simp [isStructural, isBlank])

/-- A character that a value can start with. -/
def isOpening (c : Char) : Bool :=
  !isStructural c || c = '"' || c = '[' || c = '\x7b'

theorem Bare.opens {cs : List Char} (bare : Bare cs) :
    ∃ c ds, cs = c :: ds ∧ isOpening c = true := by
  cases cs with
  | nil => exact absurd rfl bare.1
  | cons c ds => exact ⟨c, ds, rfl, by simp [isOpening, bare.2 c (by simp)]⟩

theorem Spells.opens {v : Value} {cs : List Char} (spells : Spells v cs) :
    ∃ c ds, cs = c :: ds ∧ isOpening c = true := by
  cases spells with
  | null | yes | no | string | array | object => exact ⟨_, _, rfl, by decide⟩
  | int i => exact (bare_intChars i).opens
  | float32 | float64 => exact (bare_floatChars _ _ _).opens

theorem isBlank_of_isOpening (h : isOpening c = true) : isBlank c = false := by
  rw [Bool.eq_false_iff]
  intro blank
  simp only [isBlank, Bool.or_eq_true, decide_eq_true_eq] at blank
  obtain ((rfl | rfl) | rfl) | rfl := blank
  all_goals exact absurd h (by decide)

/-! ### Separators -/

theorem scanNextItem_next {cs : List Char} {v : Value} (separates : Separates first bs) (value : Spells v cs)
    (rest : List Char) : scanNextItem first (bs ++ (cs ++ rest)) = .done true (cs ++ rest) := by
  obtain ⟨c, cs, rfl, opening⟩ := value.opens
  have notBlank := isBlank_of_isOpening opening
  have notEnd : c ≠ ']' := by
    rintro rfl
    exact absurd opening (by decide)
  rw [List.cons_append]
  cases separates with
  | first blank =>
    unfold scanNextItem
    rw [skipBlanks_to blank notBlank]
    simp
  | later before after =>
    unfold scanNextItem
    rw [List.append_assoc, List.cons_append, skipBlanks_to before (by decide)]
    simp [skipBlanks_to after notBlank, notEnd]

theorem scanNextItem_end (blank : Blank bs) (first : Bool) (cs : List Char) :
    scanNextItem first (bs ++ ']' :: cs) = .done false (']' :: cs) := by
  simp [scanNextItem, skipBlanks_to blank (show isBlank ']' = false by decide)]

theorem scanNextKey_next (separates : Separates first bs) (cs : List Char) :
    scanNextKey first (bs ++ '"' :: cs) = .done true cs := by
  cases separates with
  | first blank =>
    simp [scanNextKey, skipBlanks_to blank (show isBlank '"' = false by decide)]
  | later before after =>
    unfold scanNextKey
    rw [List.append_assoc, List.cons_append, skipBlanks_to before (by decide)]
    simp [skipBlanks_to after (show isBlank '"' = false by decide)]

theorem scanNextKey_end (blank : Blank bs) (first : Bool) (cs : List Char) :
    scanNextKey first (bs ++ '\x7d' :: cs) = .done false ('\x7d' :: cs) := by
  simp [scanNextKey, skipBlanks_to blank (show isBlank '\x7d' = false by decide)]

theorem scanColon_blank (blank : Blank bs) (cs : List Char) : scanColon (bs ++ ':' :: cs) = .done () cs := by
  simp [scanColon, skipBlanks_to blank (show isBlank ':' = false by decide)]

theorem close_array {α : Type} (a : α) (blank : Blank bs) (cs : List Char) :
    (Outcome.done a (bs ++ ']' :: cs)).close scanArrayEnd = .done a cs := by
  simp [close, scanArrayEnd, skipBlanks_to blank (show isBlank ']' = false by decide), andThen]

theorem close_object {α : Type} (a : α) (cs : List Char) :
    (Outcome.done a ('\x7d' :: cs)).close scanObjectEnd = .done a cs := by
  simp [close, scanObjectEnd, skipBlanks_cons (show isBlank '\x7d' = false by decide), andThen]

/-! ### Strings -/

theorem hexDigit?_digitChar : ∀ n < 16, hexDigit? (Nat.digitChar n) = some n := by decide

theorem scanUnicode_hexPair (n : Nat) (small : n < 0x20) (cs : List Char) :
    scanUnicode ('0' :: '0' :: (hexPair n ++ cs)) = .done (Char.ofNat n) cs := by
  have zero : hexDigit? '0' = some 0 := rfl
  have high := hexDigit?_digitChar (n / 16 % 16) (Nat.mod_lt _ (by decide))
  have low := hexDigit?_digitChar (n % 16) (Nat.mod_lt _ (by decide))
  have total : ((0 * 16 + 0) * 16 + n / 16 % 16) * 16 + n % 16 = n := by omega
  simp only [scanUnicode, scanHex, hexPair, List.cons_append, List.nil_append, zero, high, low,
    andThen, total]
  rw [if_neg (by omega), if_pos (by omega)]

theorem scanStringChars_escapedChar (fuel : Nat) (c : Char) (cs : List Char) :
    scanStringChars (fuel + 1) (escapedChar c ++ cs) = (scanStringChars fuel cs).map (c :: ·) := by
  unfold escapedChar
  -- The first seven branches are escapes by a letter, each of one known character.
  repeat (split; (subst_vars; rfl))
  split
  next control =>
    have escape : scanEscape ('u' :: '0' :: '0' :: (hexPair c.toNat ++ cs)) = .done c cs := by
      rw [scanEscape, scanUnicode_hexPair _ control, Char.ofNat_toNat]
    simp [scanStringChars, escape, andThen]
  next quote backslash _ _ _ _ _ control =>
    simp [scanStringChars, quote, backslash, control]

theorem scanStringChars_flatMap {fuel : Nat} (s rest : List Char) (enough : s.length < fuel) :
    scanStringChars fuel (s.flatMap escapedChar ++ '"' :: rest) = .done s rest := by
  induction s generalizing fuel with
  | nil =>
    obtain ⟨fuel, rfl⟩ := Nat.exists_eq_add_one.mpr enough
    simp [scanStringChars]
  | cons c s ih =>
    obtain ⟨fuel, rfl⟩ := Nat.exists_eq_add_one.mpr (Nat.zero_lt_of_lt enough)
    rw [List.flatMap_cons, List.append_assoc, scanStringChars_escapedChar,
      ih (by simpa using enough)]
    rfl

theorem length_le_flatMap_escapedChar (s : List Char) :
    s.length ≤ (s.flatMap escapedChar).length := by
  have nonempty (c : Char) : 1 ≤ (escapedChar c).length := by
    unfold escapedChar
    repeat' split
    all_goals simp
  induction s with
  | nil => simp
  | cons c s ih =>
    simp only [List.length_cons, List.flatMap_cons, List.length_append]
    have := nonempty c
    omega

theorem scanString_stringChars (s : String) (rest : List Char) :
    scanString (s.toList.flatMap escapedChar ++ '"' :: rest) = .done s rest := by
  have long := length_le_flatMap_escapedChar s.toList
  have fuel : s.toList.length < (s.toList.flatMap escapedChar ++ '"' :: rest).length + 1 := by
    rw [List.length_append]
    omega
  rw [scanString, scanStringChars_flatMap _ _ fuel]
  simp [map, andThen]

/-! ### Integers -/

theorem digitChars_digit (n : Nat) : ∃ c cs, digitChars n = c :: cs ∧ isDigit c = true := by
  obtain ⟨c, cs, text⟩ := List.exists_cons_of_ne_nil (bare_digitChars n).1
  exact ⟨c, cs, text, isDigit_of_mem_digitChars (text ▸ List.mem_cons_self)⟩

theorem digitChars_head (pos : 0 < n) : ∃ c cs, digitChars n = c :: cs ∧ c ≠ '0' := by
  induction n using Nat.strongRecOn with
  | ind n ih =>
    unfold digitChars
    by_cases small : n < 10
    · rw [Nat.toDigits_of_lt_base small]
      refine ⟨_, _, rfl, ?_⟩
      have digit : ∀ d < 10, 0 < d → Nat.digitChar d ≠ '0' := by decide
      exact digit n small pos
    · obtain ⟨c, cs, front, nonzero⟩ := ih (n / 10) (by omega) (by omega)
      rw [Nat.toDigits_of_base_le (by decide) (by omega)]
      exact ⟨c, cs ++ [Nat.digitChar (n % 10)], by rw [← List.cons_append, ← front]; rfl, nonzero⟩

theorem startsWithDigit_of_ends (ends : Ends rest) : startsWithDigit rest = false := by
  cases rest with
  | nil => rfl
  | cons c cs =>
    rw [startsWithDigit, Bool.eq_false_iff]
    intro digit
    have structural := ends c rfl
    rw [isStructural_of_isDigit digit] at structural
    cases structural

theorem le_ofDigitChars (ds : List Char) (n : Nat) : n ≤ Nat.ofDigitChars 10 ds n := by
  rw [Nat.ofDigitChars_eq_ofDigitChars_zero]
  have scaled := Nat.le_mul_of_pos_left n (Nat.pow_pos (show 0 < 10 by decide) : 0 < 10 ^ ds.length)
  omega

theorem gatherDigits_digits (limit : Nat) (ends : Ends rest) (ds : List Char) (n : Nat)
    (digits : ∀ c ∈ ds, isDigit c = true) (fits : Nat.ofDigitChars 10 ds n ≤ limit) :
    gatherDigits limit n (ds ++ rest) = (Nat.ofDigitChars 10 ds n, ds.length, rest) := by
  induction ds generalizing n with
  | nil =>
    have stop := startsWithDigit_of_ends ends
    cases rest with
    | nil => simp [gatherDigits]
    | cons c cs => simp_all [gatherDigits, startsWithDigit]
  | cons c ds ih =>
    have step : Nat.ofDigitChars 10 (c :: ds) n = Nat.ofDigitChars 10 ds (n * 10 + digitValue c) := by
      rw [Nat.ofDigitChars_cons, Nat.mul_comm 10 n, digitValue]
    rw [step] at fits ⊢
    have taken := ih (n * 10 + digitValue c) (fun d member => digits d (by simp [member])) fits
    simp [gatherDigits, digits c (by simp), Nat.le_trans (le_ofDigitChars ds _) fits, taken]

theorem scanNumberEnd_ends (negative : Bool) (n : Nat) (ends : Ends rest) :
    scanNumberEnd negative n rest = .done (integerNumeral negative n) rest := by
  unfold scanNumberEnd
  split
  · exact absurd (ends _ rfl) (by decide)
  · exact absurd (ends _ rfl) (by decide)
  · exact absurd (ends _ rfl) (by decide)
  · rfl

theorem scanNumber_digitChars (negative : Bool) (fits : n ≤ maxSignificand) (ends : Ends rest) :
    scanNumber negative (digitChars n ++ rest) = .done (integerNumeral negative n) rest := by
  have stop := startsWithDigit_of_ends ends
  obtain rfl | pos := Nat.eq_zero_or_pos n
  · simp [digitChars, scanNumber, stop, scanNumberEnd_ends negative 0 ends]
  · obtain ⟨c, ds, text, nonzero⟩ := digitChars_head pos
    have digits : ∀ d ∈ c :: ds, isDigit d = true := fun d member =>
      isDigit_of_mem_digitChars (text ▸ member)
    have value : Nat.ofDigitChars 10 ds (digitValue c) = n := by
      have whole : Nat.ofDigitChars 10 (digitChars n) 0 = n :=
        Nat.ofDigitChars_toDigits (by decide) (by decide)
      rw [text, Nat.ofDigitChars_cons] at whole
      simpa [digitValue] using whole
    have gathered := gatherDigits_digits maxSignificand ends ds (digitValue c)
      (fun d member => digits d (by simp [member])) (by omega)
    simp [text, scanNumber, nonzero, digits c (by simp), gathered, value, stop,
      scanNumberEnd_ends negative n ends]

/-! ### Nesting -/

/-- Where a character stands: outside of strings, in a string, or after a backslash in a string. -/
inductive Zone where
  | outside
  | quoted
  | escaped

/-- How many arrays and objects are open, and the most that have been. -/
structure Nesting where
  zone : Zone
  level : Nat
  peak : Nat

def Nesting.step (n : Nesting) (c : Char) : Nesting :=
  match n.zone with
  | .escaped => { n with zone := .quoted }
  | .quoted =>
    if c = '\\' then { n with zone := .escaped }
    else if c = '"' then { n with zone := .outside }
    else n
  | .outside =>
    if c = '"' then { n with zone := .quoted }
    else if c = '[' ∨ c = '\x7b' then { n with level := n.level + 1, peak := max n.peak (n.level + 1) }
    else if c = ']' ∨ c = '\x7d' then { n with level := n.level - 1 }
    else n

/-- How many arrays and objects nest in a text. -/
def nesting (cs : List Char) : Nat := (cs.foldl Nesting.step ⟨.outside, 0, 0⟩).peak

/-- The character is neither a quote nor a bracket. -/
def isQuiet (c : Char) : Bool := !(c = '"' || c = '[' || c = ']' || c = '\x7b' || c = '\x7d')

theorem isQuiet_of_not_structural (h : isStructural c = false) : isQuiet c = true := by
  simp_all [isStructural, isQuiet]

theorem isQuiet_of_isBlank (h : isBlank c = true) : isQuiet c = true := by
  simp only [isBlank, Bool.or_eq_true, decide_eq_true_eq] at h
  obtain ((rfl | rfl) | rfl) | rfl := h <;> decide

theorem foldl_step_quiet {cs : List Char} (quiet : ∀ c ∈ cs, isQuiet c = true) :
    cs.foldl Nesting.step ⟨.outside, level, peak⟩ = ⟨.outside, level, peak⟩ := by
  induction cs with
  | nil => rfl
  | cons c cs ih =>
    have here := quiet c (by simp)
    simp only [isQuiet, Bool.not_eq_true', Bool.or_eq_false_iff, decide_eq_false_iff_not] at here
    rw [List.foldl_cons, Nesting.step]
    simp [here, ih fun d member => quiet d (by simp [member])]

theorem foldl_step_escapedChar (level peak : Nat) (c : Char) :
    (escapedChar c).foldl Nesting.step ⟨.quoted, level, peak⟩ = ⟨.quoted, level, peak⟩ := by
  have digit : ∀ d < 16, Nat.digitChar d ≠ '\\' ∧ Nat.digitChar d ≠ '"' := by decide
  unfold escapedChar
  repeat (split; rfl)
  split
  · have high := digit (c.toNat / 16 % 16) (Nat.mod_lt _ (by decide))
    have low := digit (c.toNat % 16) (Nat.mod_lt _ (by decide))
    simp [hexPair, Nesting.step, high, low]
  next quote backslash _ _ _ _ _ _ => simp [Nesting.step, quote, backslash]

theorem foldl_step_stringChars (level peak : Nat) (s : String) :
    (stringChars s).foldl Nesting.step ⟨.outside, level, peak⟩ = ⟨.outside, level, peak⟩ := by
  have inside (cs : List Char) : (cs.flatMap escapedChar).foldl Nesting.step ⟨.quoted, level, peak⟩ =
      ⟨.quoted, level, peak⟩ := by
    induction cs with
    | nil => rfl
    | cons c cs ih => rw [List.flatMap_cons, List.foldl_append, foldl_step_escapedChar, ih]
  rw [stringChars, List.foldl_append, List.foldl_cons]
  exact congrArg (List.foldl Nesting.step · ['"']) (inside s.toList)

theorem Blank.quiet {cs : List Char} (blank : Blank cs) : ∀ c ∈ cs, isQuiet c = true :=
  fun c member => isQuiet_of_isBlank (blank c member)

theorem Separates.quiet (separates : Separates first bs) : ∀ c ∈ bs, isQuiet c = true := by
  cases separates with
  | first blank => exact blank.quiet
  | later before after =>
    simp only [List.forall_mem_append, List.forall_mem_cons]
    exact ⟨before.quiet, rfl, after.quiet⟩

theorem foldl_step_scalar {cs : List Char} (below : level ≤ peak) (quiet : ∀ c ∈ cs, isQuiet c = true) :
    cs.foldl Nesting.step ⟨.outside, level, peak⟩ = ⟨.outside, level, max peak (level + 0)⟩ := by
  rw [foldl_step_quiet quiet, Nat.add_zero, Nat.max_eq_left below]

theorem Bare.foldl_step {cs : List Char} (bare : Bare cs) (below : level ≤ peak) :
    cs.foldl Nesting.step ⟨.outside, level, peak⟩ = ⟨.outside, level, max peak (level + 0)⟩ :=
  foldl_step_scalar below fun c member => isQuiet_of_not_structural (bare.2 c member)

theorem foldl_step_enclosed {left right : Char} {depth : Nat} {cs : List Char}
    (opens : ∀ level peak, Nesting.step ⟨.outside, level, peak⟩ left = ⟨.outside, level + 1, max peak (level + 1)⟩)
    (closes : ∀ level peak, Nesting.step ⟨.outside, level + 1, peak⟩ right = ⟨.outside, level, peak⟩)
    (inside : cs.foldl Nesting.step ⟨.outside, level + 1, max peak (level + 1)⟩ =
      ⟨.outside, level + 1, max (max peak (level + 1)) (level + 1 + depth)⟩) :
    (left :: (cs ++ [right])).foldl Nesting.step ⟨.outside, level, peak⟩ =
      ⟨.outside, level, max peak (level + (depth + 1))⟩ := by
  rw [List.foldl_cons, opens, List.foldl_append, inside, List.foldl_cons, closes, List.foldl_nil]
  congr 1
  omega

mutual

/-- A text of a value leaves the level as it was, and goes as deep as the value. -/
theorem Spells.foldl_step {v : Value} {cs : List Char} {level peak : Nat} (below : level ≤ peak) :
    Spells v cs →
      cs.foldl Nesting.step ⟨.outside, level, peak⟩ = ⟨.outside, level, max peak (level + v.depth)⟩
  | .null | .yes | .no => foldl_step_scalar below (List.all_eq_true.mp rfl)
  | .int i => (bare_intChars i).foldl_step below
  | .float32 _ | .float64 _ => (bare_floatChars _ _ _).foldl_step below
  | .string s => by
    simpa [Value.depth, Nat.max_eq_left below] using foldl_step_stringChars level peak s
  | .array items =>
    foldl_step_enclosed (fun _ _ => rfl) (fun _ _ => rfl)
      (items.foldl_step (Nat.le_max_right peak (level + 1)))
  | .object members =>
    foldl_step_enclosed (fun _ _ => rfl) (fun _ _ => rfl)
      (members.foldl_step (Nat.le_max_right peak (level + 1)))

theorem SpellsItems.foldl_step {first : Bool} {vs : List Value} {cs : List Char} {level peak : Nat}
    (below : level ≤ peak) : SpellsItems first vs cs →
      cs.foldl Nesting.step ⟨.outside, level, peak⟩ = ⟨.outside, level, max peak (level + itemsDepth vs)⟩
  | .nil blank => foldl_step_scalar below blank.quiet
  | .cons separates value rest => by
    rw [List.foldl_append, foldl_step_quiet separates.quiet, List.foldl_append, value.foldl_step below,
      rest.foldl_step (by omega), itemsDepth]
    congr 1
    omega

theorem SpellsMembers.foldl_step {first : Bool} {ms : List (String × Value)} {cs : List Char}
    {level peak : Nat} (below : level ≤ peak) : SpellsMembers first ms cs →
      cs.foldl Nesting.step ⟨.outside, level, peak⟩ =
        ⟨.outside, level, max peak (level + membersDepth ms)⟩
  | .nil blank => foldl_step_scalar below blank.quiet
  | .cons separates before after value rest => by
    rw [List.foldl_append, foldl_step_quiet separates.quiet, List.foldl_append,
      foldl_step_stringChars, List.foldl_append, foldl_step_quiet before.quiet, List.foldl_cons]
    have colon : Nesting.step ⟨.outside, level, peak⟩ ':' = ⟨.outside, level, peak⟩ := by
      simp [Nesting.step]
    rw [colon, List.foldl_append, foldl_step_quiet after.quiet, List.foldl_append,
      value.foldl_step below, rest.foldl_step (by omega), membersDepth]
    congr 1
    omega

end

theorem Value.nesting_pretty (v : Value) : nesting v.pretty.toList = v.depth := by
  have read := (v.prettyChars_spells 0).foldl_step (Nat.le_refl 0)
  simp [nesting, pretty, read]

end ShaderSSA.Json
