import ShaderSSA.Proofs.Results
import ShaderSSA.Target.Dump

/-!
The lines of a dump. Where names have no line breaks, an instruction is printed on one line, and the line does not look
like one that opens a region.
-/

namespace ShaderSSA

/-! ### Plain text -/

namespace Text
variable {a b sep : String} {texts : List String} {cs : List Char}

/-- The text has no line break. -/
def Plain (s : String) : Prop := '\n' ∉ s.toList

@[simp]
theorem plain_append : Plain (a ++ b) ↔ Plain a ∧ Plain b := by simp [Plain, String.toList_append]

@[simp]
theorem plain_ofList : Plain (String.ofList cs) ↔ '\n' ∉ cs := by rw [Plain, String.toList_ofList]

theorem plain_join (each : ∀ s ∈ texts, Plain s) : Plain (String.join texts) := by
  simpa [Plain, String.toList_join] using each

theorem plain_intercalate (between : Plain sep) (each : ∀ s ∈ texts, Plain s) : Plain (sep.intercalate texts) := by
  induction texts with
  | nil => simp [Plain]
  | cons s texts ih =>
    have first := each s List.mem_cons_self
    have rest := ih fun s member => each s (List.mem_cons_of_mem _ member)
    cases texts with
    | nil => simpa using first
    | cons t texts => simp [String.intercalate_cons_cons, first, between, rest]

theorem not_mem_toDigits {base : Nat} (two : 1 < base) (n : Nat) : '\n' ∉ Nat.toDigits base n := by
  have digit : ∀ d, '\n' ≠ Nat.digitChar d := by grind [Nat.digitChar]
  induction n using Nat.strongRecOn with
  | ind n ih =>
    by_cases small : n < base
    · simp [Nat.toDigits_of_lt_base small, digit]
    · have large := Nat.le_of_not_lt small
      have smaller := ih (n / base) (Nat.div_lt_self (by omega) two)
      simp [Nat.toDigits_of_base_le two large, smaller, digit]

@[simp]
theorem plain_repr (n : Nat) : Plain n.repr := by
  rw [← Nat.toString_eq_repr, Nat.toString_eq_ofList_toDigits, plain_ofList]
  exact not_mem_toDigits (by decide) n

@[simp]
theorem plain_hexChars (n : Nat) : '\n' ∉ Inspect.hexChars n := not_mem_toDigits (by decide) n

theorem plain_int (i : Int) : Plain (toString i) := by
  cases i with
  | ofNat n => exact plain_repr n
  | negSucc n => exact plain_append.mpr ⟨plain_ofList.mpr (by decide), plain_repr _⟩

theorem snakeCase_ofList (cs : List Char) : snakeCase (String.ofList cs) = String.ofList (snakeChars true cs) := by
  rw [snakeCase, String.toList_ofList]

theorem plain_snakeCase (h : '\n' ∉ snakeChars true cs) : Plain (snakeCase (String.ofList cs)) := by
  rwa [snakeCase_ofList, plain_ofList]

/-- The text does not open as a line does that opens a region, whatever is added behind it. -/
def isOrdinary : List Char → Bool
  | [] => false
  | a :: rest => a ≠ 'i' && a ≠ 'l' ||
    2 ≤ rest.length && a :: rest.take 2 ≠ ['i', 'f', ' '] && a :: rest.take 2 ≠ ['l', 'o', 'o']

theorem isOrdinary_append (h : isOrdinary cs = true) (more : List Char) : isOrdinary (cs ++ more) = true := by
  cases cs with
  | nil => cases h
  | cons a rest =>
    simp only [isOrdinary, List.cons_append, Bool.or_eq_true, Bool.and_eq_true, decide_eq_true_eq] at h ⊢
    refine h.imp_right ?_
    rintro ⟨⟨long, branch⟩, loop⟩
    rw [List.take_append_of_le_length long, List.length_append]
    exact ⟨⟨Nat.le_add_right_of_le long, branch⟩, loop⟩

/-- The text has no line break and does not look like a line that opens a region. -/
structure Ordinary (s : String) : Prop where
  plain : Plain s
  opening : isOrdinary s.toList = true

theorem Ordinary.append (h : Ordinary a) (plain : Plain b) : Ordinary (a ++ b) := by
  refine ⟨plain_append.mpr ⟨h.plain, plain⟩, ?_⟩
  rw [String.toList_append]
  exact isOrdinary_append h.opening _

theorem ordinary_ofList (plain : '\n' ∉ cs) (opening : isOrdinary cs = true) : Ordinary (String.ofList cs) :=
  ⟨plain_ofList.mpr plain, by rwa [String.toList_ofList]⟩

theorem ordinary_snakeCase (plain : '\n' ∉ snakeChars true cs) (opening : isOrdinary (snakeChars true cs) = true) :
    Ordinary (snakeCase (String.ofList cs)) := by
  rw [snakeCase_ofList]
  exact ordinary_ofList plain opening

end Text

namespace Target
open Text

variable {text : String}

/-! ### Tables of names -/

theorem AluOp.text_ordinary (op : AluOp) : Ordinary op.text := by
  cases op with
  | convert src dst rounding =>
    have typed : ∀ t : AluType, Plain t.text := by
      rintro ⟨kind, bitSize⟩
      exact plain_append.mpr ⟨by cases kind <;> exact plain_ofList.mpr (by decide), plain_repr _⟩
    have arrow : Plain "->" := plain_ofList.mpr (by decide)
    have front : Ordinary ("convert." ++ src.text ++ "->" ++ dst.text) :=
      (((ordinary_ofList (by decide) (by decide)).append (typed src)).append arrow).append (typed dst)
    cases rounding with
    | undef => exact front.append (plain_ofList.mpr (by decide))
    | rtne => exact front.append (plain_append.mpr ⟨plain_ofList.mpr (by decide), plain_ofList.mpr (by decide)⟩)
  | _ => exact ordinary_snakeCase (by decide) (by decide)

theorem IntrinsicOp.text_ordinary (op : IntrinsicOp) : Ordinary op.text :=
  (ordinary_ofList (by decide) (by decide)).append (by cases op <;> exact plain_snakeCase (by decide))

theorem plain_texture (op : TextureOp) : Plain (snakeCase op.name) := by
  cases op <;> exact plain_snakeCase (by decide)

theorem Links.mem_visitFrom {α : Type} {links : Links} {visit : LinkId → Link → Except Fault α} {fuel : Nat}
    {id : LinkId} {as : List α} (h : links.visitFrom visit fuel id = .ok as) {a : α} (member : a ∈ as) :
    ∃ id link, visit id link = .ok a := by
  induction fuel generalizing id as with
  | zero =>
    obtain rfl := Except.ok.inj h
    cases member
  | succ fuel ih =>
    simp only [Links.visitFrom, bind_eq_ok] at h
    obtain ⟨link, -, first, seen, rest⟩ := h
    split at rest
    · obtain rfl := pure_eq_ok.mp rest
      obtain rfl := List.mem_singleton.mp member
      exact ⟨id, link, seen⟩
    · simp only [bind_eq_ok, pure_eq_ok] at rest
      obtain ⟨others, later, rfl⟩ := rest
      rcases List.mem_cons.mp member with rfl | member
      · exact ⟨id, link, seen⟩
      · exact ih later member

/-! ### Instructions -/

/-- No name has a line break. -/
structure Program.PlainNames (p : Program) : Prop where
  vars : ∀ x ∈ p.vars, Text.Plain x.name
  functions : ∀ f ∈ p.functions, Text.Plain f.name

theorem ValueId.text_plain (v : ValueId) : Text.Plain v.text :=
  plain_append.mpr ⟨plain_ofList.mpr (by decide), plain_repr _⟩

theorem plain_of_lanesText {lanes : Lanes} {width : UInt8} (h : Program.lanesText lanes width = .ok text) :
    Text.Plain text := by
  have letter : ∀ c, Program.laneLetter c ≠ '\n' := by
    intro c
    unfold Program.laneLetter
    split <;> decide
  have letters : Text.Plain (Program.lanesText.letters lanes) :=
    plain_append.mpr ⟨plain_ofList.mpr (by decide), plain_ofList.mpr (by simp [letter])⟩
  unfold Program.lanesText at h
  split at h
  · split at h
    · cases h
    · split at h
      · exact Except.ok.inj h ▸ letters
      · exact Except.ok.inj h ▸ plain_ofList.mpr (by decide)
  · exact Except.ok.inj h ▸ letters

theorem plain_indicesText (i : Indices) : Text.Plain (Program.indicesText i) := by
  have close : Text.Plain ")" := plain_ofList.mpr (by decide)
  refine plain_append.mpr ⟨plain_append.mpr ⟨?_, ?_⟩, ?_⟩
  · cases i.writeMask with
    | none => exact plain_ofList.mpr (by decide)
    | some mask =>
      refine plain_append.mpr ⟨plain_append.mpr ⟨?_, plain_ofList.mpr (plain_hexChars _)⟩, close⟩
      exact plain_ofList.mpr (by decide)
  · cases i.base with
    | none => exact plain_ofList.mpr (by decide)
    | some base => exact plain_append.mpr ⟨plain_append.mpr ⟨plain_ofList.mpr (by decide), plain_int _⟩, close⟩
  · cases i.stream with
    | none => exact plain_ofList.mpr (by decide)
    | some stream => exact plain_append.mpr ⟨plain_append.mpr ⟨plain_ofList.mpr (by decide), plain_repr _⟩, close⟩

theorem plain_aluSrcText {p : Program} {src : AluSrc} (h : p.aluSrcText src = .ok text) : Text.Plain text := by
  simp only [Program.aluSrcText, bind_eq_ok, pure_eq_ok] at h
  obtain ⟨_, -, lanes, read, rfl⟩ := h
  exact plain_append.mpr ⟨src.value.text_plain, plain_of_lanesText read⟩

namespace Program.PlainNames
variable {p : Program} (plain : p.PlainNames) {text : String}
include plain

theorem linkText {kind : LinkKind} (h : p.linkText kind = .ok text) : Text.Plain text := by
  cases kind with
  | var v =>
    simp only [Program.linkText, bind_eq_ok, pure_eq_ok] at h
    obtain ⟨x, found, rfl⟩ := h
    refine plain_append.mpr ⟨plain_ofList.mpr (by decide), plain.vars x ?_⟩
    unfold getVariable at found
    split at found
    · exact Except.ok.inj found ▸ Array.mem_of_getElem? ‹_›
    · cases found
  | struct index =>
    obtain rfl := pure_eq_ok.mp h
    exact plain_append.mpr ⟨plain_ofList.mpr (by decide), plain_repr _⟩
  | array index =>
    have ends : Text.Plain "[" ∧ Text.Plain "]" := ⟨plain_ofList.mpr (by decide), plain_ofList.mpr (by decide)⟩
    cases index with
    | direct i =>
      obtain rfl := pure_eq_ok.mp h
      exact plain_append.mpr ⟨plain_append.mpr ⟨ends.1, plain_repr _⟩, ends.2⟩
    | indirect v =>
      obtain rfl := pure_eq_ok.mp h
      exact plain_append.mpr ⟨plain_append.mpr ⟨ends.1, v.text_plain⟩, ends.2⟩

theorem locationText {head : LinkId} (h : p.locationText head = .ok text) : Text.Plain text := by
  simp only [Program.locationText, bind_eq_ok, pure_eq_ok] at h
  obtain ⟨steps, walked, rfl⟩ := h
  refine plain_join fun s member => ?_
  obtain ⟨_, link, seen⟩ := Links.mem_visitFrom walked member
  exact plain.linkText seen

theorem srcText {src : Src} (h : p.srcText src = .ok text) : Text.Plain text := by
  cases src with
  | ssa v => exact Except.ok.inj h ▸ v.text_plain
  | location head => exact plain.locationText h

theorem operationText {op : Operation} (h : p.operationText op = .ok text) : Ordinary text := by
  have comma : Text.Plain ", " := plain_ofList.mpr (by decide)
  have close : Text.Plain ")" := plain_ofList.mpr (by decide)
  cases op with
  | alu op srcs =>
    cases srcs with
    | nil =>
      obtain rfl := pure_eq_ok.mp h
      exact op.text_ordinary
    | cons src srcs =>
      simp only [Program.operationText, bind_eq_ok, pure_eq_ok] at h
      obtain ⟨texts, shown, rfl⟩ := h
      refine (op.text_ordinary.append (plain_ofList.mpr (by decide))).append
        (plain_intercalate comma fun s member => ?_)
      obtain ⟨_, -, shown⟩ := mem_mapM shown member
      exact plain_aluSrcText shown
  | intrinsic op srcs indices =>
    simp only [Program.operationText, bind_eq_ok, pure_eq_ok] at h
    obtain ⟨texts, shown, rfl⟩ := h
    refine (((op.text_ordinary.append (plain_ofList.mpr (by decide))).append
      (plain_intercalate comma fun s member => ?_)).append close).append (plain_indicesText indices)
    obtain ⟨_, -, shown⟩ := mem_mapM shown member
    exact plain.srcText shown
  | tex t =>
    simp only [Program.operationText, bind_eq_ok, pure_eq_ok] at h
    obtain ⟨location, shown, rfl⟩ := h
    have front : Ordinary ("tex." ++ snakeCase t.op.name) :=
      (ordinary_ofList (by decide) (by decide)).append (plain_texture t.op)
    refine ((front.append (plain_ofList.mpr (by decide))).append (plain.locationText shown)).append
      (plain_join fun s member => ?_)
    obtain ⟨src, -, rfl⟩ := List.mem_map.mp member
    have kind : Text.Plain src.kind.name := by cases src.kind <;> exact plain_ofList.mpr (by decide)
    simp only [plain_append, comma, src.value.text_plain, kind, close, and_true, true_and]
    exact plain_ofList.mpr (by decide)
  | call callee params result =>
    simp only [Program.operationText, bind_eq_ok] at h
    obtain ⟨f, found, args, shown, h⟩ := h
    have name : Text.Plain f.name := by
      unfold getFunction at found
      split at found
      · exact Except.ok.inj found ▸ plain.functions _ (Array.mem_of_getElem? ‹_›)
      · cases found
    have front : Ordinary ("call " ++ f.name ++ " (" ++ ", ".intercalate args ++ ")") := by
      refine ((((ordinary_ofList (by decide) (by decide)).append name).append (plain_ofList.mpr (by decide))).append
        (plain_intercalate comma fun s member => ?_)).append close
      obtain ⟨_, -, shown⟩ := mem_mapM shown member
      exact plain.locationText shown
    cases result with
    | none =>
      simp only [bind_eq_ok, pure_eq_ok] at h
      obtain ⟨_, rfl, rfl⟩ := h
      exact front.append (plain_ofList.mpr (by decide))
    | some head =>
      simp only [bind_eq_ok, pure_eq_ok] at h
      obtain ⟨location, shown, _, rfl, rfl⟩ := h
      exact front.append (plain_append.mpr ⟨plain_ofList.mpr (by decide), plain.locationText shown⟩)
  | jump kind =>
    obtain rfl := Except.ok.inj h
    cases kind <;> exact ordinary_ofList (by decide) (by decide)
  | undef =>
    obtain rfl := Except.ok.inj h
    exact ordinary_ofList (by decide) (by decide)
  | loadConst bitSize bits =>
    obtain rfl := Except.ok.inj h
    refine ((ordinary_ofList (by decide) (by decide)).append (plain_intercalate comma fun s member => ?_)).append close
    obtain ⟨b, -, rfl⟩ := List.mem_map.mp member
    exact plain_append.mpr ⟨plain_ofList.mpr (by decide), plain_ofList.mpr (plain_hexChars _)⟩

/-- An instruction is printed as plain text that does not look like the start of a region. -/
theorem instrText {x : Instr} (h : p.instrText x = .ok text) : Ordinary text := by
  cases dest : x.dest with
  | none =>
    simp only [Program.instrText, dest, bind_eq_ok, pure_eq_ok] at h
    obtain ⟨_, rfl, operation, shown, rfl⟩ := h
    rw [String.empty_append]
    exact plain.operationText shown
  | some v =>
    simp only [Program.instrText, dest, bind_eq_ok, pure_eq_ok] at h
    obtain ⟨d, -, _, rfl, operation, shown, rfl⟩ := h
    refine .append ?_ (plain.operationText shown).plain
    have space : Text.Plain " " := plain_ofList.mpr (by decide)
    have colon : Text.Plain ": " := plain_ofList.mpr (by decide)
    have front : Ordinary ("vec" ++ toString d.width) :=
      (ordinary_ofList (by decide) (by decide)).append (plain_repr _)
    exact ((((front.append space).append (plain_repr _)).append colon).append v.text_plain).append
      (plain_ofList.mpr (by decide))

end Program.PlainNames

/-! ### Regions -/

namespace Program

/-- What the nodes are printed as: every line ends in a line break. -/
def bodyText (p : Program) (depth : Nat) (nodes : List Node) : Except Fault String := do
  return String.join ((← p.nodesLines depth nodes).map fun line => line ++ "\n")

/-- The lines of an alternative. An empty one has none. -/
def elseLines (depth : Nat) (elseBody : List Node) (lines : List String) : List String :=
  match elseBody with
  | [] => []
  | _ :: _ => (indent depth ++ "\x7d else \x7b") :: lines

variable {p : Program} {depth : Nat} {lines : List String}

theorem nodeLines_instr {id : InstId} (h : p.nodeLines depth (.instr id) = .ok lines) :
    ∃ x text, p.getInstr id = .ok x ∧ p.instrText x = .ok text ∧ lines = [indent depth ++ text] := by
  simp only [nodeLines, bind_eq_ok, pure_eq_ok] at h
  obtain ⟨x, found, text, shown, rfl⟩ := h
  exact ⟨x, text, found, shown, rfl⟩

theorem nodeLines_branch {condition : ValueId} {thenBody elseBody : List Node}
    (h : p.nodeLines depth (.branch condition thenBody elseBody) = .ok lines) : ∃ first second,
    p.nodesLines (depth + 1) thenBody = .ok first ∧ p.nodesLines (depth + 1) elseBody = .ok second ∧
      lines = (indent depth ++ "if " ++ condition.text ++ " \x7b") :: (first ++
        (elseLines depth elseBody second ++ [indent depth ++ "\x7d"])) := by
  simp only [nodeLines, bind_eq_ok, pure_eq_ok] at h
  obtain ⟨first, shown, second, shown', rfl⟩ := h
  exact ⟨first, second, shown, shown', by cases elseBody <;> simp [elseLines]⟩

theorem nodeLines_loop {body : List Node} (h : p.nodeLines depth (.loop body) = .ok lines) : ∃ inner,
    p.nodesLines (depth + 1) body = .ok inner ∧
      lines = (indent depth ++ "loop \x7b") :: (inner ++ [indent depth ++ "\x7d"]) := by
  simp only [nodeLines, bind_eq_ok, pure_eq_ok] at h
  obtain ⟨inner, shown, rfl⟩ := h
  exact ⟨inner, shown, rfl⟩

theorem nodesLines_cons {n : Node} {ns : List Node} (h : p.nodesLines depth (n :: ns) = .ok lines) : ∃ first rest,
    p.nodeLines depth n = .ok first ∧ p.nodesLines depth ns = .ok rest ∧ lines = first ++ rest := by
  simp only [nodesLines, bind_eq_ok, pure_eq_ok] at h
  obtain ⟨first, shown, rest, shown', rfl⟩ := h
  exact ⟨first, rest, shown, shown', rfl⟩

theorem indent_plain (depth : Nat) : Text.Plain (indent depth) := plain_ofList.mpr (by simp [List.mem_replicate])

theorem indented (depth : Nat) {cs : List Char} (h : '\n' ∉ cs) : Text.Plain (indent depth ++ String.ofList cs) :=
  plain_append.mpr ⟨indent_plain depth, plain_ofList.mpr h⟩

namespace PlainNames

mutual

theorem nodeLines (plain : p.PlainNames) : ∀ (node : Node) {depth : Nat} {lines : List String},
    p.nodeLines depth node = .ok lines → ∀ line ∈ lines, Text.Plain line
  | .instr id, depth, lines, h => by
    obtain ⟨x, text, -, shown, rfl⟩ := nodeLines_instr h
    exact List.forall_mem_singleton.mpr (plain_append.mpr ⟨indent_plain depth, (plain.instrText shown).plain⟩)
  | .branch condition thenBody elseBody, depth, lines, h => by
    obtain ⟨first, second, shown, shown', rfl⟩ := nodeLines_branch h
    have opener : Text.Plain (indent depth ++ "if " ++ condition.text ++ " \x7b") :=
      plain_append.mpr ⟨plain_append.mpr ⟨indented depth (by decide), condition.text_plain⟩,
        plain_ofList.mpr (by decide)⟩
    have alternative : ∀ line ∈ elseLines depth elseBody second, Text.Plain line := by
      cases elseBody with
      | nil => exact fun _ member => nomatch member
      | cons _ _ => exact List.forall_mem_cons.mpr ⟨indented depth (by decide), plain.nodesLines _ shown'⟩
    exact List.forall_mem_cons.mpr ⟨opener, List.forall_mem_append.mpr ⟨plain.nodesLines thenBody shown,
      List.forall_mem_append.mpr ⟨alternative, List.forall_mem_singleton.mpr (indented depth (by decide))⟩⟩⟩
  | .loop body, depth, lines, h => by
    obtain ⟨inner, shown, rfl⟩ := nodeLines_loop h
    exact List.forall_mem_cons.mpr ⟨indented depth (by decide), List.forall_mem_append.mpr ⟨plain.nodesLines body shown,
      List.forall_mem_singleton.mpr (indented depth (by decide))⟩⟩

theorem nodesLines (plain : p.PlainNames) : ∀ (nodes : List Node) {depth : Nat} {lines : List String},
    p.nodesLines depth nodes = .ok lines → ∀ line ∈ lines, Text.Plain line
  | [], depth, lines, h => by
    obtain rfl := Except.ok.inj (by simpa only [Program.nodesLines] using h)
    simp
  | n :: ns, depth, lines, h => by
    obtain ⟨first, rest, shown, shown', rfl⟩ := nodesLines_cons h
    exact List.forall_mem_append.mpr ⟨plain.nodeLines n shown, plain.nodesLines ns shown'⟩

end

end PlainNames

end Program

namespace Spin

def nodes (first second : InstId) : List Node :=
  [.loop [.branch ⟨0⟩ [.instr first] [.instr second]], .instr first]

def program : Program where
  info := { name := "spin", stage := .fragment, layout := .fragment false .none false }
  functions := #[{ name := "spin", body := some { nodes := nodes ⟨0⟩ ⟨1⟩ } }]
  instrs := #[⟨.jump .breakLoop, none⟩, ⟨.jump .breakLoop, none⟩]

theorem plain : program.PlainNames where
  vars := by simp [program]
  functions f member := by
    obtain rfl := Array.mem_singleton.mp member
    exact plain_ofList.mpr (by decide)

end Spin

end Target

end ShaderSSA
