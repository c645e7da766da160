import Mathlib.Data.List.Forall2
import ShaderSSA.Proofs.Lines

/-!
Regions in a dump. Every node is printed on lines that tell where it ends, so what is printed shows the tree of a body.
-/

namespace ShaderSSA

namespace Target
open Text

variable {lines lines' : List String}

/-- The nodes have the same shape, branch on the same conditions and hold instructions that are printed alike. -/
inductive Node.ShownAlike (p : Program) : Node → Node → Prop
  | instr {i j : InstId} {x y : Instr} {text : String} (found : p.getInstr i = .ok x) (found' : p.getInstr j = .ok y)
    (shown : p.instrText x = .ok text) (shown' : p.instrText y = .ok text) : ShownAlike p (.instr i) (.instr j)
  | branch {condition : ValueId} {thenBody thenBody' elseBody elseBody' : List Node}
    (first : List.Forall₂ (ShownAlike p) thenBody thenBody') (second : List.Forall₂ (ShownAlike p) elseBody elseBody') :
    ShownAlike p (.branch condition thenBody elseBody) (.branch condition thenBody' elseBody')
  | loop {body body' : List Node} (inner : List.Forall₂ (ShownAlike p) body body') :
    ShownAlike p (.loop body) (.loop body')

/-! ### Lines that open and close regions -/

theorem ValueId.text_injective {v w : ValueId} (h : v.text = w.text) : v = w := by
  have same : v.index.toNat.repr = w.index.toNat.repr := (String.append_right_inj "%").mp h
  rw [Nat.repr_eq_ofList_toDigits, Nat.repr_eq_ofList_toDigits, String.ofList_inj] at same
  have index : v.index.toNat = w.index.toNat := by
    rw [← Nat.ofDigitChars_ten_toDigits (n := v.index.toNat), same, Nat.ofDigitChars_ten_toDigits]
  exact congrArg ValueId.mk (UInt32.toNat_inj.mp index)

theorem branch_not_ordinary (v : ValueId) : ¬ Ordinary ("if " ++ v.text ++ " \x7b") := fun h => by
  simpa [String.toList_append, isOrdinary] using h.opening

theorem loop_not_ordinary : ¬ Ordinary "loop \x7b" := fun h => by
  simpa [isOrdinary] using h.opening

theorem branch_ne_loop (v : ValueId) : "if " ++ v.text ++ " \x7b" ≠ "loop \x7b" := fun h => by
  simpa [String.toList_append] using congrArg String.toList h

namespace Program
variable {p : Program} {depth : Nat}

/-- The lines do not go on with one that is indented as deep. -/
def Outside (depth : Nat) (rest : List String) : Prop := ∀ text more, rest ≠ (indent depth ++ text) :: more

theorem outside_close (depth : Nat) (cs : List Char) (rest : List String) :
    Outside (depth + 1) ((indent depth ++ String.ofList ('\x7d' :: cs)) :: rest) := by
  intro text more same
  have chars := congrArg String.toList (List.cons.inj same).1
  have deeper : List.replicate (4 * (depth + 1)) ' ' = List.replicate (4 * depth) ' ' ++ List.replicate 4 ' ' := by
    rw [List.replicate_append_replicate, Nat.mul_add]
  simp [indent, String.toList_append, deeper, List.append_assoc] at chars

theorem outside_alternative (depth : Nat) (elseBody : List Node) (lines rest : List String) :
    Outside (depth + 1) (elseLines depth elseBody lines ++ [indent depth ++ "\x7d"] ++ rest) := by
  cases elseBody with
  | nil => exact outside_close depth [] rest
  | cons n ns => exact outside_close depth [' ', 'e', 'l', 's', 'e', ' ', '\x7b'] _

theorem nodesLines_nil (h : p.nodesLines depth [] = .ok lines) : lines = [] :=
  (Except.ok.inj (by simpa only [nodesLines] using h)).symm

theorem alternative_inside {elseBody elseBody' : List Node} {rest rest' : List String}
    (h : p.nodesLines (depth + 1) elseBody = .ok lines) (h' : p.nodesLines (depth + 1) elseBody' = .ok lines')
    (same : elseLines depth elseBody lines ++ [indent depth ++ "\x7d"] ++ rest =
      elseLines depth elseBody' lines' ++ [indent depth ++ "\x7d"] ++ rest') :
    lines ++ ((indent depth ++ "\x7d") :: rest) = lines' ++ ((indent depth ++ "\x7d") :: rest') := by
  have apart : indent depth ++ "\x7d" ≠ indent depth ++ "\x7d else \x7b" := by
    rw [Ne, String.append_right_inj]
    decide
  cases elseBody with
  | nil =>
    obtain rfl := nodesLines_nil h
    cases elseBody' with
    | nil =>
      obtain rfl := nodesLines_nil h'
      exact same
    | cons n' ns' => exact (apart (List.cons.inj same).1).elim
  | cons n ns =>
    cases elseBody' with
    | nil => exact (apart (List.cons.inj same).1.symm).elim
    | cons n' ns' => simpa [elseLines] using same

/-- The text that the first line of the node shows. -/
def Opens (p : Program) (text : String) : Node → Prop
  | .instr id => ∃ x, p.getInstr id = .ok x ∧ p.instrText x = .ok text
  | .branch condition _ _ => text = "if " ++ condition.text ++ " \x7b"
  | .loop _ => text = "loop \x7b"

theorem nodeLines_opens {node : Node} (h : p.nodeLines depth node = .ok lines) :
    ∃ text more, lines = (indent depth ++ text) :: more ∧ p.Opens text node := by
  cases node with
  | instr id =>
    obtain ⟨x, text, found, shown, rfl⟩ := nodeLines_instr h
    exact ⟨text, [], rfl, x, found, shown⟩
  | branch condition thenBody elseBody =>
    obtain ⟨first, second, -, -, rfl⟩ := nodeLines_branch h
    exact ⟨_, _, by simp only [String.append_assoc]; rfl, by simp only [Opens, String.append_assoc]⟩
  | loop body =>
    obtain ⟨inner, -, rfl⟩ := nodeLines_loop h
    exact ⟨_, _, rfl, rfl⟩

namespace Opens
variable {text : String} {node : Node}

theorem instr (ordinary : Ordinary text) (h : p.Opens text node) :
    ∃ j y, node = .instr j ∧ p.getInstr j = .ok y ∧ p.instrText y = .ok text := by
  cases node with
  | instr j =>
    obtain ⟨y, found, shown⟩ := h
    exact ⟨j, y, rfl, found, shown⟩
  | branch condition thenBody elseBody => exact (branch_not_ordinary condition (h ▸ ordinary)).elim
  | loop body => exact (loop_not_ordinary (h ▸ ordinary)).elim

variable (plain : p.PlainNames)
include plain

theorem branch {condition : ValueId} (h : p.Opens ("if " ++ condition.text ++ " \x7b") node) :
    ∃ thenBody elseBody, node = .branch condition thenBody elseBody := by
  cases node with
  | instr j =>
    obtain ⟨y, -, shown⟩ := h
    exact (branch_not_ordinary condition (plain.instrText shown)).elim
  | branch condition' thenBody elseBody =>
    have same : condition.text = condition'.text := by simpa [Opens, String.append_assoc] using h
    exact ⟨thenBody, elseBody, by rw [ValueId.text_injective same]⟩
  | loop body => exact (branch_ne_loop condition h).elim

theorem loop (h : p.Opens "loop \x7b" node) : ∃ body, node = .loop body := by
  cases node with
  | instr j =>
    obtain ⟨y, -, shown⟩ := h
    exact (loop_not_ordinary (plain.instrText shown)).elim
  | branch condition thenBody elseBody => exact (branch_ne_loop condition h.symm).elim
  | loop body => exact ⟨body, rfl⟩

end Opens

/-! ### Reading a dump back -/

mutual

/-- Whatever follows, the lines of a node show the node and end with it. -/
theorem nodeLines_unique (plain : p.PlainNames) :
    ∀ (node node' : Node) {depth : Nat} {lines lines' rest rest' : List String},
    p.nodeLines depth node = .ok lines → p.nodeLines depth node' = .ok lines' → lines ++ rest = lines' ++ rest' →
    node.ShownAlike p node' ∧ rest = rest'
  | .instr i, node', depth, lines, lines', rest, rest', h, h', same => by
    obtain ⟨x, text, found, shown, rfl⟩ := nodeLines_instr h
    obtain ⟨text', more, rfl, opens⟩ := nodeLines_opens h'
    obtain rfl := (String.append_right_inj _).mp (List.cons.inj same).1
    obtain ⟨j, y, rfl, found', shown'⟩ := opens.instr (plain.instrText shown)
    obtain ⟨_, _, -, -, lines⟩ := nodeLines_instr h'
    obtain ⟨-, rfl⟩ := List.cons.inj lines
    exact ⟨.instr found found' shown shown', (List.cons.inj same).2⟩
  | .branch condition thenBody elseBody, node', depth, lines, lines', rest, rest', h, h', same => by
    obtain ⟨first, second, shown, shown', rfl⟩ := nodeLines_branch h
    obtain ⟨text', more, begins, opens⟩ := nodeLines_opens h'
    obtain rfl : text' = "if " ++ condition.text ++ " \x7b" := by
      rw [begins] at same
      simpa [String.append_assoc, eq_comm] using (List.cons.inj same).1
    obtain ⟨thenBody', elseBody', rfl⟩ := opens.branch plain
    obtain ⟨first', second', inner, inner', rfl⟩ := nodeLines_branch h'
    rw [List.cons_append, List.cons_append, List.append_assoc first, List.append_assoc first'] at same
    obtain ⟨alike, after⟩ := nodesLines_unique plain thenBody thenBody' shown inner
      (outside_alternative depth elseBody second rest) (outside_alternative depth elseBody' second' rest')
      (List.cons.inj same).2
    obtain ⟨alike', after⟩ := nodesLines_unique plain elseBody elseBody' shown' inner' (outside_close depth [] rest)
      (outside_close depth [] rest') (alternative_inside shown' inner' after)
    exact ⟨.branch alike alike', (List.cons.inj after).2⟩
  | .loop body, node', depth, lines, lines', rest, rest', h, h', same => by
    obtain ⟨inside, shown, rfl⟩ := nodeLines_loop h
    obtain ⟨text', more, begins, opens⟩ := nodeLines_opens h'
    obtain rfl : "loop \x7b" = text' := by
      rw [begins] at same
      exact (String.append_right_inj _).mp (List.cons.inj same).1
    obtain ⟨body', rfl⟩ := opens.loop plain
    obtain ⟨inside', shown', rfl⟩ := nodeLines_loop h'
    rw [List.cons_append, List.cons_append, List.append_assoc, List.append_assoc] at same
    obtain ⟨alike, after⟩ := nodesLines_unique plain body body' shown shown' (outside_close depth [] rest)
      (outside_close depth [] rest') (List.cons.inj same).2
    exact ⟨.loop alike, (List.cons.inj after).2⟩

theorem nodesLines_unique (plain : p.PlainNames) :
    ∀ (nodes nodes' : List Node) {depth : Nat} {lines lines' rest rest' : List String},
    p.nodesLines depth nodes = .ok lines → p.nodesLines depth nodes' = .ok lines' →
    Outside depth rest → Outside depth rest' → lines ++ rest = lines' ++ rest' →
    List.Forall₂ (Node.ShownAlike p) nodes nodes' ∧ rest = rest'
  | [], nodes', depth, lines, lines', rest, rest', h, h', outside, outside', same => by
    obtain rfl := nodesLines_nil h
    cases nodes' with
    | nil =>
      obtain rfl := nodesLines_nil h'
      exact ⟨.nil, same⟩
    | cons n' ns' =>
      obtain ⟨first, more, shown, -, rfl⟩ := nodesLines_cons h'
      obtain ⟨text, inner, rfl, -⟩ := nodeLines_opens shown
      exact (outside _ _ same).elim
  | n :: ns, nodes', depth, lines, lines', rest, rest', h, h', outside, outside', same => by
    obtain ⟨first, more, shown, later, rfl⟩ := nodesLines_cons h
    cases nodes' with
    | nil =>
      obtain rfl := nodesLines_nil h'
      obtain ⟨text, inner, rfl, -⟩ := nodeLines_opens shown
      exact (outside' _ _ same.symm).elim
    | cons n' ns' =>
      obtain ⟨first', more', shown', later', rfl⟩ := nodesLines_cons h'
      rw [List.append_assoc, List.append_assoc] at same
      obtain ⟨alike, same⟩ := nodeLines_unique plain n n' shown shown' same
      obtain ⟨others, same⟩ := nodesLines_unique plain ns ns' later later' outside outside' same
      exact ⟨.cons alike others, same⟩

end

mutual

theorem nodeLines_alike : ∀ (node : Node) {node' : Node} (depth : Nat), node.ShownAlike p node' →
    p.nodeLines depth node = p.nodeLines depth node'
  | .instr i, _, depth, .instr found found' shown shown' => by
    simp [nodeLines, found, found', shown, shown']
  | .branch condition thenBody elseBody, _, depth, .branch first second => by
    rw [nodeLines, nodeLines, nodesLines_alike thenBody (depth + 1) first, nodesLines_alike elseBody (depth + 1) second]
    cases second <;> rfl
  | .loop body, _, depth, .loop inner => by rw [nodeLines, nodeLines, nodesLines_alike body (depth + 1) inner]

theorem nodesLines_alike : ∀ (nodes : List Node) {nodes' : List Node} (depth : Nat),
    List.Forall₂ (Node.ShownAlike p) nodes nodes' → p.nodesLines depth nodes = p.nodesLines depth nodes'
  | [], _, _, .nil => rfl
  | n :: ns, _, depth, .cons alike others => by
    rw [nodesLines, nodesLines, nodeLines_alike n depth alike, nodesLines_alike ns depth others]

end

theorem cons_break_inj {a b rest rest' : List Char} (plain : '\n' ∉ a) (plain' : '\n' ∉ b)
    (h : a ++ '\n' :: rest = b ++ '\n' :: rest') : a = b ∧ rest = rest' := by
  obtain ⟨more, rfl, tail⟩ | ⟨more, rfl, tail⟩ := List.append_eq_append_iff.mp h
  · cases more with
    | nil => exact ⟨by simp, (List.cons.inj tail).2⟩
    | cons c more => simp [← (List.cons.inj tail).1] at plain'
  · cases more with
    | nil => exact ⟨by simp, (List.cons.inj tail).2.symm⟩
    | cons c more => simp [← (List.cons.inj tail).1] at plain

theorem join_injective (plain : ∀ line ∈ lines, Text.Plain line) (plain' : ∀ line ∈ lines', Text.Plain line)
    (h : String.join (lines.map fun line => line ++ "\n") = String.join (lines'.map fun line => line ++ "\n")) :
    lines = lines' := by
  rw [← String.toList_inj, String.toList_join, String.toList_join] at h
  induction lines generalizing lines' with
  | nil =>
    cases lines' with
    | nil => rfl
    | cons line' lines' => simp [String.toList_append] at h
  | cons line lines ih =>
    cases lines' with
    | nil => simp [String.toList_append] at h
    | cons line' lines' =>
      simp only [List.map_cons, List.flatMap_cons, String.toList_append, List.append_assoc] at h
      obtain ⟨first, rest⟩ := cons_break_inj (plain line List.mem_cons_self) (plain' line' List.mem_cons_self) h
      rw [String.toList_inj.mp first, ih (fun line member => plain line (List.mem_cons_of_mem _ member))
        (fun line member => plain' line (List.mem_cons_of_mem _ member)) rest]

/-- What is printed of two bodies is the same exactly when the bodies are trees of the same shape, with the same
conditions and with instructions that are printed alike. -/
theorem bodyText_eq_iff {nodes nodes' : List Node} {text text' : String} (plain : p.PlainNames)
    (h : p.bodyText depth nodes = .ok text) (h' : p.bodyText depth nodes' = .ok text') :
    text = text' ↔ List.Forall₂ (Node.ShownAlike p) nodes nodes' := by
  simp only [bodyText, bind_eq_ok, pure_eq_ok] at h h'
  obtain ⟨lines, shown, rfl⟩ := h
  obtain ⟨lines', shown', rfl⟩ := h'
  constructor
  · intro same
    have outside : Outside depth [] := fun _ _ => (List.cons_ne_nil _ _).symm
    have same := join_injective (plain.nodesLines nodes shown) (plain.nodesLines nodes' shown') same
    exact (nodesLines_unique plain nodes nodes' shown shown' outside outside (congrArg (· ++ []) same)).1
  · intro alike
    rw [nodesLines_alike nodes depth alike, shown'] at shown
    rw [Except.ok.inj shown]

theorem bodyText_eq_iff_spin : ∃ text, Spin.program.PlainNames ∧
    Spin.program.bodyText 1 (Spin.nodes ⟨0⟩ ⟨1⟩) = .ok text ∧
    Spin.program.bodyText 1 (Spin.nodes ⟨1⟩ ⟨0⟩) = .ok text ∧
    List.Forall₂ (Node.ShownAlike Spin.program) (Spin.nodes ⟨0⟩ ⟨1⟩) (Spin.nodes ⟨1⟩ ⟨0⟩) := by
  obtain ⟨text, shown, shown'⟩ : ∃ text, Spin.program.bodyText 1 (Spin.nodes ⟨0⟩ ⟨1⟩) = .ok text ∧
      Spin.program.bodyText 1 (Spin.nodes ⟨1⟩ ⟨0⟩) = .ok text := ⟨_, rfl, rfl⟩
  exact ⟨text, Spin.plain, shown, shown', (bodyText_eq_iff Spin.plain shown shown').mp rfl⟩

end Program

end Target

end ShaderSSA
