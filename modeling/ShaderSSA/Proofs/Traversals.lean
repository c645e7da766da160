import Mathlib.Algebra.GroupWithZero.Nat
import ShaderSSA.Proofs.Handles
import ShaderSSA.Proofs.Lines
import ShaderSSA.Proofs.Order
import ShaderSSA.Target.Tally

/-!
Traversals of a body. Collecting the instructions, counting them and printing them visit the same nodes.
-/

namespace ShaderSSA

namespace Target

/-! ### What a body holds -/

inductive Family where
  | alu
  | intrinsic
  | tex
  | call
  | jump
  | other
deriving DecidableEq

def Operation.family : Operation → Family
  | .alu .. => .alu
  | .intrinsic .. => .intrinsic
  | .tex _ => .tex
  | .call .. => .call
  | .jump _ => .jump
  | .undef | .loadConst .. => .other

def Tally.of (t : Tally) : Family → Nat
  | .alu => t.alu
  | .intrinsic => t.intrinsic
  | .tex => t.tex
  | .call => t.call
  | .jump => t.jump
  | .other => t.other

def Program.isOf (p : Program) (family : Family) (id : InstId) : Bool :=
  (p.instr? id).any fun x => x.operation.family = family

mutual

/-- The node and the nodes in its regions, at any depth. -/
def Node.within : Node → List Node
  | .instr id => [.instr id]
  | .branch condition thenBody elseBody =>
    .branch condition thenBody elseBody :: (nodesWithin thenBody ++ nodesWithin elseBody)
  | .loop body => .loop body :: nodesWithin body

def nodesWithin : List Node → List Node
  | [] => []
  | n :: ns => n.within ++ nodesWithin ns

end

namespace Node

def isBranch : Node → Bool
  | .branch .. => true
  | .instr _ | .loop _ => false

def isLoop : Node → Bool
  | .loop _ => true
  | .instr _ | .branch .. => false

/-- The node is a branch with a non-empty alternative. -/
def hasElse : Node → Bool
  | .branch _ _ (_ :: _) => true
  | _ => false

end Node

/-! ### Counting -/

namespace Tally
variable (t : Tally) (op : Operation)

theorem of_count (family : Family) : (t.count op).of family = t.of family + if op.family = family then 1 else 0 := by
  cases op <;> cases family <;> rfl

theorem total_count : (t.count op).total = t.total + 1 := by
  cases op <;> simp only [count, total] <;> omega

end Tally

/-- From `t` to `u` the instructions and the nodes are counted. -/
structure Program.Counts (p : Program) (ids : List InstId) (nodes : List Node) (t u : Tally) : Prop where
  of : ∀ family, u.of family = t.of family + ids.countP (p.isOf family)
  total : u.total = t.total + ids.length
  branches : u.branches = t.branches + nodes.countP Node.isBranch
  loops : u.loops = t.loops + nodes.countP Node.isLoop

namespace Program
variable {p : Program}

theorem Counts.trans {ids more : List InstId} {nodes others : List Node} {t u v : Tally}
    (h : p.Counts ids nodes t u) (h' : p.Counts more others u v) : p.Counts (ids ++ more) (nodes ++ others) t v where
  of family := by rw [h'.of, h.of, List.countP_append, Nat.add_assoc]
  total := by rw [h'.total, h.total, List.length_append, Nat.add_assoc]
  branches := by rw [h'.branches, h.branches, List.countP_append, Nat.add_assoc]
  loops := by rw [h'.loops, h.loops, List.countP_append, Nat.add_assoc]

mutual

theorem tallyNode_counts : ∀ (node : Node) (t : Tally), (∀ i ∈ node.instrs, ∃ x, p.instr? i = some x) →
    ∃ u, p.tallyNode t node = .ok u ∧ p.Counts node.instrs node.within t u
  | .instr id, t, known => by
    obtain ⟨x, found⟩ := known id (List.mem_singleton.mpr rfl)
    refine ⟨t.count x.operation, by simp [tallyNode, getInstr, found], ?_⟩
    have branches : (t.count x.operation).branches = t.branches := by cases x.operation <;> rfl
    have loops : (t.count x.operation).loops = t.loops := by cases x.operation <;> rfl
    refine ⟨fun family => ?_, t.total_count x.operation, branches, loops⟩
    rw [t.of_count, Node.instrs, List.countP_singleton]
    simp [isOf, found]
  | .branch condition thenBody elseBody, t, known => by
    rw [Node.instrs] at known ⊢
    obtain ⟨u, first, counts⟩ := tallyNodes_counts thenBody { t with branches := t.branches + 1 }
      fun i member => known i (List.mem_append_left _ member)
    obtain ⟨v, rest, further⟩ := tallyNodes_counts elseBody u fun i member => known i (List.mem_append_right _ member)
    have here : p.Counts [] [.branch condition thenBody elseBody] t { t with branches := t.branches + 1 } :=
      ⟨fun family => by cases family <;> rfl, rfl, rfl, rfl⟩
    refine ⟨v, by simp [tallyNode, first, rest], ?_⟩
    exact here.trans (counts.trans further)
  | .loop body, t, known => by
    rw [Node.instrs] at known ⊢
    obtain ⟨u, run, counts⟩ := tallyNodes_counts body { t with loops := t.loops + 1 } known
    have here : p.Counts [] [.loop body] t { t with loops := t.loops + 1 } :=
      ⟨fun family => by cases family <;> rfl, rfl, rfl, rfl⟩
    exact ⟨u, by rw [tallyNode, run], here.trans counts⟩

theorem tallyNodes_counts : ∀ (nodes : List Node) (t : Tally), (∀ i ∈ instrsOf nodes, ∃ x, p.instr? i = some x) →
    ∃ u, p.tallyNodes t nodes = .ok u ∧ p.Counts (instrsOf nodes) (nodesWithin nodes) t u
  | [], t, _ => ⟨t, by rw [tallyNodes], fun _ => rfl, rfl, rfl, rfl⟩
  | n :: ns, t, known => by
    rw [instrsOf] at known ⊢
    obtain ⟨u, first, counts⟩ := tallyNode_counts n t fun i member => known i (List.mem_append_left _ member)
    obtain ⟨v, rest, further⟩ := tallyNodes_counts ns u fun i member => known i (List.mem_append_right _ member)
    refine ⟨v, by simp [tallyNodes, first, rest], ?_⟩
    rw [nodesWithin]
    exact counts.trans further

end

/-! ### Printing -/

/-- How many lines the nodes add to those of the instructions in their regions. -/
def frameLines (nodes : List Node) : Nat :=
  2 * nodes.countP Node.isLoop + 2 * nodes.countP Node.isBranch + nodes.countP Node.hasElse

theorem frameLines_append (a b : List Node) : frameLines (a ++ b) = frameLines a + frameLines b := by
  simp only [frameLines, List.countP_append]
  omega

mutual

theorem nodeLines_length : ∀ (node : Node) {depth : Nat} {lines : List String}, p.nodeLines depth node = .ok lines →
    lines.length = node.instrs.length + frameLines node.within
  | .instr id, depth, lines, h => by
    obtain ⟨x, text, -, -, rfl⟩ := nodeLines_instr h
    rfl
  | .branch condition thenBody elseBody, depth, lines, h => by
    obtain ⟨first, second, shown, shown', rfl⟩ := nodeLines_branch h
    have here : frameLines [.branch condition thenBody elseBody] + second.length =
        2 + (elseLines depth elseBody second).length := by
      cases elseBody with
      | nil =>
        obtain rfl := Except.ok.inj (by simpa only [nodesLines] using shown')
        rfl
      | cons n ns => simp [frameLines, elseLines, Node.isBranch, Node.isLoop, Node.hasElse]; omega
    have split := frameLines_append [.branch condition thenBody elseBody] (nodesWithin thenBody ++ nodesWithin elseBody)
    have length := nodesLines_length thenBody shown
    have length' := nodesLines_length elseBody shown'
    rw [List.singleton_append, frameLines_append] at split
    rw [Node.instrs, Node.within, split]
    simp only [List.length_cons, List.length_append, List.length_nil]
    omega
  | .loop body, depth, lines, h => by
    obtain ⟨inner, shown, rfl⟩ := nodeLines_loop h
    have here : frameLines [.loop body] = 2 := rfl
    have split := frameLines_append [.loop body] (nodesWithin body)
    have length := nodesLines_length body shown
    rw [List.singleton_append] at split
    rw [Node.instrs, Node.within, split]
    simp only [List.length_cons, List.length_append, List.length_nil]
    omega

theorem nodesLines_length : ∀ (nodes : List Node) {depth : Nat} {lines : List String},
    p.nodesLines depth nodes = .ok lines →
    lines.length = (instrsOf nodes).length + frameLines (nodesWithin nodes)
  | [], depth, lines, h => by
    obtain rfl := Except.ok.inj (by simpa only [nodesLines] using h)
    rfl
  | n :: ns, depth, lines, h => by
    obtain ⟨first, rest, shown, shown', rfl⟩ := nodesLines_cons h
    rw [instrsOf, nodesWithin, frameLines_append, List.length_append, List.length_append, nodeLines_length n shown,
      nodesLines_length ns shown']
    omega

end

theorem count_breaks {lines : List String} (each : ∀ line ∈ lines, Text.Plain line) :
    (String.join (lines.map fun line => line ++ "\n")).toList.count '\n' = lines.length := by
  induction lines with
  | nil => rfl
  | cons line lines ih =>
    have first := List.count_eq_zero_of_not_mem (each line List.mem_cons_self)
    have rest := ih fun line member => each line (List.mem_cons_of_mem _ member)
    rw [String.toList_join] at rest ⊢
    simp [first, rest, String.toList_append]

/-! ### Agreement -/

/-- The tally counts what stands in the regions, and what is printed of them. -/
structure Agrees (p : Program) (nodes : List Node) (t : Tally) : Prop where
  of : ∀ family, t.of family = (instrsOf nodes).countP (p.isOf family)
  total : t.total = (instrsOf nodes).length
  branches : t.branches = (nodesWithin nodes).countP Node.isBranch
  loops : t.loops = (nodesWithin nodes).countP Node.isLoop
  lines : p.PlainNames → ∀ {depth : Nat} {text : String}, p.bodyText depth nodes = .ok text →
    text.toList.count '\n' = t.total + 2 * t.loops + 2 * t.branches + (nodesWithin nodes).countP Node.hasElse

theorem Counts.agrees {nodes : List Node} {t : Tally} (h : p.Counts (instrsOf nodes) (nodesWithin nodes) {} t) :
    p.Agrees nodes t := by
  have of : ∀ family, t.of family = (instrsOf nodes).countP (p.isOf family) := fun family => by
    rw [h.of]
    cases family <;> exact Nat.zero_add _
  have total : t.total = (instrsOf nodes).length := h.total.trans (Nat.zero_add _)
  have branches : t.branches = (nodesWithin nodes).countP Node.isBranch := h.branches.trans (Nat.zero_add _)
  have loops : t.loops = (nodesWithin nodes).countP Node.isLoop := h.loops.trans (Nat.zero_add _)
  refine ⟨of, total, branches, loops, fun plain {depth text} shown => ?_⟩
  simp only [bodyText, bind_eq_ok, pure_eq_ok] at shown
  obtain ⟨lines, shown, rfl⟩ := shown
  rw [count_breaks (plain.nodesLines nodes shown), nodesLines_length nodes shown, frameLines, total, branches, loops]
  omega

/-- The entry has the name of the function and agrees with its body. -/
def Tallied (p : Program) (f : Function) (entry : String × Tally) : Prop :=
  entry.1 = f.name ∧ ∃ b, f.body = some b ∧ p.Agrees b.nodes entry.2 ∧
    ∀ id, p.function? id = some f → p.instrsIn id = .ok (instrsOf b.nodes)

theorem tallies_agree (known : ∀ b ∈ p.bodies, ∀ i ∈ instrsOf b.nodes, ∃ x, p.instr? i = some x) :
    ∃ tallies, p.tallies = .ok tallies ∧
      List.Forall₂ p.Tallied (p.functions.toList.filter fun f => f.body.isSome) tallies := by
  rw [bodies] at known
  rw [tallies]
  generalize p.functions.toList = fs at known ⊢
  induction fs with
  | nil => exact ⟨[], rfl, .nil⟩
  | cons f fs ih =>
    obtain ⟨entries, rest, agree⟩ := ih fun b member => known b (by
      rw [List.filterMap_cons]
      split
      · exact member
      · exact List.mem_cons_of_mem _ member)
    cases body : f.body with
    | none => exact ⟨entries, by simpa [body] using rest, by simpa [body] using agree⟩
    | some b =>
      obtain ⟨t, counted, counts⟩ := tallyNodes_counts (p := p) b.nodes {} (known b (by simp [body]))
      refine ⟨(f.name, t) :: entries, ?_, ?_⟩
      · simp only [List.filterMap_cons, body, Option.map_some, List.mapM_cons, bind_eq_ok, pure_eq_ok]
        exact ⟨_, ⟨t, counted, rfl⟩, entries, rest, rfl⟩
      · rw [List.filter_cons_of_pos (by simp [body])]
        refine .cons ⟨rfl, b, body, counts.agrees, fun id found => ?_⟩ agree
        simp [instrsIn, getFunction, found, body]

end Program

end Target

namespace Lowering
open Source Target Lower

variable {source : Source.Program} {capabilities : Capabilities} {p : Target.Program}

theorem flatMap_instrsAt (p : Target.Program) :
    (List.range p.functions.size).flatMap p.instrsAt = p.bodies.flatMap fun b => instrsOf b.nodes := by
  have each : ∀ fs : List Function,
      ((List.range fs.length).flatMap fun i =>
        (((fs[i]?).bind Function.body).map fun b => (b.returnVar, b.nodes)).elim [] fun code => instrsOf code.2) =
        (fs.filterMap Function.body).flatMap fun b => instrsOf b.nodes := fun fs => by
    induction fs with
    | nil => rfl
    | cons f fs ih =>
      rw [List.length_cons, List.range_succ_eq_map, List.flatMap_cons, List.flatMap_map]
      simp only [List.getElem?_cons_succ, ih]
      cases body : f.body <;> simp [body]
  have whole := each p.functions.toList
  simp only [Array.getElem?_toList, Array.length_toList] at whole
  exact whole

theorem sum_totals {fs : List Function} {tallies : List (String × Tally)}
    (h : List.Forall₂ p.Tallied (fs.filter fun f => f.body.isSome) tallies) :
    (tallies.map fun entry => entry.2.total).sum =
      ((fs.filterMap Function.body).flatMap fun b => instrsOf b.nodes).length := by
  induction fs generalizing tallies with
  | nil =>
    cases h
    rfl
  | cons f fs ih =>
    cases body : f.body with
    | none =>
      rw [List.filter_cons_of_neg (by simp [body])] at h
      rw [List.filterMap_cons_none body, ih h]
    | some b =>
      rw [List.filter_cons_of_pos (by simp [body])] at h
      cases h with
      | cons tallied rest =>
        obtain ⟨-, c, same, agrees, -⟩ := tallied
        obtain rfl : b = c := Option.some.inj (body.symm.trans same)
        rw [List.map_cons, List.sum_cons, ih rest, agrees.total, List.filterMap_cons_some body, List.flatMap_cons,
          List.length_append]

/-- Collecting, counting and printing agree on every program whose bodies hold instructions that exist, and count every
instruction of a lowered program once if no signature is listed twice. -/
theorem traversals_agree :
    (∀ p : Target.Program, (∀ b ∈ p.bodies, ∀ i ∈ instrsOf b.nodes, ∃ x, p.instr? i = some x) →
      ∃ tallies, p.tallies = .ok tallies ∧
        List.Forall₂ p.Tallied (p.functions.toList.filter fun f => f.body.isSome) tallies) ∧
    ∀ (source : Source.Program) (capabilities : Capabilities) (p : Target.Program),
      lower source capabilities = .ok p → p.Fits → source.listed.Nodup →
      ∃ tallies, p.tallies = .ok tallies ∧ (tallies.map fun entry => entry.2.total).sum = p.instrs.size := by
  refine ⟨fun p => Program.tallies_agree, fun source capabilities p h fits once => ?_⟩
  have all := lower_instrsAt h fits once
  rw [flatMap_instrsAt] at all
  have known : ∀ b ∈ p.bodies, ∀ i ∈ instrsOf b.nodes, ∃ x, p.instr? i = some x := by
    intro b member i inside
    have listed : i ∈ instsBetween 0 p.instrs.size := all ▸ List.mem_flatMap.mpr ⟨b, member, inside⟩
    simp only [instsBetween, List.mem_map, List.mem_range'_1] at listed
    obtain ⟨k, ⟨-, below⟩, rfl⟩ := listed
    have index : (UInt32.ofNat k).toNat = k := UInt32.toNat_ofNat_of_lt' (by have := fits.instrs; omega)
    exact ⟨p.instrs[k], by rw [Program.instr?, index]; exact Array.getElem?_eq_getElem _⟩
  obtain ⟨tallies, counted, agree⟩ := Program.tallies_agree known
  refine ⟨tallies, counted, ?_⟩
  rw [sum_totals agree, ← Program.bodies, all]
  simp [instsBetween]

theorem traversals_agree_spin :
    (∃ t, Spin.program.tallies = .ok [("spin", t)] ∧ t.jump = 3 ∧ t.total = 3 ∧ t.branches = 1 ∧ t.loops = 1 ∧
      ∃ text, Spin.program.bodyText 1 (Spin.nodes ⟨0⟩ ⟨1⟩) = .ok text ∧ text.toList.count '\n' = 8) ∧
    ∃ p, lower Sample.program {} = .ok p ∧ p.Fits ∧ Sample.program.listed.Nodup ∧
      ∃ tallies, p.tallies = .ok tallies ∧ (tallies.map fun entry => entry.2.total).sum = 14 := by
  constructor
  · have known : ∀ b ∈ Spin.program.bodies, ∀ i ∈ instrsOf b.nodes, ∃ x, Spin.program.instr? i = some x := by
      intro b member i inside
      obtain rfl := List.mem_singleton.mp member
      have two : i = ⟨0⟩ ∨ i = ⟨1⟩ := by simpa [Spin.nodes, instrsOf, Node.instrs, or_comm] using inside
      rcases two with rfl | rfl <;> exact ⟨_, rfl⟩
    obtain ⟨tallies, counted, agree⟩ := traversals_agree.1 Spin.program known
    obtain ⟨⟨name, t⟩, none, ⟨rfl, b, body, agrees, -⟩, done, rfl⟩ := List.forall₂_cons_left_iff.mp agree
    obtain rfl := List.forall₂_nil_left_iff.mp done
    obtain rfl := Option.some.inj body
    obtain ⟨text, shown⟩ : ∃ text, Spin.program.bodyText 1 (Spin.nodes ⟨0⟩ ⟨1⟩) = .ok text := ⟨_, rfl⟩
    have lines := agrees.lines Spin.plain shown
    rw [agrees.total, agrees.branches, agrees.loops] at lines
    exact ⟨t, counted, agrees.of .jump, agrees.total, agrees.branches, agrees.loops, text, shown, lines⟩
  · obtain ⟨p, lowered, fits, size, -⟩ := Sample.lowers
    have once : Sample.program.listed.Nodup := by decide
    exact ⟨p, lowered, fits, once, size ▸ traversals_agree.2 _ _ p lowered fits once⟩

end Lowering

end ShaderSSA
