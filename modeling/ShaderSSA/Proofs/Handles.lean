import ShaderSSA.Proofs.Likeness
import ShaderSSA.Proofs.Weave

/-!
The handles that a program stores, by kind. What is alike stores only handles that stand for others.
-/

namespace ShaderSSA.Target

/-! ### Where handles are stored -/

def LinkKind.var? : LinkKind → Option VarId
  | .var v => some v
  | .struct _ | .array _ => none

def Operation.callee? : Operation → Option FuncId
  | .call f _ _ => some f
  | .alu .. | .intrinsic .. | .tex _ | .jump _ | .undef | .loadConst .. => none

mutual

def Node.conditions : Node → List ValueId
  | .instr _ => []
  | .branch condition thenBody elseBody => condition :: (conditionsOf thenBody ++ conditionsOf elseBody)
  | .loop body => conditionsOf body

def conditionsOf : List Node → List ValueId
  | [] => []
  | n :: ns => n.conditions ++ conditionsOf ns

end

def Body.vars (b : Body) : List VarId := b.params.toList ++ b.returnVar.toList ++ b.locals.toList

namespace Program

def bodies (p : Program) : List Body := p.functions.toList.filterMap Function.body

/-- The producers of values, and the instructions of bodies. -/
def instIds (p : Program) : List InstId :=
  p.values.toList.map ValueDef.producer ++ p.bodies.flatMap fun b => instrsOf b.nodes

/-- The operands and results of instructions, the indices on chains, and the conditions in bodies. -/
def valueIds (p : Program) : List ValueId :=
  (p.instrs.toList.flatMap fun i => i.operation.values ++ i.dest.toList) ++
    (p.links.toList.filterMap fun l => l.kind.index?) ++ p.bodies.flatMap fun b => conditionsOf b.nodes

/-- The roots of chains, the globals, and what bodies list. -/
def varIds (p : Program) : List VarId :=
  (p.links.toList.filterMap fun l => l.kind.var?) ++ p.globals.toList ++ p.bodies.flatMap Body.vars

/-- The callees of calls, and the owners of variables. -/
def funcIds (p : Program) : List FuncId :=
  (p.instrs.toList.filterMap fun i => i.operation.callee?) ++ p.vars.toList.filterMap Variable.owner

/-- The locations that instructions name, and the children of links. -/
def linkIds (p : Program) : List LinkId := p.locations ++ p.links.toList.filterMap Link.child

end Program

/-! ### What alike things store -/

section
variable {h : Pairing} {v : ValueId}

theorem exists_of_rel {α : Type} {R : α → α → Prop} {x? y? : Option α} (rel : Option.Rel R x? y?) {x : α}
    (member : x ∈ x?) : ∃ y, R x y := by
  cases rel with
  | none => cases member
  | some related =>
    obtain rfl := Option.some.inj member
    exact ⟨_, related⟩

theorem Operation.Alike.values {a b : Operation} (alike : a.Alike h b) (member : v ∈ a.values) : ∃ w, h.value v w := by
  cases alike with
  | alu _ operands | tex _ operands =>
    obtain ⟨s, there, rfl⟩ := List.mem_map.mp member
    obtain ⟨s', -, alike⟩ := exists_of_forall₂ operands there
    exact ⟨_, alike.value⟩
  | intrinsic operands =>
    obtain ⟨s, there, isValue⟩ := List.mem_filterMap.mp member
    obtain ⟨s', -, alike⟩ := exists_of_forall₂ operands there
    cases alike with
    | ssa values =>
      obtain rfl := Option.some.inj isValue
      exact ⟨_, values⟩
    | location heads => cases isValue
  | call | jump | undef | loadConst => cases member

theorem Operation.Alike.locations {a b : Operation} (alike : a.Alike h b) {l : LinkId} (member : l ∈ a.locations) :
    ∃ l', h.link l l' := by
  cases alike with
  | intrinsic operands =>
    obtain ⟨s, there, isLocation⟩ := List.mem_filterMap.mp member
    obtain ⟨s', -, alike⟩ := exists_of_forall₂ operands there
    cases alike with
    | ssa values => cases isLocation
    | location heads =>
      obtain rfl := Option.some.inj isLocation
      exact ⟨_, heads⟩
  | tex location _ =>
    obtain rfl := List.mem_singleton.mp member
    exact ⟨_, location⟩
  | call _ arguments target =>
    rcases List.mem_append.mp member with member | member
    · exact (exists_of_forall₂ arguments member).imp fun _ => And.right
    · exact exists_of_rel target (Option.mem_toList.mp member)
  | alu | jump | undef | loadConst => cases member

theorem Operation.Alike.callee {a b : Operation} (alike : a.Alike h b) {f : FuncId} (callee : a.callee? = some f) :
    h.function f := by
  cases alike with
  | call callee' =>
    obtain rfl := Option.some.inj callee
    exact callee'
  | alu | intrinsic | tex | jump | undef | loadConst => cases callee

theorem LinkKind.Alike.index {a b : LinkKind} (alike : a.Alike h b) (index : a.index? = some v) : ∃ w, h.value v w := by
  cases alike with
  | indirect values =>
    obtain rfl := Option.some.inj index
    exact ⟨_, values⟩
  | var | struct | direct => cases index

theorem LinkKind.Alike.root {a b : LinkKind} (alike : a.Alike h b) {v : VarId} (root : a.var? = some v) :
    ∃ w, h.var v w := by
  cases alike with
  | var vars =>
    obtain rfl := Option.some.inj root
    exact ⟨_, vars⟩
  | struct | direct | indirect => cases root

mutual

theorem Node.Alike.instrs {n n' : Node} (alike : n.Alike h n') {i : InstId} (member : i ∈ n.instrs) :
    ∃ j, h.inst i j := by
  match alike with
  | .instr insts =>
    rw [Node.instrs, List.mem_singleton] at member
    exact ⟨_, member ▸ insts⟩
  | .branch _ first second =>
    rw [Node.instrs, List.mem_append] at member
    rcases member with member | member
    · exact first.instrs member
    · exact second.instrs member
  | .loop body =>
    rw [Node.instrs] at member
    exact body.instrs member

theorem NodesAlike.instrs {ns ns' : List Node} (alike : NodesAlike h ns ns') {i : InstId} (member : i ∈ instrsOf ns) :
    ∃ j, h.inst i j := by
  match alike with
  | .nil => cases member
  | .cons first rest =>
    rw [instrsOf, List.mem_append] at member
    rcases member with member | member
    · exact first.instrs member
    · exact rest.instrs member

end

mutual

theorem Node.Alike.conditions {n n' : Node} (alike : n.Alike h n') (member : v ∈ n.conditions) : ∃ w, h.value v w := by
  match alike with
  | .instr _ =>
    rw [Node.conditions] at member
    cases member
  | .branch condition first second =>
    rw [Node.conditions, List.mem_cons, List.mem_append] at member
    rcases member with rfl | member | member
    · exact ⟨_, condition⟩
    · exact first.conditions member
    · exact second.conditions member
  | .loop body =>
    rw [Node.conditions] at member
    exact body.conditions member

theorem NodesAlike.conditions {ns ns' : List Node} (alike : NodesAlike h ns ns')
    (member : v ∈ conditionsOf ns) : ∃ w, h.value v w := by
  match alike with
  | .nil =>
    rw [conditionsOf] at member
    cases member
  | .cons first rest =>
    rw [conditionsOf, List.mem_append] at member
    rcases member with member | member
    · exact first.conditions member
    · exact rest.conditions member

end

theorem Body.Alike.vars {a b : Body} (alike : a.Alike h b) {v : VarId} (member : v ∈ a.vars) : ∃ w, h.var v w := by
  rw [Body.vars, List.mem_append, List.mem_append] at member
  rcases member with (member | member) | member
  · exact (exists_of_forall₂ alike.params member).imp fun _ => And.right
  · exact exists_of_rel alike.returnVar (Option.mem_toList.mp member)
  · exact (exists_of_forall₂ alike.locals member).imp fun _ => And.right

end

end ShaderSSA.Target
