import ShaderSSA.Proofs.Thread

/-!
Which values an instruction reads, and when a region reads only values that are visible to it. Values
become visible after the instruction that defines them and stay so to the end of the region around it.
-/

namespace ShaderSSA.Target

namespace Operation

def values : Operation → List ValueId
  | .alu _ srcs => srcs.map AluSrc.value
  | .intrinsic _ srcs _ => srcs.filterMap Src.value?
  | .tex t => t.srcs.map TexSrc.value
  | .call .. | .jump _ | .undef | .loadConst .. => []

def locations : Operation → List LinkId
  | .intrinsic _ srcs _ => srcs.filterMap Src.location?
  | .tex t => [t.texture]
  | .call _ params result => params ++ result.toList
  | .alu .. | .jump _ | .undef | .loadConst .. => []

end Operation

namespace Program

/-- The kinds of the links of a chain, root first. -/
def chain? (p : Program) (head : LinkId) : Option (List LinkKind) :=
  (p.links.walk head).toOption.map fun links => links.map fun l => l.2.kind

theorem chain?_of_walk {p : Program} {head : LinkId} {spots : List Spot}
    (walks : p.links.walk head = .ok (Links.thread spots)) : p.chain? head = some (spots.map Spot.kind) := by
  rw [chain?, walks, Except.toOption, Option.map_some, Links.thread_kinds]

/-- The chains of the locations that an instruction names. -/
def chains? (p : Program) (op : Operation) : Option (List (List LinkKind)) :=
  op.locations.mapM p.chain?

/-- The values that an instruction reads: its operands, and the indices on the chains it names. -/
def reads? (p : Program) (op : Operation) : Option (List ValueId) :=
  (p.chains? op).map fun chains => op.values ++ chains.flatten.filterMap LinkKind.index?

end Program

def Node.dests (p : Program) : Node → List ValueId
  | .instr id => ((p.instr? id).bind Instr.dest).toList
  | .branch .. | .loop _ => []

def destsOf (p : Program) (nodes : List Node) : List ValueId := nodes.flatMap (Node.dests p)

mutual

/-- A node reads only what is visible. -/
def Node.Scoped (p : Program) : Node → List ValueId → Prop
  | .instr id, visible =>
    ∃ i reads, p.instr? id = some i ∧ p.reads? i.operation = some reads ∧ reads ⊆ visible
  | .branch condition thenBody elseBody, visible =>
    condition ∈ visible ∧ Scoped p thenBody visible ∧ Scoped p elseBody visible
  | .loop body, visible => Scoped p body visible

/-- Each node of a region reads only what is visible before the region or defined earlier in it. -/
def Scoped (p : Program) : List Node → List ValueId → Prop
  | [], _ => True
  | n :: ns, visible => n.Scoped p visible ∧ Scoped p ns (visible ++ n.dests p)

end

section
variable {p : Program}

@[simp]
theorem destsOf_append (a b : List Node) : destsOf p (a ++ b) = destsOf p a ++ destsOf p b :=
  List.flatMap_append

mutual

theorem Node.Scoped.mono {v w : List ValueId} (wider : v ⊆ w) :
    ∀ {n : Node}, n.Scoped p v → n.Scoped p w
  | .instr _, h => by
    simp only [Node.Scoped] at h ⊢
    obtain ⟨i, reads, found, read, inside⟩ := h
    exact ⟨i, reads, found, read, fun x member => wider (inside member)⟩
  | .branch .., h => by
    simp only [Node.Scoped] at h ⊢
    exact ⟨wider h.1, Scoped.mono wider h.2.1, Scoped.mono wider h.2.2⟩
  | .loop _, h => by
    simp only [Node.Scoped] at h ⊢
    exact Scoped.mono wider h

theorem Scoped.mono {v w : List ValueId} (wider : v ⊆ w) :
    ∀ {ns : List Node}, Scoped p ns v → Scoped p ns w
  | [], _ => by simp only [Scoped]
  | n :: ns, h => by
    simp only [Scoped] at h ⊢
    refine ⟨Node.Scoped.mono wider h.1, Scoped.mono ?_ h.2⟩
    intro x member
    rcases List.mem_append.mp member with member | member
    · exact List.mem_append_left _ (wider member)
    · exact List.mem_append_right _ member

end

theorem scoped_append {a b : List Node} {visible : List ValueId} :
    Scoped p (a ++ b) visible ↔ Scoped p a visible ∧ Scoped p b (visible ++ destsOf p a) := by
  induction a generalizing visible with
  | nil => simp [Scoped, destsOf]
  | cons n a ih =>
    simp only [List.cons_append, Scoped, ih, destsOf, List.flatMap_cons, List.append_assoc]
    exact and_assoc.symm

theorem scoped_singleton {n : Node} {visible : List ValueId} :
    Scoped p [n] visible ↔ n.Scoped p visible := by
  simp [Scoped]

end

end ShaderSSA.Target
