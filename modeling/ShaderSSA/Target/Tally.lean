import ShaderSSA.Target.Build

/-!
# Counting instructions

`Program.tallies` counts, for every function with a body, the instructions of each family and the
regions.
-/

namespace ShaderSSA.Target

/-- Numbers of instructions by family, and of regions by kind. -/
structure Tally where
  alu : Nat := 0
  intrinsic : Nat := 0
  tex : Nat := 0
  call : Nat := 0
  jump : Nat := 0
  other : Nat := 0
  branches : Nat := 0
  loops : Nat := 0
deriving DecidableEq

namespace Tally

def total (t : Tally) : Nat := t.alu + t.intrinsic + t.tex + t.call + t.jump + t.other

def count (t : Tally) : Operation → Tally
  | .alu .. => { t with alu := t.alu + 1 }
  | .intrinsic .. => { t with intrinsic := t.intrinsic + 1 }
  | .tex _ => { t with tex := t.tex + 1 }
  | .call .. => { t with call := t.call + 1 }
  | .jump _ => { t with jump := t.jump + 1 }
  | .undef | .loadConst .. => { t with other := t.other + 1 }

end Tally

namespace Program

mutual

def tallyNode (p : Program) (t : Tally) : Node → Except Fault Tally
  | .instr id => do return t.count (← p.getInstr id).operation
  | .branch _ thenBody elseBody => do
    let t ← tallyNodes p { t with branches := t.branches + 1 } thenBody
    tallyNodes p t elseBody
  | .loop body => tallyNodes p { t with loops := t.loops + 1 } body

def tallyNodes (p : Program) (t : Tally) : List Node → Except Fault Tally
  | [] => .ok t
  | n :: ns => do
    let t ← tallyNode p t n
    tallyNodes p t ns

end

def tallies (p : Program) : Except Fault (List (String × Tally)) :=
  (p.functions.toList.filterMap fun f => f.body.map (f.name, ·)).mapM fun (name, b) => do
    return (name, ← p.tallyNodes {} b.nodes)

end Program

end ShaderSSA.Target
