import ShaderSSA.Target.Program

/-!
# Regions under construction

Each function body, loop body and arm of a branch is built in a region of its own and then handed to
the region around it, so an instruction can only land in the region it was pushed to.
-/

namespace ShaderSSA.Target

structure Region where
  nodes : Array Node := #[]

namespace Region

def size (r : Region) : Nat := r.nodes.size

def toList (r : Region) : List Node := r.nodes.toList

def push (r : Region) (n : Node) : Region := ⟨r.nodes.push n⟩

def pushInstr (r : Region) (id : InstId) : Region := r.push (.instr id)

def pushBranch (r : Region) (condition : ValueId) (thenRegion elseRegion : Region) : Region :=
  r.push (.branch condition thenRegion.toList elseRegion.toList)

def pushLoop (r : Region) (body : Region) : Region := r.push (.loop body.toList)

@[simp]
theorem toList_push (r : Region) (n : Node) : (r.push n).toList = r.toList ++ [n] := by
  simp [toList, push]

end Region

end ShaderSSA.Target
