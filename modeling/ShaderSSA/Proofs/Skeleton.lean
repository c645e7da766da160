import ShaderSSA.Lowering.Call
import ShaderSSA.Proofs.Visible

/-!
The skeleton of a body: its control flow and effects, in order, without the instructions that only
compute a value. A list of statements has a skeleton of its own, read from the statements alone.
-/

namespace ShaderSSA

namespace Target

/-- What an instruction does besides computing a value. A copy or store is told apart by whether it goes
to the variable that the function returns its value in. -/
inductive Effect where
  | copy (returned : Bool)
  | store (returned : Bool)
  | intrinsic (op : IntrinsicOp) (stream : Option UInt32)
  | call (callee : FuncId) (params : Nat) (result : Bool)
  | jump (kind : JumpKind)
deriving DecidableEq

inductive Skeleton where
  | effect (e : Effect)
  | branch (thenBody elseBody : List Skeleton)
  | loop (body : List Skeleton)

/-- The intrinsics that only compute a value. -/
def IntrinsicOp.computes : IntrinsicOp → Bool
  | .loadDeref | .loadUbo | .getBufferSize | .interpDerefAtCentroid | .interpDerefAtOffset
  | .interpDerefAtSample => true
  | _ => false

namespace Operation

/-- The operation only computes a value. -/
def computes : Operation → Bool
  | .alu .. | .tex _ | .undef | .loadConst .. => true
  | .intrinsic op _ _ => op.computes
  | .call .. | .jump _ => false

/-- The effect of an operation that names the given chains, in a function that returns its value in
`result`. -/
def effect? (result : Option VarId) (chains : List (List LinkKind)) : Operation → Option Effect
  | .intrinsic op _ indices =>
    let returned := result.any fun v => chains.head? = some [.var v]
    match op with
    | .copyDeref => some (.copy returned)
    | .storeDeref => some (.store returned)
    | op => if op.computes then none else some (.intrinsic op indices.stream)
  | .call callee params target => some (.call callee params.length target.isSome)
  | .jump kind => some (.jump kind)
  | .alu .. | .tex _ | .undef | .loadConst .. => none

theorem effect?_eq_none {result : Option VarId} {chains : List (List LinkKind)} {op : Operation} :
    op.effect? result chains = none ↔ op.computes = true := by
  cases op with
  | intrinsic op srcs indices => cases op <;> simp [effect?, computes, IntrinsicOp.computes]
  | alu op srcs | tex instr | call callee params target | jump kind | undef | loadConst bitSize bits =>
    simp [effect?, computes]

end Operation

mutual

def Node.skeleton? (p : Program) (result : Option VarId) : Node → Option (List Skeleton)
  | .instr id => do
    let i ← p.instr? id
    let chains ← p.chains? i.operation
    return (i.operation.effect? result chains).toList.map .effect
  | .branch _ thenBody elseBody => do
    return [.branch (← skeleton? p result thenBody) (← skeleton? p result elseBody)]
  | .loop body => do return [.loop (← skeleton? p result body)]

/-- The skeleton of a region of a function that returns its value in `result`. -/
def skeleton? (p : Program) (result : Option VarId) : List Node → Option (List Skeleton)
  | [] => some []
  | n :: ns => do return (← n.skeleton? p result) ++ (← skeleton? p result ns)

end

section
variable {p : Program} {result : Option VarId}

theorem skeleton?_append {a b : List Node} {x y : List Skeleton} (first : skeleton? p result a = some x)
    (rest : skeleton? p result b = some y) : skeleton? p result (a ++ b) = some (x ++ y) := by
  induction a generalizing x with
  | nil =>
    simp only [skeleton?, Option.some.injEq] at first
    subst first
    exact rest
  | cons n a ih =>
    simp only [skeleton?, Option.bind_eq_bind, Option.pure_def, Option.bind_eq_some_iff,
      Option.some.injEq] at first
    obtain ⟨u, head, v, tail, rfl⟩ := first
    simp [skeleton?, head, ih tail]

theorem skeleton?_singleton {n : Node} {x : List Skeleton} (h : n.skeleton? p result = some x) :
    skeleton? p result [n] = some x := by
  simp [skeleton?, h]

end

end Target

namespace Source
open Target Lowering

/-- The effect of assigning a value to a place: a stored value is copied as a whole unless the mask
leaves channels out. -/
def assignment (target : Place) (value : Rvalue) (mask : UInt8) : Effect :=
  if value.isStored && (mask = 0 || (fullMask target.type.rows).toOption = some mask) then .copy false
  else .store false

/-- The effects of returning a value. -/
def returning : Option Rvalue → List Effect
  | none => [.jump .leaveFunction]
  | some value =>
    [if value.isStored then .copy true else .store true, .jump .leaveFunction]

/-- The effects of a call, where `functions` tells what signatures are lowered to. -/
def calling (source : Program) (functions : SignatureId → Option FuncId) (call : Call) :
    Option (List Effect) := do
  let signature ← source.signature? call.callee
  match signature.intrinsic with
  | none => return [.call (← functions call.callee) call.parameters.length call.result.isSome]
  | some id =>
    let op ← (chooseOp id (call.result.map Place.type) (ruleOf id).op).toOption
    return .intrinsic op none :: if call.result.isSome then [.store false] else []

mutual

def Stmt.skeleton? (source : Program) (functions : SignatureId → Option FuncId) :
    Stmt → Option (List Skeleton)
  | .declare _ => some []
  | .function .. => none
  | .loop body => do return [.loop (← stmtsSkeleton? source functions body)]
  | .branch _ thenBody elseBody => do
    return [.branch (← stmtsSkeleton? source functions thenBody)
      (← stmtsSkeleton? source functions elseBody)]
  | .discard condition =>
    some [.effect (.intrinsic (if condition.isSome then .discardIf else .discard) none)]
  | .jump .breakLoop => some [.effect (.jump .breakLoop)]
  | .jump .continueLoop => some [.effect (.jump .continueLoop)]
  | .ret value => some ((returning value).map .effect)
  | .call call => (calling source functions call).map fun effects => effects.map .effect
  | .assign target value mask condition =>
    let effect := Skeleton.effect (assignment target value mask)
    some [if condition.isSome then .branch [effect] [] else effect]
  | .emitVertex stream => some [.effect (.intrinsic .emitVertex stream.word?)]
  | .endPrimitive stream => some [.effect (.intrinsic .endPrimitive stream.word?)]
  | .barrier => some [.effect (.intrinsic .barrier none)]

/-- The skeleton of statements. -/
def stmtsSkeleton? (source : Program) (functions : SignatureId → Option FuncId) :
    List Stmt → Option (List Skeleton)
  | [] => some []
  | s :: ss => do return (← s.skeleton? source functions) ++ (← stmtsSkeleton? source functions ss)

end

end Source

end ShaderSSA
