import ShaderSSA.Proofs.Copies

/-!
Integer opcodes for targets without native integers. No operator becomes one there, but the test of a raw boolean
does: the source says how many booleans are loaded from buffer memory.
-/

namespace ShaderSSA

namespace Target

/-- The opcode computes on integers, selects by an integer or converts between types. -/
def AluOp.isInteger : AluOp → Bool
  | .imov | .ineg | .iabs | .isign | .iadd | .isub | .imul | .idiv | .udiv | .umod | .imin | .umin | .imax | .umax
  | .imulHigh | .umulHigh | .uaddCarry | .usubBorrow | .inot | .iand | .ior | .ixor | .ishl | .ishr | .ushr
  | .bitfieldReverse | .bitCount | .ufindMsb | .ifindMsb | .findLsb | .ubitfieldExtract | .ibitfieldExtract
  | .bitfieldInsert | .ilt | .ult | .ige | .uge | .ieq | .ine | .ballIequal2 | .ballIequal3 | .ballIequal4
  | .banyInequal2 | .banyInequal3 | .banyInequal4 | .bcsel | .convert .. => true
  | _ => false

def Operation.opcode? : Operation → Option AluOp
  | .alu op _ => some op
  | _ => none

/-- How many instructions have the opcode. -/
def Program.uses (p : Program) (op : AluOp) : Nat := p.instrs.countP fun x => x.operation.opcode? = some op

end Target

/-! ### Tests that the source asks for -/

namespace Source
open Lowering

mutual

/-- How many booleans are loaded from buffer memory when the value is evaluated. -/
def Rvalue.tests (source : Program) : Rvalue → Nat
  | .place p => p.tests source + (source.holdsRaw (.place p)).toNat
  | .constant _ => 0
  | .swizzle value _ _ => value.tests source
  | .texture texture => texture.tests source
  | .expression op type operands =>
    if op = .uboLoad then
      operandTests source 0 operands + operandTests source 1 operands + type.isBoolean.toNat
    else if op = .getBufferSize then operandTests source 0 operands
    else if (interpolation? op).isSome then
      interpolantTests source operands + if op = .interpolateAtCentroid then 0 else operandTests source 1 operands
    else testsOf source operands

def testsOf (source : Program) : List Rvalue → Nat
  | [] => 0
  | r :: rs => r.tests source + testsOf source rs

def operandTests (source : Program) : Nat → List Rvalue → Nat
  | _, [] => 0
  | 0, r :: _ => r.tests source
  | skip + 1, _ :: rs => operandTests source skip rs

def interpolantTests (source : Program) : List Rvalue → Nat
  | .place p :: _ => p.tests source
  | _ => 0

/-- How many booleans are loaded from buffer memory for the indices of the place. -/
def Place.tests (source : Program) : Place → Nat
  | .var _ _ => 0
  | .field record _ _ => record.tests source
  | .element array index _ => array.tests source + index.tests source

def Texture.tests (source : Program) : Texture → Nat
  | ⟨_, _, sampler, coordinate, projector, comparator, offset, lod⟩ =>
    sampler.tests source + sourceTests source coordinate + sourceTests source projector +
      sourceTests source comparator + sourceTests source offset + lod.tests source

def sourceTests (source : Program) : Option Rvalue → Nat
  | none => 0
  | some r => r.tests source

def LodInfo.tests (source : Program) : LodInfo → Nat
  | .absent | .component _ => 0
  | .bias r | .lod r | .sampleIndex r => r.tests source
  | .grad dpdx dpdy => dpdx.tests source + dpdy.tests source

end

/-- How many booleans are loaded from buffer memory to find the location of the value. -/
def Rvalue.locationTests (source : Program) : Rvalue → Nat
  | .place p => p.tests source
  | _ => 0

def locationsTests (source : Program) : List Rvalue → Nat
  | [] => 0
  | r :: rs => r.locationTests source + locationsTests source rs

/-- The tests of the parameters of a built-in function: some parameters are locations, and the mask of a
store is no value. -/
def recipeTests (source : Program) (recipe : Recipe) (result : Option ShaderType) (params : List Rvalue) : Nat :=
  match recipe, params with
  | .atomicCounter _, location :: data | .image _, location :: data =>
    location.locationTests source + testsOf source data
  | .imageQuery, image :: _ => image.locationTests source
  | .barrier, _ | .clock, _ => 0
  | .ssboLoad, params => testsOf source params + (result.any ShaderType.isBoolean).toNat
  | .ssboStore, [block, offset, value, _] => testsOf source [block, offset] + value.tests source
  | .sharedStore, [offset, value, _] => testsOf source [offset] + value.tests source
  | _, params => testsOf source params

def resultTests (source : Program) : Option Place → Nat
  | none => 0
  | some place => place.tests source

def Call.tests (source : Program) (call : Call) : Nat :=
  match (source.signature? call.callee).bind Signature.intrinsic with
  | some id =>
    recipeTests source (ruleOf id).recipe (call.result.map Place.type) call.parameters +
      resultTests source call.result
  | none => locationsTests source call.parameters + resultTests source call.result

/-- A copy finds the location of its value, a store evaluates it. -/
def assignTests (source : Program) (target : Place) (value : Rvalue) (mask : UInt8) : Nat :=
  target.tests source +
    if assignment target value mask = .copy false then value.locationTests source else value.tests source

mutual

def Stmt.tests (source : Program) : Stmt → Nat
  | .loop body => stmtsTests source body
  | .branch condition thenBody elseBody =>
    condition.tests source + stmtsTests source thenBody + stmtsTests source elseBody
  | .discard condition => sourceTests source condition
  | .ret none => 0
  | .ret (some value) => if value.isStored then value.locationTests source else value.tests source
  | .call call => call.tests source
  | .assign target value mask condition => assignTests source target value mask + sourceTests source condition
  | .declare _ | .function .. | .jump _ | .emitVertex _ | .endPrimitive _ | .barrier => 0

def stmtsTests (source : Program) : List Stmt → Nat
  | [] => 0
  | s :: ss => s.tests source + stmtsTests source ss

end

/-- How many booleans the body of the signature loads from buffer memory. -/
def Program.tests (source : Program) (id : SignatureId) : Nat :=
  match source.signature? id with
  | some signature =>
    if !signature.isIntrinsic && signature.isDefined then stmtsTests source signature.body else 0
  | none => 0

/-- How many booleans the bodies of the signatures load from buffer memory. -/
def Program.totalTests (source : Program) : List SignatureId → Nat
  | [] => 0
  | id :: ids => source.tests id + source.totalTests ids

end Source

namespace Lowering
open Source Target Lower

/-! ### Opcodes -/

theorem Selection.opcode_isInteger {c : Selection} {op : ExprOp} {o : AluOp} (floats : c.nativeIntegers = false)
    (h : c.opcode op = .ok o) : o.isInteger = false := by
  cases op
  all_goals
    simp only [opcode, byOutput, comparison, logic, integerOnly, moveOp, fusedCompare, byWidth, floats,
      Bool.not_false, Bool.true_or, if_true, if_false, Bool.false_eq_true, reduceCtorEq] at h
    repeat' split at h
  all_goals first
    | rw [← Except.ok.inj h]; rfl
    | exact nomatch h

end Lowering

end ShaderSSA
