import Mathlib.Algebra.GroupWithZero.Nat
import ShaderSSA.Proofs.Programs

/-!
Well-formed source programs. The checks follow the order in which a program is traversed and carry the
variables that have been declared so far: a place must start at one of them.
-/

namespace ShaderSSA

def ShaderType.isValue : ShaderType → Bool
  | .numeric _ rows columns => 1 ≤ rows && rows ≤ 4 && columns = 1
  | _ => false

namespace VarMode

def isParameter : VarMode → Bool
  | .functionIn | .functionOut | .functionInout => true
  | _ => false

def isFunctionOwned : VarMode → Bool
  | .constIn => true
  | mode => mode.isParameter

end VarMode

namespace ExprOp

def readsMemory : ExprOp → Bool
  | .uboLoad | .getBufferSize | .interpolateAtCentroid | .interpolateAtOffset | .interpolateAtSample => true
  | _ => false

/-- The operator is computed from its operands alone and need not be decomposed first. -/
def isComputation (op : ExprOp) : Bool := !op.mustBeDecomposed && !op.readsMemory

/-- The operator has a form with so many operands. -/
def takes (op : ExprOp) (operands : Nat) : Bool :=
  match op with
  | .add | .sub | .mul | .div | .mod | .less | .greater | .lequal | .gequal | .equal | .nequal | .allEqual
  | .anyNequal | .logicAnd | .logicXor | .logicOr | .bitAnd | .bitXor | .bitOr | .lshift | .rshift | .min
  | .max | .pow | .dot | .imulHigh | .carry | .borrow | .ldexp | .uboLoad | .vectorExtract
  | .interpolateAtOffset | .interpolateAtSample => operands = 2
  | .fma | .lrp | .csel | .bitfieldExtract | .vectorInsert => operands = 3
  | .bitfieldInsert => operands = 4
  | .vector => 2 ≤ operands && operands ≤ 4
  | _ => operands = 1

end ExprOp

namespace Source
open Lowering

/-! ### Literals -/

def Scalar.base : Scalar → BaseType
  | .u8 _ => .uint8
  | .i8 _ => .int8
  | .u16 _ => .uint16
  | .i16 _ => .int16
  | .u32 _ => .uint
  | .i32 _ => .int
  | .u64 _ => .uint64
  | .i64 _ => .int64
  | .f16 _ => .float16
  | .f32 _ => .float
  | .f64 _ => .double
  | .bool _ => .bool

mutual

/-- The literal has the components or elements that its type asks for; only floats form matrices. -/
def Literal.isShaped : Literal → Bool
  | .components type scalars =>
    type.baseType?.any fun base => scalars.length = type.rows.toNat * type.columns.toNat &&
      (type.columns ≤ 1 || base.isFloat) && scalars.all fun s => s.base = base
  | .aggregate type elements =>
    (match type with
      | .array _ length => elements.length = length.toNat
      | .struct _ fields => elements.length = fields.length
      | _ => false) && allShaped elements

def allShaped : List Literal → Bool
  | [] => true
  | l :: ls => l.isShaped && allShaped ls

end

theorem allShaped_iff {ls : List Literal} : allShaped ls = true ↔ ∀ l ∈ ls, l.isShaped = true := by
  induction ls with
  | nil => simp [allShaped]
  | cons l ls ih => simp [allShaped, ih]

/-! ### Values and places -/

mutual

/-- The value can be evaluated where the variables `seen` have been declared. -/
def Rvalue.evaluable (seen : List VarId) : Rvalue → Bool
  | .place p => p.type.isValue && p.reachable seen
  | .constant l => l.type.isValue && l.isShaped
  | .swizzle value lanes width =>
    1 ≤ width && width ≤ 4 && (lanes.take width).all (· < value.type.rows) && value.evaluable seen
  | .texture _ => false
  | .expression op type operands =>
    type.isValue && op.isComputation && op.takes operands.length && allEvaluable seen operands

def allEvaluable (seen : List VarId) : List Rvalue → Bool
  | [] => true
  | r :: rs => r.evaluable seen && allEvaluable seen rs

/-- The place starts at one of the variables `seen`, and each part has the type that its whole gives it. -/
def Place.reachable (seen : List VarId) : Place → Bool
  | .var id _ => seen.contains id
  | .field record index type => record.type.field? index = some type && record.reachable seen
  | .element array index type =>
    array.type.indexResult? = some type && array.reachable seen &&
      if index.constant?.isSome then index.word?.isSome else index.evaluable seen

end

def Rvalue.located (seen : List VarId) : Rvalue → Bool
  | .place p => p.reachable seen
  | .constant l => l.isShaped
  | _ => false

/-! ### Statements -/

mutual

def Stmt.declared : Stmt → List VarId
  | .declare id => [id]
  | .loop body => stmtsDeclared body
  | .branch _ thenBody elseBody => stmtsDeclared thenBody ++ stmtsDeclared elseBody
  | _ => []

def stmtsDeclared : List Stmt → List VarId
  | [] => []
  | s :: ss => s.declared ++ stmtsDeclared ss

end

/-- The variable exists, its mode is allowed and its initializer is well formed. -/
def Program.declares (source : Program) (allowed : VarMode → Bool) (id : VarId) : Bool :=
  (source.var? id).any fun decl => allowed decl.mode && decl.initializer.all Literal.isShaped

/-- The mask writes all channels of the target. -/
def writesAll (target : Place) (mask : UInt8) : Bool :=
  mask = 0 || (fullMask target.type.rows).toOption = some mask

def channels (mask width : UInt8) : Nat := (List.range width.toNat).countP mask.toNat.testBit

/-- The value can be assigned: copied as a whole, or evaluated with a component for each channel. -/
def assignable (seen : List VarId) (target : Place) (value : Rvalue) (mask : UInt8) : Bool :=
  if value.isStored && writesAll target mask then value.located seen
  else value.evaluable seen &&
    (writesAll target mask || 1 ≤ target.type.rows && channels mask target.type.rows ≤ value.type.rows.toNat)

mutual

/-- The statement is well formed in a function that `returning` says returns a value, where the variables
`seen` have been declared. -/
def Stmt.isWellFormed (source : Program) (returning : Bool) (seen : List VarId) : Stmt → Bool
  | .declare id => source.declares (fun _ => true) id
  | .function .. => false
  | .loop body => stmtsWellFormed source returning seen body
  | .branch condition thenBody elseBody =>
    condition.evaluable seen && stmtsWellFormed source returning seen thenBody &&
      stmtsWellFormed source returning (seen ++ stmtsDeclared thenBody) elseBody
  | .discard condition => condition.all (·.evaluable seen)
  | .jump _ | .barrier | .ret none => true
  | .ret (some value) => returning && if value.isStored then value.located seen else value.evaluable seen
  | .call call => source.listed.contains call.callee && source.isUser call.callee &&
      call.parameters.all (·.located seen) && call.result.all (·.reachable seen)
  | .assign target value mask condition => target.type.rows ≤ 4 && target.reachable seen &&
      assignable seen target value mask && condition.all (·.evaluable seen)
  | .emitVertex stream | .endPrimitive stream => stream.word?.isSome

def stmtsWellFormed (source : Program) (returning : Bool) : List VarId → List Stmt → Bool
  | _, [] => true
  | seen, s :: ss =>
    s.isWellFormed source returning seen && stmtsWellFormed source returning (seen ++ s.declared) ss

end

/-! ### Signatures -/

def Signature.declared (signature : Signature) : List VarId :=
  if !signature.isIntrinsic && signature.isDefined then signature.parameters ++ stmtsDeclared signature.body
  else []

/-- The signature is built in, or only declared, or has a well-formed body. -/
def Signature.isWellFormed (source : Program) (seen : List VarId) (signature : Signature) : Bool :=
  signature.isIntrinsic || !signature.isDefined ||
    signature.parameters.all (source.declares VarMode.isParameter) &&
      stmtsWellFormed source (!signature.returnType.isVoid) (seen ++ signature.parameters) signature.body

/-! ### Resources -/

/-- What a program counts. -/
inductive Resource where
  | texture
  | image
  | counter
  | uniformBuffer
  | storageBuffer
deriving DecidableEq

namespace VarDecl

def handle? (d : VarDecl) : Option Resource :=
  match d.type.withoutArray with
  | .sampler _ => some .texture
  | .image _ => some .image
  | .atomicUint => some .counter
  | _ => none

def buffer? (d : VarDecl) : Option Resource :=
  match d.mode with
  | .uniform => if d.interfaceBlock.isSome then some .uniformBuffer else none
  | .shaderStorage => some .storageBuffer
  | _ => none

def leaves (d : VarDecl) : Nat := (d.type.flattenedLength?.getD 0).toNat

def buffers (d : VarDecl) : Nat := if d.interfaceBlock.isSome && d.type.isArray then d.leaves else 1

def uses (d : VarDecl) (r : Resource) : Nat :=
  (if d.handle? = some r then d.leaves else 0) + if d.buffer? = some r then d.buffers else 0

def isGlobal (inside : Bool) (d : VarDecl) : Bool :=
  match d.mode with
  | .auto | .temporary => !inside
  | .functionIn | .functionOut | .functionInout | .constIn => false
  | _ => true

end VarDecl

namespace Program

/-- The global variables among those declared, inside or outside functions. -/
def globalsAmong (source : Program) (inside : Bool) (ids : List VarId) : List VarDecl :=
  (ids.filterMap source.var?).filter (VarDecl.isGlobal inside)

def declaredBy (source : Program) (id : SignatureId) : List VarId :=
  ((source.signature? id).map Signature.declared).getD []

def globalsOf (source : Program) : Stmt → List VarDecl
  | .declare id => source.globalsAmong false [id]
  | .function _ ids => source.globalsAmong true (ids.flatMap source.declaredBy)
  | _ => []

def globals (source : Program) : List VarDecl := source.statements.flatMap source.globalsOf

/-- Every count fits a word. -/
def countable (source : Program) : Bool :=
  source.globals.all (fun d => d.type.flattenedLength?.isSome) &&
    [Resource.texture, .image, .counter, .uniformBuffer, .storageBuffer].all fun r =>
      (source.globals.map fun d => d.uses r).sum < UInt32.size

/-! ### Programs -/

def signaturesWellFormed (source : Program) : List VarId → List SignatureId → Bool
  | _, [] => true
  | seen, id :: ids => (source.signature? id).any (Signature.isWellFormed source seen) &&
      source.signaturesWellFormed (seen ++ source.declaredBy id) ids

/-- The top level declares global variables and lists signatures. -/
def topWellFormed (source : Program) : List VarId → List Stmt → Bool
  | _, [] => true
  | seen, .declare id :: rest => source.declares (fun mode => !mode.isFunctionOwned) id &&
      source.topWellFormed (seen ++ [id]) rest
  | seen, .function _ ids :: rest => source.signaturesWellFormed seen ids &&
      source.topWellFormed (seen ++ ids.flatMap source.declaredBy) rest
  | _, _ :: _ => false

def isWellFormed (source : Program) : Bool :=
  source.topWellFormed [] source.statements && source.countable

end Program

end Source

end ShaderSSA
