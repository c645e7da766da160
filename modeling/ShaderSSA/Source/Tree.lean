import ShaderSSA.Lanes
import ShaderSSA.Location
import ShaderSSA.Source.Operator
import ShaderSSA.Stage
import ShaderSSA.Type.Basic

/-!
# Source programs

A source program is a typed tree of statements. Variables and function signatures are named by their
number in the program. Float literals are kept as bit patterns.
-/

namespace ShaderSSA.Source

structure VarId where
  index : UInt32
deriving DecidableEq

structure SignatureId where
  index : UInt32
deriving DecidableEq

/-! ### Literals -/

/-- One component of a literal. Floats are kept as their bits. -/
inductive Scalar where
  | u8 (v : UInt8)
  | i8 (v : Int8)
  | u16 (v : UInt16)
  | i16 (v : Int16)
  | u32 (v : UInt32)
  | i32 (v : Int32)
  | u64 (v : UInt64)
  | i64 (v : Int64)
  | f16 (bits : UInt16)
  | f32 (bits : UInt32)
  | f64 (bits : UInt64)
  | bool (v : Bool)
deriving DecidableEq

def Scalar.word? : Scalar → Option UInt32
  | .u8 v => some v.toUInt32
  | .i8 v => some v.toInt32.toUInt32
  | .u16 v => some v.toUInt32
  | .i16 v => some v.toInt32.toUInt32
  | .u32 v => some v
  | .i32 v => some v.toUInt32
  | .u64 v => some v.toUInt32
  | .i64 v => some v.toInt32.toUInt32
  | .bool v => some (if v then 1 else 0)
  | .f16 _ | .f32 _ | .f64 _ => none

inductive Literal where
  /-- Column-major components of a scalar, vector or matrix. -/
  | components (type : ShaderType) (scalars : List Scalar)
  /-- Array elements or struct fields, in order. -/
  | aggregate (type : ShaderType) (elements : List Literal)

namespace Literal

theorem nesting {P : Literal → Prop} (components : ∀ type scalars, P (.components type scalars))
    (aggregate : ∀ type elements, (∀ e ∈ elements, P e) → P (.aggregate type elements)) : ∀ l, P l
  | .components type scalars => components type scalars
  | .aggregate type elements => aggregate type elements fun e _ => nesting components aggregate e

def type : Literal → ShaderType
  | .components type _ => type
  | .aggregate type _ => type

def word? : Literal → Option UInt32
  | .components _ (s :: _) => s.word?
  | _ => none

def uint (v : UInt32) : Literal := .components (.scalar .uint) [.u32 v]

def int (v : Int32) : Literal := .components (.scalar .int) [.i32 v]

def float (bits : UInt32) : Literal := .components (.scalar .float) [.f32 bits]

def bool (v : Bool) : Literal := .components (.scalar .bool) [.bool v]

end Literal

/-! ### Values and places -/

mutual

inductive Rvalue where
  | expression (op : ExprOp) (type : ShaderType) (operands : List Rvalue)
  | swizzle (value : Rvalue) (lanes : Lanes) (width : UInt8)
  | texture (texture : Texture)
  | constant (literal : Literal)
  | place (place : Place)

/-- A storage location: a variable, or a part of another location. -/
inductive Place where
  | var (id : VarId) (type : ShaderType)
  | field (record : Place) (index : UInt32) (type : ShaderType)
  | element (array : Place) (index : Rvalue) (type : ShaderType)

inductive LodInfo where
  | absent
  | bias (value : Rvalue)
  | lod (value : Rvalue)
  | grad (dpdx dpdy : Rvalue)
  | sampleIndex (value : Rvalue)
  | component (value : Rvalue)

structure Texture where
  op : TextureOp
  type : ShaderType
  sampler : Place
  coordinate : Option Rvalue
  projector : Option Rvalue
  comparator : Option Rvalue
  offset : Option Rvalue
  lod : LodInfo

end

def Place.type : Place → ShaderType
  | .var _ type => type
  | .field _ _ type => type
  | .element _ _ type => type

namespace Rvalue

def type : Rvalue → ShaderType
  | .expression _ type _ => type
  | .swizzle value _ width => .vector (value.type.baseType?.getD .float) width
  | .texture t => match t with
    | ⟨_, type, _, _, _, _, _, _⟩ => type
  | .constant l => l.type
  | .place p => p.type

def place? : Rvalue → Option Place
  | .place p => some p
  | _ => none

def constant? : Rvalue → Option Literal
  | .constant l => some l
  | _ => none

def word? (r : Rvalue) : Option UInt32 := r.constant?.bind Literal.word?

/-- The value is read from a location of its own: a place, or a literal that is given one. -/
def isStored : Rvalue → Bool
  | .place _ | .constant _ => true
  | _ => false

def kind : Rvalue → String
  | .expression .. => "expression"
  | .swizzle .. => "swizzle"
  | .texture _ => "texture"
  | .constant _ => "constant"
  | .place _ => "deref"

end Rvalue

/-! ### Statements -/

structure Call where
  callee : SignatureId
  parameters : List Rvalue
  result : Option Place

inductive Stmt where
  | declare (id : VarId)
  | function (name : String) (signatures : List SignatureId)
  | loop (body : List Stmt)
  | branch (condition : Rvalue) (thenBody elseBody : List Stmt)
  | discard (condition : Option Rvalue)
  | jump (jump : LoopJump)
  | ret (value : Option Rvalue)
  | call (call : Call)
  | assign (target : Place) (value : Rvalue) (mask : UInt8) (condition : Option Rvalue)
  | emitVertex (stream : Rvalue)
  | endPrimitive (stream : Rvalue)
  | barrier

def Stmt.kind : Stmt → String
  | .declare _ => "variable declaration"
  | .function .. => "function"
  | .loop _ => "loop"
  | .branch .. => "if"
  | .discard _ => "discard"
  | .jump _ => "loop jump"
  | .ret _ => "return"
  | .call _ => "call"
  | .assign .. => "assignment"
  | .emitVertex _ => "emit-vertex"
  | .endPrimitive _ => "end-primitive"
  | .barrier => "barrier"

/-! ### Declarations -/

structure VarDecl where
  name : String
  type : ShaderType
  mode : VarMode
  location : Option Int32 := none
  binding : Option UInt32 := none
  interpolation : Option Interpolation := none
  readOnly : Bool := false
  initializer : Option Literal := none
  builtin : Option Builtin := none
  interfaceBlock : Option String := none
  site : Option Location := none

structure Signature where
  name : String
  returnType : ShaderType
  parameters : List VarId
  body : List Stmt
  isDefined : Bool
  /-- Present on built-in functions. -/
  intrinsic : Option IntrinsicId := none
  site : Option Location := none

def Signature.isIntrinsic (s : Signature) : Bool := s.intrinsic.isSome

structure Program where
  name : String
  layout : StageLayout
  vars : Array VarDecl := #[]
  signatures : Array Signature := #[]
  statements : List Stmt := []

namespace Program

def stage (p : Program) : Stage := p.layout.stage

def var? (p : Program) (id : VarId) : Option VarDecl := p.vars[id.index.toNat]?

def signature? (p : Program) (id : SignatureId) : Option Signature := p.signatures[id.index.toNat]?

def addVariable (p : Program) (decl : VarDecl) : VarId × Program :=
  (⟨UInt32.ofNat p.vars.size⟩, { p with vars := p.vars.push decl })

def addSignature (p : Program) (signature : Signature) : SignatureId × Program :=
  (⟨UInt32.ofNat p.signatures.size⟩, { p with signatures := p.signatures.push signature })

def addStatement (p : Program) (statement : Stmt) : Program :=
  { p with statements := p.statements ++ [statement] }

end Program

end ShaderSSA.Source
