import ShaderSSA.Lanes
import ShaderSSA.Source.Operator
import ShaderSSA.Stage
import ShaderSSA.Target.Opcode
import ShaderSSA.Type.Basic

/-!
# Target programs

A target program owns every instruction, value, variable and access-chain link in one array each;
handles are indices into them. A function body is a tree of regions whose leaves are instructions.
-/

namespace ShaderSSA.Target

structure InstId where
  index : UInt32
deriving DecidableEq

structure VarId where
  index : UInt32
deriving DecidableEq

structure FuncId where
  index : UInt32
deriving DecidableEq

structure ValueId where
  index : UInt32
deriving DecidableEq

/-- A link of an access chain; the head of a chain names the whole location. -/
structure LinkId where
  index : UInt32
deriving DecidableEq

def ValueId.text (v : ValueId) : String := "%" ++ toString v.index

structure ValueDef where
  width : UInt8
  bitSize : UInt8
  producer : InstId
deriving DecidableEq

/-! ### Constants -/

/-- A constant in storage. Components are bit patterns. -/
inductive Constant where
  /-- `columns * rows` components, column-major. -/
  | numeric (bitSize columns rows : UInt8) (bits : List UInt64)
  | aggregate (elements : List Constant)

namespace Constant

def trueBits : UInt64 := 0xffffffff

def falseBits : UInt64 := 0

def component? (c : Constant) (column row : UInt8) : Option UInt64 :=
  match c with
  | .numeric _ columns rows bits =>
    if column < columns ∧ row < rows then bits[column.toNat * rows.toNat + row.toNat]? else none
  | .aggregate _ => none

def element? (c : Constant) (index : Nat) : Option Constant :=
  match c with
  | .aggregate elements => elements[index]?
  | .numeric .. => none

def descend (c : Constant) : List Nat → Option Constant
  | [] => some c
  | i :: path =>
    match c.element? i with
    | none => none
    | some e => e.descend path

def bitSize? : Constant → Option UInt8
  | .numeric bitSize _ _ _ => some bitSize
  | .aggregate _ => none

end Constant

/-! ### Access chains -/

inductive ArrayIndex where
  | direct (index : UInt32)
  | indirect (value : ValueId)
deriving DecidableEq

inductive LinkKind where
  | var (id : VarId)
  | struct (index : UInt32)
  | array (index : ArrayIndex)
deriving DecidableEq

structure Link where
  kind : LinkKind
  type : ShaderType
  child : Option LinkId
deriving DecidableEq

/-- The arena that chains live in. -/
abbrev Links := Array Link

/-! ### Instructions -/

/-- An operand of an intrinsic: a value or a location. -/
inductive Src where
  | ssa (value : ValueId)
  | location (head : LinkId)
deriving DecidableEq

namespace Src

def value? : Src → Option ValueId
  | .ssa v => some v
  | .location _ => none

def location? : Src → Option LinkId
  | .location d => some d
  | .ssa _ => none

end Src

/-- An operand of a computation: a value and the component each lane reads. -/
structure AluSrc where
  value : ValueId
  lanes : Lanes
deriving DecidableEq

/-- Read a value of `width` components componentwise; further lanes repeat the last one. -/
def AluSrc.broadcast (value : ValueId) (width : UInt8) : AluSrc :=
  ⟨value, .ofFn fun i => UInt8.ofNat (min i (width.toNat - 1))⟩

structure Indices where
  width : UInt8 := 0
  writeMask : Option UInt8 := none
  base : Option Int32 := none
  stream : Option UInt32 := none
deriving DecidableEq

structure TexSrc where
  kind : TexSrcKind
  value : ValueId
deriving DecidableEq

structure TexInstr where
  op : TextureOp
  dim : SamplerDim
  isArray : Bool
  isShadow : Bool
  /-- The comparison gives one component. -/
  isNewStyleShadow : Bool
  destType : TexDestType
  texture : LinkId
  coordinateWidth : UInt8
  component : UInt8
  srcs : List TexSrc
deriving DecidableEq

inductive Operation where
  | alu (op : AluOp) (srcs : List AluSrc)
  | intrinsic (op : IntrinsicOp) (srcs : List Src) (indices : Indices)
  | tex (instr : TexInstr)
  | call (callee : FuncId) (params : List LinkId) (result : Option LinkId)
  | jump (kind : JumpKind)
  | undef
  | loadConst (bitSize : UInt8) (bits : List UInt64)
deriving DecidableEq

structure Instr where
  operation : Operation
  dest : Option ValueId
deriving DecidableEq

/-! ### Functions -/

inductive Node where
  | instr (id : InstId)
  | branch (condition : ValueId) (thenBody elseBody : List Node)
  | loop (body : List Node)

mutual

def Node.instrs : Node → List InstId
  | .instr id => [id]
  | .branch _ thenBody elseBody => instrsOf thenBody ++ instrsOf elseBody
  | .loop body => instrsOf body

def instrsOf : List Node → List InstId
  | [] => []
  | n :: ns => n.instrs ++ instrsOf ns

end

structure Body where
  params : Array VarId := #[]
  returnVar : Option VarId := none
  locals : Array VarId := #[]
  nodes : List Node := []

structure Function where
  name : String
  body : Option Body := none

inductive StorageClass where
  | global
  | functionLocal
  | param
  | shaderIn
  | shaderOut
  | uniform
  | uniformBuffer
  | storageBuffer
  | systemValue
  | shared
deriving DecidableEq

namespace StorageClass

def all : List StorageClass := [
  .global, .functionLocal, .param, .shaderIn, .shaderOut, .uniform, .uniformBuffer,
  .storageBuffer, .systemValue, .shared]

def name : StorageClass → String
  | .global => "Global"
  | .functionLocal => "Local"
  | .param => "Param"
  | .shaderIn => "ShaderIn"
  | .shaderOut => "ShaderOut"
  | .uniform => "Uniform"
  | .uniformBuffer => "UniformBuffer"
  | .storageBuffer => "StorageBuffer"
  | .systemValue => "SystemValue"
  | .shared => "Shared"

def isFunctionOwned : StorageClass → Bool
  | .functionLocal | .param => true
  | _ => false

def isBuffer : StorageClass → Bool
  | .uniformBuffer | .storageBuffer => true
  | _ => false

end StorageClass

structure Variable where
  name : String
  type : ShaderType
  storage : StorageClass
  location : Option Int32 := none
  binding : Option UInt32 := none
  interpolation : Option Interpolation := none
  readOnly : Bool := false
  /-- An array of scalars packed into consecutive components. -/
  compact : Bool := false
  builtin : Option Builtin := none
  interfaceBlock : Option String := none
  initializer : Option Constant := none
  /-- The function of a local variable or parameter. -/
  owner : Option FuncId := none

structure Info where
  name : String
  stage : Stage
  entryPoint : Option String := none
  textures : UInt32 := 0
  images : UInt32 := 0
  uniformBuffers : UInt32 := 0
  storageBuffers : UInt32 := 0
  atomicCounters : UInt32 := 0
  clipDistances : UInt32 := 0
  cullDistances : UInt32 := 0
  usesDiscard : Bool := false
  layout : StageLayout

structure Program where
  info : Info
  globals : Array VarId := #[]
  functions : Array Function := #[]
  vars : Array Variable := #[]
  instrs : Array Instr := #[]
  values : Array ValueDef := #[]
  links : Links := #[]
  instrLimit : Option UInt32 := none

namespace Program

def new (name : String) (layout : StageLayout) (instrLimit : Option UInt32) : Program :=
  { info := { name, stage := layout.stage, layout }, instrLimit }

def function? (p : Program) (id : FuncId) : Option Function := p.functions[id.index.toNat]?

def var? (p : Program) (id : VarId) : Option Variable := p.vars[id.index.toNat]?

def instr? (p : Program) (id : InstId) : Option Instr := p.instrs[id.index.toNat]?

def value? (p : Program) (id : ValueId) : Option ValueDef := p.values[id.index.toNat]?

def link? (p : Program) (id : LinkId) : Option Link := p.links[id.index.toNat]?

def findFunction? (p : Program) (name : String) : Option FuncId :=
  (p.functions.findIdx? fun f => f.name = name).map fun i => ⟨UInt32.ofNat i⟩

end Program

end ShaderSSA.Target
