import ShaderSSA.Source.Inspect
import ShaderSSA.Target.Program

/-!
# Faults

A fault ends the work on a program. A `Defect` is a violated expectation about the program at hand;
the other faults are machine arithmetic and indexing out of range. `Fault.message` is the wording.
-/

namespace ShaderSSA

inductive Defect where
  -- handles
  | sourceVariableRange (id : Source.VarId)
  | signatureRange (id : Source.SignatureId)
  | functionRange (id : Target.FuncId)
  | functionWithoutBody (id : Target.FuncId)
  | variableRange (id : Target.VarId)
  | instructionRange (id : Target.InstId)
  | valueRange (id : Target.ValueId)
  | linkRange (id : Target.LinkId)
  -- variables and chains
  | ownerlessVariable (storage : Target.StorageClass) (name : String)
  | rootInsideChain
  | linkType (type parent : ShaderType) (expected : Option ShaderType)
  | chainWithoutRoot (head : Target.LinkId)
  -- scopes
  | undeclaredVariable (name : String) (site : Option Location)
  | unregisteredSignature (name : String) (site : Option Location)
  | nestedFunction (inner outer : Target.FuncId)
  | globalStatement (kind : String)
  | parameterStorage (parameter function : String)
  -- literals
  | aggregateLiteral (type : ShaderType)
  | literalElements (type : ShaderType) (count expected : Nat)
  | componentLiteral (type : ShaderType)
  | literalComponents (type : ShaderType) (count : Nat)
  | matrixLiteral (type : ShaderType)
  | literalComponent (scalar : Source.Scalar) (base : BaseType)
  -- statements
  | nestedDefinition (name : String)
  | streamNotConstant (kind : String)
  | returnOutsideFunction
  | noReturnVariable (function : String)
  -- values and places
  | valueWidth (width : UInt8)
  | literalIndex (type : ShaderType)
  | noStorage (kind : String) (type : ShaderType)
  | constantOutsideFunction (type : ShaderType)
  | loadShape (type : ShaderType)
  | swizzleRange (component width : UInt8)
  -- expressions
  | notDecomposed (op : ExprOp)
  | matrixOperator (op : ExprOp)
  | expressionType (op : ExprOp) (type : ShaderType)
  | needsIntegers (op : ExprOp)
  | dotWidth (width : UInt8)
  | vectorArity (arity : Nat)
  | noOpcode (op : ExprOp)
  | conversion (src dst : ShaderType)
  | fusedWidth (width : UInt8)
  | interpolant (op : ExprOp)
  | missingOperand (op : ExprOp) (index : Nat)
  -- textures
  | notSampler (op : TextureOp) (type : ShaderType)
  | textureResult (op : TextureOp) (type : ShaderType)
  | texelOffset (type : ShaderType)
  | gatherComponent
  | textureLod (op : TextureOp) (lod : Source.LodInfo)
  | textureSources (op : TextureOp) (count expected : Nat)
  -- calls
  | parameterCount (id : IntrinsicId) (expected count : Nat)
  | untypedResult (id : IntrinsicId)
  | noResultPlace (id : IntrinsicId)
  | notImage (id : IntrinsicId) (type : ShaderType)
  | noImage (id : IntrinsicId)
  | noResult (id : IntrinsicId)
  | imageCoordinate (used available : UInt8)
  | notImmediate (id : IntrinsicId) (type : ShaderType)

namespace Defect

def message : Defect → String
  | .sourceVariableRange id => "source variable #" ++ toString id.index ++ " is out of range"
  | .signatureRange id => "signature #" ++ toString id.index ++ " is out of range"
  | .functionRange id => "function #" ++ toString id.index ++ " is out of range"
  | .functionWithoutBody id => "function #" ++ toString id.index ++ " has no body"
  | .variableRange id => "variable #" ++ toString id.index ++ " is out of range"
  | .instructionRange id => "instruction #" ++ toString id.index ++ " is out of range"
  | .valueRange id => "SSA value " ++ id.text ++ " is out of range"
  | .linkRange id => "deref link #" ++ toString id.index ++ " is out of range"
  | .ownerlessVariable storage name =>
    storage.name ++ " variable `" ++ name ++ "` declared outside a function"
  | .rootInsideChain => "a variable link can only start a chain"
  | .linkType type parent expected =>
    "deref link of type " ++ type.text ++ " does not narrow " ++ parent.text ++ " (expected " ++
      Inspect.option (expected.map fun t => Inspect.quoted t.text) ++ ")"
  | .chainWithoutRoot head =>
    "deref chain #" ++ toString head.index ++ " does not start at a variable"
  | .undeclaredVariable name site =>
    "variable `" ++ name ++ "` (" ++ Location.describe site ++
      ") is referenced before its declaration was lowered"
  | .unregisteredSignature name site =>
    "signature of `" ++ name ++ "` (" ++ Location.describe site ++ ") has no registered function"
  | .nestedFunction inner outer =>
    "function #" ++ toString inner.index ++ " entered while lowering function #" ++
      toString outer.index
  | .globalStatement kind => kind ++ " at global scope"
  | .parameterStorage parameter function =>
    "parameter `" ++ parameter ++ "` of `" ++ function ++ "` is not a function parameter"
  | .aggregateLiteral type => "aggregate literal of non-aggregate type " ++ type.text
  | .literalElements type count expected =>
    "literal of type " ++ type.text ++ " has " ++ toString count ++ " elements, expected " ++
      toString expected
  | .componentLiteral type => "component literal of type " ++ type.text
  | .literalComponents type count =>
    "literal of type " ++ type.text ++ " has " ++ toString count ++ " components"
  | .matrixLiteral type => "matrix literal of non-float type " ++ type.text
  | .literalComponent scalar base =>
    "literal component " ++ scalar.inspect ++ " does not match base type " ++ base.name
  | .nestedDefinition name => "function `" ++ name ++ "` defined inside another function"
  | .streamNotConstant kind => kind ++ " stream must be a constant"
  | .returnOutsideFunction => "return outside a function body"
  | .noReturnVariable function =>
    "`" ++ function ++ "` returns a value but has no return variable"
  | .valueWidth width => "value with " ++ toString width ++ " components"
  | .literalIndex type => "array index literal of type " ++ type.text ++ " is not an integer"
  | .noStorage kind type => kind ++ " value of type " ++ type.text ++ " has no storage location"
  | .constantOutsideFunction type =>
    "constant of type " ++ type.text ++ " used outside a function body"
  | .loadShape type => "load of " ++ type.text ++ " cannot produce a single SSA value"
  | .swizzleRange component width =>
    "swizzle reads component " ++ toString component ++ " of a " ++ toString width ++
      "-component value"
  | .notDecomposed op => op.name ++ " expressions must be lowered before this pass"
  | .matrixOperator op => op.name ++ " on matrices must be split into column operations"
  | .expressionType op type => op.name ++ " expression of non-numeric type " ++ type.text
  | .needsIntegers op => op.name ++ " needs native integer support"
  | .dotWidth width => "dot product of " ++ toString width ++ "-component vectors"
  | .vectorArity arity => "vector constructor with " ++ toString arity ++ " operands"
  | .noOpcode op => op.name ++ " has no single ALU opcode"
  | .conversion src dst => "conversion from " ++ src.text ++ " to " ++ dst.text
  | .fusedWidth width => "fused compare of " ++ toString width ++ "-component vectors"
  | .interpolant op => op.name ++ " needs a variable operand"
  | .missingOperand op index => op.name ++ " expression is missing operand " ++ toString index
  | .notSampler op type => "texture " ++ op.name ++ " through non-sampler type " ++ type.text
  | .textureResult op type => "texture " ++ op.name ++ " returning " ++ type.text
  | .texelOffset type => "texel offset of type " ++ type.text
  | .gatherComponent => "gather component must be a constant in 0..4"
  | .textureLod op lod => "texture " ++ op.name ++ " cannot take " ++ lod.inspect
  | .textureSources op count expected =>
    "texture " ++ op.name ++ " emitted " ++ toString count ++ " sources, expected " ++
      toString expected
  | .parameterCount id expected count =>
    id.name ++ " takes " ++ toString expected ++ " parameters, got " ++ toString count
  | .untypedResult id => id.name ++ " needs a typed return location to pick its opcode"
  | .noResultPlace id => id.name ++ " result has nowhere to go"
  | .notImage id type => id.name ++ " on non-image type " ++ type.text
  | .noImage id => id.name ++ " without an image parameter"
  | .noResult id => id.name ++ " produces no value for its return location"
  | .imageCoordinate used available =>
    "image access uses " ++ toString used ++ " coordinate components, value has " ++
      toString available
  | .notImmediate id type => id.name ++ " needs a constant immediate, got " ++ type.text

end Defect

inductive Overflow where
  | add
  | multiply
  | shiftLeft
deriving DecidableEq

def Overflow.message : Overflow → String
  | .add => "attempt to add with overflow"
  | .multiply => "attempt to multiply with overflow"
  | .shiftLeft => "attempt to shift left with overflow"

inductive Fault where
  | defect (d : Defect)
  | overflow (o : Overflow)
  | outOfBounds (length index : Nat)

def Fault.message : Fault → String
  | .defect d => "internal compiler error: " ++ d.message
  | .overflow o => o.message
  | .outOfBounds length index =>
    "index out of bounds: the len is " ++ toString length ++ " but the index is " ++ toString index

end ShaderSSA
