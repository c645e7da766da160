/-!
# Operators and modes of source programs

The closed catalogues that source trees draw from, each with its names.
-/

namespace ShaderSSA

inductive ExprOp where
  | bitNot
  | logicNot
  | neg
  | abs
  | sign
  | rcp
  | rsq
  | sqrt
  | exp
  | log
  | exp2
  | log2
  | convert
  | bitcastI2F
  | bitcastF2I
  | bitcastU2F
  | bitcastF2U
  | bitcastI642D
  | bitcastD2I64
  | bitcastU642D
  | bitcastD2U64
  | trunc
  | ceil
  | floor
  | fract
  | roundEven
  | sin
  | cos
  | dfdx
  | dfdxCoarse
  | dfdxFine
  | dfdy
  | dfdyCoarse
  | dfdyFine
  | packSnorm2x16
  | packSnorm4x8
  | packUnorm2x16
  | packUnorm4x8
  | packHalf2x16
  | unpackSnorm2x16
  | unpackSnorm4x8
  | unpackUnorm2x16
  | unpackUnorm4x8
  | unpackHalf2x16
  | packDouble2x32
  | unpackDouble2x32
  | bitfieldReverse
  | bitCount
  | findMsb
  | findLsb
  | saturate
  | frexpSig
  | frexpExp
  | noise
  | interpolateAtCentroid
  | getBufferSize
  | ssboUnsizedArrayLength
  | subroutineToInt
  | add
  | sub
  | mul
  | div
  | mod
  | less
  | greater
  | lequal
  | gequal
  | equal
  | nequal
  | allEqual
  | anyNequal
  | logicAnd
  | logicXor
  | logicOr
  | bitAnd
  | bitXor
  | bitOr
  | lshift
  | rshift
  | min
  | max
  | pow
  | dot
  | imulHigh
  | carry
  | borrow
  | ldexp
  | uboLoad
  | vectorExtract
  | interpolateAtOffset
  | interpolateAtSample
  | fma
  | lrp
  | csel
  | bitfieldExtract
  | vectorInsert
  | bitfieldInsert
  | vector
deriving DecidableEq

namespace ExprOp

def all : List ExprOp := [
  .bitNot, .logicNot, .neg, .abs, .sign, .rcp, .rsq, .sqrt, .exp, .log, .exp2, .log2, .convert,
  .bitcastI2F, .bitcastF2I, .bitcastU2F, .bitcastF2U, .bitcastI642D, .bitcastD2I64,
  .bitcastU642D, .bitcastD2U64, .trunc, .ceil, .floor, .fract, .roundEven, .sin, .cos, .dfdx,
  .dfdxCoarse, .dfdxFine, .dfdy, .dfdyCoarse, .dfdyFine, .packSnorm2x16, .packSnorm4x8,
  .packUnorm2x16, .packUnorm4x8, .packHalf2x16, .unpackSnorm2x16, .unpackSnorm4x8,
  .unpackUnorm2x16, .unpackUnorm4x8, .unpackHalf2x16, .packDouble2x32, .unpackDouble2x32,
  .bitfieldReverse, .bitCount, .findMsb, .findLsb, .saturate, .frexpSig, .frexpExp, .noise,
  .interpolateAtCentroid, .getBufferSize, .ssboUnsizedArrayLength, .subroutineToInt, .add, .sub,
  .mul, .div, .mod, .less, .greater, .lequal, .gequal, .equal, .nequal, .allEqual, .anyNequal,
  .logicAnd, .logicXor, .logicOr, .bitAnd, .bitXor, .bitOr, .lshift, .rshift, .min, .max, .pow,
  .dot, .imulHigh, .carry, .borrow, .ldexp, .uboLoad, .vectorExtract, .interpolateAtOffset,
  .interpolateAtSample, .fma, .lrp, .csel, .bitfieldExtract, .vectorInsert, .bitfieldInsert,
  .vector]

def name : ExprOp → String
  | .bitNot => "BitNot"
  | .logicNot => "LogicNot"
  | .neg => "Neg"
  | .abs => "Abs"
  | .sign => "Sign"
  | .rcp => "Rcp"
  | .rsq => "Rsq"
  | .sqrt => "Sqrt"
  | .exp => "Exp"
  | .log => "Log"
  | .exp2 => "Exp2"
  | .log2 => "Log2"
  | .convert => "Convert"
  | .bitcastI2F => "BitcastI2F"
  | .bitcastF2I => "BitcastF2I"
  | .bitcastU2F => "BitcastU2F"
  | .bitcastF2U => "BitcastF2U"
  | .bitcastI642D => "BitcastI642D"
  | .bitcastD2I64 => "BitcastD2I64"
  | .bitcastU642D => "BitcastU642D"
  | .bitcastD2U64 => "BitcastD2U64"
  | .trunc => "Trunc"
  | .ceil => "Ceil"
  | .floor => "Floor"
  | .fract => "Fract"
  | .roundEven => "RoundEven"
  | .sin => "Sin"
  | .cos => "Cos"
  | .dfdx => "Dfdx"
  | .dfdxCoarse => "DfdxCoarse"
  | .dfdxFine => "DfdxFine"
  | .dfdy => "Dfdy"
  | .dfdyCoarse => "DfdyCoarse"
  | .dfdyFine => "DfdyFine"
  | .packSnorm2x16 => "PackSnorm2x16"
  | .packSnorm4x8 => "PackSnorm4x8"
  | .packUnorm2x16 => "PackUnorm2x16"
  | .packUnorm4x8 => "PackUnorm4x8"
  | .packHalf2x16 => "PackHalf2x16"
  | .unpackSnorm2x16 => "UnpackSnorm2x16"
  | .unpackSnorm4x8 => "UnpackSnorm4x8"
  | .unpackUnorm2x16 => "UnpackUnorm2x16"
  | .unpackUnorm4x8 => "UnpackUnorm4x8"
  | .unpackHalf2x16 => "UnpackHalf2x16"
  | .packDouble2x32 => "PackDouble2x32"
  | .unpackDouble2x32 => "UnpackDouble2x32"
  | .bitfieldReverse => "BitfieldReverse"
  | .bitCount => "BitCount"
  | .findMsb => "FindMsb"
  | .findLsb => "FindLsb"
  | .saturate => "Saturate"
  | .frexpSig => "FrexpSig"
  | .frexpExp => "FrexpExp"
  | .noise => "Noise"
  | .interpolateAtCentroid => "InterpolateAtCentroid"
  | .getBufferSize => "GetBufferSize"
  | .ssboUnsizedArrayLength => "SsboUnsizedArrayLength"
  | .subroutineToInt => "SubroutineToInt"
  | .add => "Add"
  | .sub => "Sub"
  | .mul => "Mul"
  | .div => "Div"
  | .mod => "Mod"
  | .less => "Less"
  | .greater => "Greater"
  | .lequal => "Lequal"
  | .gequal => "Gequal"
  | .equal => "Equal"
  | .nequal => "Nequal"
  | .allEqual => "AllEqual"
  | .anyNequal => "AnyNequal"
  | .logicAnd => "LogicAnd"
  | .logicXor => "LogicXor"
  | .logicOr => "LogicOr"
  | .bitAnd => "BitAnd"
  | .bitXor => "BitXor"
  | .bitOr => "BitOr"
  | .lshift => "Lshift"
  | .rshift => "Rshift"
  | .min => "Min"
  | .max => "Max"
  | .pow => "Pow"
  | .dot => "Dot"
  | .imulHigh => "ImulHigh"
  | .carry => "Carry"
  | .borrow => "Borrow"
  | .ldexp => "Ldexp"
  | .uboLoad => "UboLoad"
  | .vectorExtract => "VectorExtract"
  | .interpolateAtOffset => "InterpolateAtOffset"
  | .interpolateAtSample => "InterpolateAtSample"
  | .fma => "Fma"
  | .lrp => "Lrp"
  | .csel => "Csel"
  | .bitfieldExtract => "BitfieldExtract"
  | .vectorInsert => "VectorInsert"
  | .bitfieldInsert => "BitfieldInsert"
  | .vector => "Vector"

/-- Operators that must have been decomposed before lowering. -/
def mustBeDecomposed : ExprOp → Bool
  | .exp | .log | .noise | .vectorExtract | .vectorInsert | .ssboUnsizedArrayLength => true
  | _ => false

end ExprOp

inductive TextureOp where
  | tex
  | txb
  | txl
  | txd
  | txf
  | txfMs
  | txs
  | lod
  | tg4
  | queryLevels
  | textureSamples
  | samplesIdentical
deriving DecidableEq

namespace TextureOp

def all : List TextureOp := [
  .tex, .txb, .txl, .txd, .txf, .txfMs, .txs, .lod, .tg4, .queryLevels, .textureSamples,
  .samplesIdentical]

def name : TextureOp → String
  | .tex => "Tex"
  | .txb => "Txb"
  | .txl => "Txl"
  | .txd => "Txd"
  | .txf => "Txf"
  | .txfMs => "TxfMs"
  | .txs => "Txs"
  | .lod => "Lod"
  | .tg4 => "Tg4"
  | .queryLevels => "QueryLevels"
  | .textureSamples => "TextureSamples"
  | .samplesIdentical => "SamplesIdentical"

end TextureOp

inductive IntrinsicId where
  | atomicCounterRead
  | atomicCounterIncrement
  | atomicCounterPredecrement
  | atomicCounterAdd
  | atomicCounterAnd
  | atomicCounterOr
  | atomicCounterXor
  | atomicCounterMin
  | atomicCounterMax
  | atomicCounterExchange
  | atomicCounterCompSwap
  | imageLoad
  | imageStore
  | imageAtomicAdd
  | imageAtomicMin
  | imageAtomicMax
  | imageAtomicAnd
  | imageAtomicOr
  | imageAtomicXor
  | imageAtomicExchange
  | imageAtomicCompSwap
  | imageSize
  | imageSamples
  | memoryBarrier
  | memoryBarrierAtomicCounter
  | memoryBarrierBuffer
  | memoryBarrierImage
  | memoryBarrierShared
  | groupMemoryBarrier
  | shaderClock
  | ssboLoad
  | ssboStore
  | ssboAtomicAdd
  | ssboAtomicMin
  | ssboAtomicMax
  | ssboAtomicAnd
  | ssboAtomicOr
  | ssboAtomicXor
  | ssboAtomicExchange
  | ssboAtomicCompSwap
  | sharedLoad
  | sharedStore
  | sharedAtomicAdd
  | sharedAtomicMin
  | sharedAtomicMax
  | sharedAtomicAnd
  | sharedAtomicOr
  | sharedAtomicXor
  | sharedAtomicExchange
  | sharedAtomicCompSwap
  | voteAny
  | voteAll
  | voteEq
  | ballot
  | readInvocation
  | readFirstInvocation
deriving DecidableEq

namespace IntrinsicId

def all : List IntrinsicId := [
  .atomicCounterRead, .atomicCounterIncrement, .atomicCounterPredecrement, .atomicCounterAdd,
  .atomicCounterAnd, .atomicCounterOr, .atomicCounterXor, .atomicCounterMin, .atomicCounterMax,
  .atomicCounterExchange, .atomicCounterCompSwap, .imageLoad, .imageStore, .imageAtomicAdd,
  .imageAtomicMin, .imageAtomicMax, .imageAtomicAnd, .imageAtomicOr, .imageAtomicXor,
  .imageAtomicExchange, .imageAtomicCompSwap, .imageSize, .imageSamples, .memoryBarrier,
  .memoryBarrierAtomicCounter, .memoryBarrierBuffer, .memoryBarrierImage, .memoryBarrierShared,
  .groupMemoryBarrier, .shaderClock, .ssboLoad, .ssboStore, .ssboAtomicAdd, .ssboAtomicMin,
  .ssboAtomicMax, .ssboAtomicAnd, .ssboAtomicOr, .ssboAtomicXor, .ssboAtomicExchange,
  .ssboAtomicCompSwap, .sharedLoad, .sharedStore, .sharedAtomicAdd, .sharedAtomicMin,
  .sharedAtomicMax, .sharedAtomicAnd, .sharedAtomicOr, .sharedAtomicXor, .sharedAtomicExchange,
  .sharedAtomicCompSwap, .voteAny, .voteAll, .voteEq, .ballot, .readInvocation,
  .readFirstInvocation]

def name : IntrinsicId → String
  | .atomicCounterRead => "AtomicCounterRead"
  | .atomicCounterIncrement => "AtomicCounterIncrement"
  | .atomicCounterPredecrement => "AtomicCounterPredecrement"
  | .atomicCounterAdd => "AtomicCounterAdd"
  | .atomicCounterAnd => "AtomicCounterAnd"
  | .atomicCounterOr => "AtomicCounterOr"
  | .atomicCounterXor => "AtomicCounterXor"
  | .atomicCounterMin => "AtomicCounterMin"
  | .atomicCounterMax => "AtomicCounterMax"
  | .atomicCounterExchange => "AtomicCounterExchange"
  | .atomicCounterCompSwap => "AtomicCounterCompSwap"
  | .imageLoad => "ImageLoad"
  | .imageStore => "ImageStore"
  | .imageAtomicAdd => "ImageAtomicAdd"
  | .imageAtomicMin => "ImageAtomicMin"
  | .imageAtomicMax => "ImageAtomicMax"
  | .imageAtomicAnd => "ImageAtomicAnd"
  | .imageAtomicOr => "ImageAtomicOr"
  | .imageAtomicXor => "ImageAtomicXor"
  | .imageAtomicExchange => "ImageAtomicExchange"
  | .imageAtomicCompSwap => "ImageAtomicCompSwap"
  | .imageSize => "ImageSize"
  | .imageSamples => "ImageSamples"
  | .memoryBarrier => "MemoryBarrier"
  | .memoryBarrierAtomicCounter => "MemoryBarrierAtomicCounter"
  | .memoryBarrierBuffer => "MemoryBarrierBuffer"
  | .memoryBarrierImage => "MemoryBarrierImage"
  | .memoryBarrierShared => "MemoryBarrierShared"
  | .groupMemoryBarrier => "GroupMemoryBarrier"
  | .shaderClock => "ShaderClock"
  | .ssboLoad => "SsboLoad"
  | .ssboStore => "SsboStore"
  | .ssboAtomicAdd => "SsboAtomicAdd"
  | .ssboAtomicMin => "SsboAtomicMin"
  | .ssboAtomicMax => "SsboAtomicMax"
  | .ssboAtomicAnd => "SsboAtomicAnd"
  | .ssboAtomicOr => "SsboAtomicOr"
  | .ssboAtomicXor => "SsboAtomicXor"
  | .ssboAtomicExchange => "SsboAtomicExchange"
  | .ssboAtomicCompSwap => "SsboAtomicCompSwap"
  | .sharedLoad => "SharedLoad"
  | .sharedStore => "SharedStore"
  | .sharedAtomicAdd => "SharedAtomicAdd"
  | .sharedAtomicMin => "SharedAtomicMin"
  | .sharedAtomicMax => "SharedAtomicMax"
  | .sharedAtomicAnd => "SharedAtomicAnd"
  | .sharedAtomicOr => "SharedAtomicOr"
  | .sharedAtomicXor => "SharedAtomicXor"
  | .sharedAtomicExchange => "SharedAtomicExchange"
  | .sharedAtomicCompSwap => "SharedAtomicCompSwap"
  | .voteAny => "VoteAny"
  | .voteAll => "VoteAll"
  | .voteEq => "VoteEq"
  | .ballot => "Ballot"
  | .readInvocation => "ReadInvocation"
  | .readFirstInvocation => "ReadFirstInvocation"

end IntrinsicId

inductive VarMode where
  | auto
  | temporary
  | uniform
  | shaderStorage
  | shaderIn
  | shaderOut
  | systemValue
  | shared
  | functionIn
  | functionOut
  | functionInout
  | constIn
deriving DecidableEq

namespace VarMode

def all : List VarMode := [
  .auto, .temporary, .uniform, .shaderStorage, .shaderIn, .shaderOut, .systemValue, .shared,
  .functionIn, .functionOut, .functionInout, .constIn]

def name : VarMode → String
  | .auto => "Auto"
  | .temporary => "Temporary"
  | .uniform => "Uniform"
  | .shaderStorage => "ShaderStorage"
  | .shaderIn => "ShaderIn"
  | .shaderOut => "ShaderOut"
  | .systemValue => "SystemValue"
  | .shared => "Shared"
  | .functionIn => "FunctionIn"
  | .functionOut => "FunctionOut"
  | .functionInout => "FunctionInout"
  | .constIn => "ConstIn"

end VarMode

inductive Interpolation where
  | smooth
  | flat
  | noPerspective
deriving DecidableEq

namespace Interpolation

def all : List Interpolation := [
  .smooth, .flat, .noPerspective]

def name : Interpolation → String
  | .smooth => "Smooth"
  | .flat => "Flat"
  | .noPerspective => "NoPerspective"

end Interpolation

inductive Builtin where
  | position
  | pointSize
  | clipDistance
  | cullDistance
  | fragCoord
  | fragDepth
  | vertexId
  | instanceId
  | localInvocationId
  | workGroupId
deriving DecidableEq

namespace Builtin

def all : List Builtin := [
  .position, .pointSize, .clipDistance, .cullDistance, .fragCoord, .fragDepth, .vertexId,
  .instanceId, .localInvocationId, .workGroupId]

def name : Builtin → String
  | .position => "Position"
  | .pointSize => "PointSize"
  | .clipDistance => "ClipDistance"
  | .cullDistance => "CullDistance"
  | .fragCoord => "FragCoord"
  | .fragDepth => "FragDepth"
  | .vertexId => "VertexId"
  | .instanceId => "InstanceId"
  | .localInvocationId => "LocalInvocationId"
  | .workGroupId => "WorkGroupId"

end Builtin

inductive LoopJump where
  | breakLoop
  | continueLoop
deriving DecidableEq

namespace LoopJump

def all : List LoopJump := [
  .breakLoop, .continueLoop]

def name : LoopJump → String
  | .breakLoop => "Break"
  | .continueLoop => "Continue"

end LoopJump

end ShaderSSA
