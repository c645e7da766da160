import ShaderSSA.Text.Snake

/-!
# Opcodes of target programs
-/

namespace ShaderSSA.Target

inductive AluKind where
  | float
  | int
  | uint
  | bool
deriving DecidableEq

namespace AluKind

def all : List AluKind := [
  .float, .int, .uint, .bool]

def name : AluKind → String
  | .float => "Float"
  | .int => "Int"
  | .uint => "Uint"
  | .bool => "Bool"

end AluKind

structure AluType where
  kind : AluKind
  bitSize : UInt8
deriving DecidableEq

def AluType.text (t : AluType) : String := t.kind.name ++ toString t.bitSize

inductive RoundingMode where
  | undef
  /-- To nearest, ties to even. -/
  | rtne
deriving DecidableEq

namespace RoundingMode

def all : List RoundingMode := [
  .undef, .rtne]

def name : RoundingMode → String
  | .undef => "Undef"
  | .rtne => "Rtne"

end RoundingMode

/-- Operations that compute a value from values. -/
inductive AluOp where
  | imov
  | fmov
  | vec2
  | vec3
  | vec4
  | convert (src dst : AluType) (rounding : RoundingMode)
  | fneg
  | ineg
  | fabs
  | iabs
  | fsign
  | isign
  | frcp
  | frsq
  | fsqrt
  | fexp2
  | flog2
  | ftrunc
  | fceil
  | ffloor
  | ffract
  | froundEven
  | fsin
  | fcos
  | fddx
  | fddxCoarse
  | fddxFine
  | fddy
  | fddyCoarse
  | fddyFine
  | fsat
  | frexpSig
  | frexpExp
  | ldexp
  | fadd
  | iadd
  | fsub
  | isub
  | fmul
  | imul
  | fdiv
  | idiv
  | udiv
  | fmod
  | umod
  | fmin
  | imin
  | umin
  | fmax
  | imax
  | umax
  | fpow
  | fdot2
  | fdot3
  | fdot4
  | ffma
  | flrp
  | imulHigh
  | umulHigh
  | uaddCarry
  | usubBorrow
  | inot
  | iand
  | ior
  | ixor
  | ishl
  | ishr
  | ushr
  | bitfieldReverse
  | bitCount
  | ufindMsb
  | ifindMsb
  | findLsb
  | ubitfieldExtract
  | ibitfieldExtract
  | bitfieldInsert
  | fNot
  | fAnd
  | fOr
  | fXor
  | flt
  | ilt
  | ult
  | fge
  | ige
  | uge
  | feq
  | ieq
  | fne
  | ine
  | slt
  | sge
  | seq
  | sne
  | ballFequal2
  | ballFequal3
  | ballFequal4
  | banyFnequal2
  | banyFnequal3
  | banyFnequal4
  | ballIequal2
  | ballIequal3
  | ballIequal4
  | banyInequal2
  | banyInequal3
  | banyInequal4
  | fallEqual2
  | fallEqual3
  | fallEqual4
  | fanyNequal2
  | fanyNequal3
  | fanyNequal4
  | bcsel
  | fcsel
  | packSnorm2x16
  | packSnorm4x8
  | packUnorm2x16
  | packUnorm4x8
  | packHalf2x16
  | unpackSnorm2x16
  | unpackSnorm4x8
  | unpackUnorm2x16
  | unpackUnorm4x8
  | unpackHalf2x16
  | packDouble2x32
  | unpackDouble2x32
deriving DecidableEq

namespace AluOp

def moves : List AluOp := [.imov, .fmov, .vec2, .vec3, .vec4]

def computations : List AluOp := [
  .fneg, .ineg, .fabs, .iabs, .fsign, .isign, .frcp, .frsq, .fsqrt, .fexp2, .flog2, .ftrunc,
  .fceil, .ffloor, .ffract, .froundEven, .fsin, .fcos, .fddx, .fddxCoarse, .fddxFine, .fddy,
  .fddyCoarse, .fddyFine, .fsat, .frexpSig, .frexpExp, .ldexp, .fadd, .iadd, .fsub, .isub, .fmul,
  .imul, .fdiv, .idiv, .udiv, .fmod, .umod, .fmin, .imin, .umin, .fmax, .imax, .umax, .fpow,
  .fdot2, .fdot3, .fdot4, .ffma, .flrp, .imulHigh, .umulHigh, .uaddCarry, .usubBorrow, .inot,
  .iand, .ior, .ixor, .ishl, .ishr, .ushr, .bitfieldReverse, .bitCount, .ufindMsb, .ifindMsb,
  .findLsb, .ubitfieldExtract, .ibitfieldExtract, .bitfieldInsert, .fNot, .fAnd, .fOr, .fXor,
  .flt, .ilt, .ult, .fge, .ige, .uge, .feq, .ieq, .fne, .ine, .slt, .sge, .seq, .sne,
  .ballFequal2, .ballFequal3, .ballFequal4, .banyFnequal2, .banyFnequal3, .banyFnequal4,
  .ballIequal2, .ballIequal3, .ballIequal4, .banyInequal2, .banyInequal3, .banyInequal4,
  .fallEqual2, .fallEqual3, .fallEqual4, .fanyNequal2, .fanyNequal3, .fanyNequal4, .bcsel,
  .fcsel, .packSnorm2x16, .packSnorm4x8, .packUnorm2x16, .packUnorm4x8, .packHalf2x16,
  .unpackSnorm2x16, .unpackSnorm4x8, .unpackUnorm2x16, .unpackUnorm4x8, .unpackHalf2x16,
  .packDouble2x32, .unpackDouble2x32]

def name : AluOp → String
  | .imov => "Imov"
  | .fmov => "Fmov"
  | .vec2 => "Vec2"
  | .vec3 => "Vec3"
  | .vec4 => "Vec4"
  | .convert .. => "Convert"
  | .fneg => "Fneg"
  | .ineg => "Ineg"
  | .fabs => "Fabs"
  | .iabs => "Iabs"
  | .fsign => "Fsign"
  | .isign => "Isign"
  | .frcp => "Frcp"
  | .frsq => "Frsq"
  | .fsqrt => "Fsqrt"
  | .fexp2 => "Fexp2"
  | .flog2 => "Flog2"
  | .ftrunc => "Ftrunc"
  | .fceil => "Fceil"
  | .ffloor => "Ffloor"
  | .ffract => "Ffract"
  | .froundEven => "FroundEven"
  | .fsin => "Fsin"
  | .fcos => "Fcos"
  | .fddx => "Fddx"
  | .fddxCoarse => "FddxCoarse"
  | .fddxFine => "FddxFine"
  | .fddy => "Fddy"
  | .fddyCoarse => "FddyCoarse"
  | .fddyFine => "FddyFine"
  | .fsat => "Fsat"
  | .frexpSig => "FrexpSig"
  | .frexpExp => "FrexpExp"
  | .ldexp => "Ldexp"
  | .fadd => "Fadd"
  | .iadd => "Iadd"
  | .fsub => "Fsub"
  | .isub => "Isub"
  | .fmul => "Fmul"
  | .imul => "Imul"
  | .fdiv => "Fdiv"
  | .idiv => "Idiv"
  | .udiv => "Udiv"
  | .fmod => "Fmod"
  | .umod => "Umod"
  | .fmin => "Fmin"
  | .imin => "Imin"
  | .umin => "Umin"
  | .fmax => "Fmax"
  | .imax => "Imax"
  | .umax => "Umax"
  | .fpow => "Fpow"
  | .fdot2 => "Fdot2"
  | .fdot3 => "Fdot3"
  | .fdot4 => "Fdot4"
  | .ffma => "Ffma"
  | .flrp => "Flrp"
  | .imulHigh => "ImulHigh"
  | .umulHigh => "UmulHigh"
  | .uaddCarry => "UaddCarry"
  | .usubBorrow => "UsubBorrow"
  | .inot => "Inot"
  | .iand => "Iand"
  | .ior => "Ior"
  | .ixor => "Ixor"
  | .ishl => "Ishl"
  | .ishr => "Ishr"
  | .ushr => "Ushr"
  | .bitfieldReverse => "BitfieldReverse"
  | .bitCount => "BitCount"
  | .ufindMsb => "UfindMsb"
  | .ifindMsb => "IfindMsb"
  | .findLsb => "FindLsb"
  | .ubitfieldExtract => "UbitfieldExtract"
  | .ibitfieldExtract => "IbitfieldExtract"
  | .bitfieldInsert => "BitfieldInsert"
  | .fNot => "Fnot"
  | .fAnd => "Fand"
  | .fOr => "For"
  | .fXor => "Fxor"
  | .flt => "Flt"
  | .ilt => "Ilt"
  | .ult => "Ult"
  | .fge => "Fge"
  | .ige => "Ige"
  | .uge => "Uge"
  | .feq => "Feq"
  | .ieq => "Ieq"
  | .fne => "Fne"
  | .ine => "Ine"
  | .slt => "Slt"
  | .sge => "Sge"
  | .seq => "Seq"
  | .sne => "Sne"
  | .ballFequal2 => "BallFequal2"
  | .ballFequal3 => "BallFequal3"
  | .ballFequal4 => "BallFequal4"
  | .banyFnequal2 => "BanyFnequal2"
  | .banyFnequal3 => "BanyFnequal3"
  | .banyFnequal4 => "BanyFnequal4"
  | .ballIequal2 => "BallIequal2"
  | .ballIequal3 => "BallIequal3"
  | .ballIequal4 => "BallIequal4"
  | .banyInequal2 => "BanyInequal2"
  | .banyInequal3 => "BanyInequal3"
  | .banyInequal4 => "BanyInequal4"
  | .fallEqual2 => "FallEqual2"
  | .fallEqual3 => "FallEqual3"
  | .fallEqual4 => "FallEqual4"
  | .fanyNequal2 => "FanyNequal2"
  | .fanyNequal3 => "FanyNequal3"
  | .fanyNequal4 => "FanyNequal4"
  | .bcsel => "Bcsel"
  | .fcsel => "Fcsel"
  | .packSnorm2x16 => "PackSnorm2x16"
  | .packSnorm4x8 => "PackSnorm4x8"
  | .packUnorm2x16 => "PackUnorm2x16"
  | .packUnorm4x8 => "PackUnorm4x8"
  | .packHalf2x16 => "PackHalf2x16"
  | .unpackSnorm2x16 => "UnpackSnorm2x16"
  | .unpackSnorm4x8 => "UnpackSnorm4x8"
  | .unpackUnorm2x16 => "UnpackUnorm2x16"
  | .unpackUnorm4x8 => "UnpackUnorm4x8"
  | .unpackHalf2x16 => "UnpackHalf2x16"
  | .packDouble2x32 => "PackDouble2x32"
  | .unpackDouble2x32 => "UnpackDouble2x32"

def text : AluOp → String
  | .convert src dst rounding =>
    let mode := match rounding with
      | .undef => ""
      | .rtne => "." ++ rounding.name
    "convert." ++ src.text ++ "->" ++ dst.text ++ mode
  | op => Text.snakeCase op.name

end AluOp

/-- Operations with effects or with operands in storage. -/
inductive IntrinsicOp where
  | loadDeref
  | storeDeref
  | copyDeref
  | discard
  | discardIf
  | emitVertex
  | endPrimitive
  | barrier
  | interpDerefAtCentroid
  | interpDerefAtOffset
  | interpDerefAtSample
  | atomicCounterReadDeref
  | atomicCounterIncDeref
  | atomicCounterPreDecDeref
  | atomicCounterAddDeref
  | atomicCounterAndDeref
  | atomicCounterOrDeref
  | atomicCounterXorDeref
  | atomicCounterMinDeref
  | atomicCounterMaxDeref
  | atomicCounterExchangeDeref
  | atomicCounterCompSwapDeref
  | imageDerefLoad
  | imageDerefStore
  | imageDerefAtomicAdd
  | imageDerefAtomicImin
  | imageDerefAtomicUmin
  | imageDerefAtomicImax
  | imageDerefAtomicUmax
  | imageDerefAtomicAnd
  | imageDerefAtomicOr
  | imageDerefAtomicXor
  | imageDerefAtomicExchange
  | imageDerefAtomicCompSwap
  | imageDerefSize
  | imageDerefSamples
  | memoryBarrier
  | memoryBarrierAtomicCounter
  | memoryBarrierBuffer
  | memoryBarrierImage
  | memoryBarrierShared
  | groupMemoryBarrier
  | shaderClock
  | loadUbo
  | getBufferSize
  | loadSsbo
  | storeSsbo
  | ssboAtomicAdd
  | ssboAtomicImin
  | ssboAtomicUmin
  | ssboAtomicImax
  | ssboAtomicUmax
  | ssboAtomicAnd
  | ssboAtomicOr
  | ssboAtomicXor
  | ssboAtomicExchange
  | ssboAtomicCompSwap
  | loadShared
  | storeShared
  | sharedAtomicAdd
  | sharedAtomicImin
  | sharedAtomicUmin
  | sharedAtomicImax
  | sharedAtomicUmax
  | sharedAtomicAnd
  | sharedAtomicOr
  | sharedAtomicXor
  | sharedAtomicExchange
  | sharedAtomicCompSwap
  | voteAny
  | voteAll
  | voteIeq
  | ballot
  | readInvocation
  | readFirstInvocation
deriving DecidableEq

namespace IntrinsicOp

def all : List IntrinsicOp := [
  .loadDeref, .storeDeref, .copyDeref, .discard, .discardIf, .emitVertex, .endPrimitive,
  .barrier, .interpDerefAtCentroid, .interpDerefAtOffset, .interpDerefAtSample,
  .atomicCounterReadDeref, .atomicCounterIncDeref, .atomicCounterPreDecDeref,
  .atomicCounterAddDeref, .atomicCounterAndDeref, .atomicCounterOrDeref, .atomicCounterXorDeref,
  .atomicCounterMinDeref, .atomicCounterMaxDeref, .atomicCounterExchangeDeref,
  .atomicCounterCompSwapDeref, .imageDerefLoad, .imageDerefStore, .imageDerefAtomicAdd,
  .imageDerefAtomicImin, .imageDerefAtomicUmin, .imageDerefAtomicImax, .imageDerefAtomicUmax,
  .imageDerefAtomicAnd, .imageDerefAtomicOr, .imageDerefAtomicXor, .imageDerefAtomicExchange,
  .imageDerefAtomicCompSwap, .imageDerefSize, .imageDerefSamples, .memoryBarrier,
  .memoryBarrierAtomicCounter, .memoryBarrierBuffer, .memoryBarrierImage, .memoryBarrierShared,
  .groupMemoryBarrier, .shaderClock, .loadUbo, .getBufferSize, .loadSsbo, .storeSsbo,
  .ssboAtomicAdd, .ssboAtomicImin, .ssboAtomicUmin, .ssboAtomicImax, .ssboAtomicUmax,
  .ssboAtomicAnd, .ssboAtomicOr, .ssboAtomicXor, .ssboAtomicExchange, .ssboAtomicCompSwap,
  .loadShared, .storeShared, .sharedAtomicAdd, .sharedAtomicImin, .sharedAtomicUmin,
  .sharedAtomicImax, .sharedAtomicUmax, .sharedAtomicAnd, .sharedAtomicOr, .sharedAtomicXor,
  .sharedAtomicExchange, .sharedAtomicCompSwap, .voteAny, .voteAll, .voteIeq, .ballot,
  .readInvocation, .readFirstInvocation]

def name : IntrinsicOp → String
  | .loadDeref => "LoadDeref"
  | .storeDeref => "StoreDeref"
  | .copyDeref => "CopyDeref"
  | .discard => "Discard"
  | .discardIf => "DiscardIf"
  | .emitVertex => "EmitVertex"
  | .endPrimitive => "EndPrimitive"
  | .barrier => "Barrier"
  | .interpDerefAtCentroid => "InterpDerefAtCentroid"
  | .interpDerefAtOffset => "InterpDerefAtOffset"
  | .interpDerefAtSample => "InterpDerefAtSample"
  | .atomicCounterReadDeref => "AtomicCounterReadDeref"
  | .atomicCounterIncDeref => "AtomicCounterIncDeref"
  | .atomicCounterPreDecDeref => "AtomicCounterPreDecDeref"
  | .atomicCounterAddDeref => "AtomicCounterAddDeref"
  | .atomicCounterAndDeref => "AtomicCounterAndDeref"
  | .atomicCounterOrDeref => "AtomicCounterOrDeref"
  | .atomicCounterXorDeref => "AtomicCounterXorDeref"
  | .atomicCounterMinDeref => "AtomicCounterMinDeref"
  | .atomicCounterMaxDeref => "AtomicCounterMaxDeref"
  | .atomicCounterExchangeDeref => "AtomicCounterExchangeDeref"
  | .atomicCounterCompSwapDeref => "AtomicCounterCompSwapDeref"
  | .imageDerefLoad => "ImageDerefLoad"
  | .imageDerefStore => "ImageDerefStore"
  | .imageDerefAtomicAdd => "ImageDerefAtomicAdd"
  | .imageDerefAtomicImin => "ImageDerefAtomicImin"
  | .imageDerefAtomicUmin => "ImageDerefAtomicUmin"
  | .imageDerefAtomicImax => "ImageDerefAtomicImax"
  | .imageDerefAtomicUmax => "ImageDerefAtomicUmax"
  | .imageDerefAtomicAnd => "ImageDerefAtomicAnd"
  | .imageDerefAtomicOr => "ImageDerefAtomicOr"
  | .imageDerefAtomicXor => "ImageDerefAtomicXor"
  | .imageDerefAtomicExchange => "ImageDerefAtomicExchange"
  | .imageDerefAtomicCompSwap => "ImageDerefAtomicCompSwap"
  | .imageDerefSize => "ImageDerefSize"
  | .imageDerefSamples => "ImageDerefSamples"
  | .memoryBarrier => "MemoryBarrier"
  | .memoryBarrierAtomicCounter => "MemoryBarrierAtomicCounter"
  | .memoryBarrierBuffer => "MemoryBarrierBuffer"
  | .memoryBarrierImage => "MemoryBarrierImage"
  | .memoryBarrierShared => "MemoryBarrierShared"
  | .groupMemoryBarrier => "GroupMemoryBarrier"
  | .shaderClock => "ShaderClock"
  | .loadUbo => "LoadUbo"
  | .getBufferSize => "GetBufferSize"
  | .loadSsbo => "LoadSsbo"
  | .storeSsbo => "StoreSsbo"
  | .ssboAtomicAdd => "SsboAtomicAdd"
  | .ssboAtomicImin => "SsboAtomicImin"
  | .ssboAtomicUmin => "SsboAtomicUmin"
  | .ssboAtomicImax => "SsboAtomicImax"
  | .ssboAtomicUmax => "SsboAtomicUmax"
  | .ssboAtomicAnd => "SsboAtomicAnd"
  | .ssboAtomicOr => "SsboAtomicOr"
  | .ssboAtomicXor => "SsboAtomicXor"
  | .ssboAtomicExchange => "SsboAtomicExchange"
  | .ssboAtomicCompSwap => "SsboAtomicCompSwap"
  | .loadShared => "LoadShared"
  | .storeShared => "StoreShared"
  | .sharedAtomicAdd => "SharedAtomicAdd"
  | .sharedAtomicImin => "SharedAtomicImin"
  | .sharedAtomicUmin => "SharedAtomicUmin"
  | .sharedAtomicImax => "SharedAtomicImax"
  | .sharedAtomicUmax => "SharedAtomicUmax"
  | .sharedAtomicAnd => "SharedAtomicAnd"
  | .sharedAtomicOr => "SharedAtomicOr"
  | .sharedAtomicXor => "SharedAtomicXor"
  | .sharedAtomicExchange => "SharedAtomicExchange"
  | .sharedAtomicCompSwap => "SharedAtomicCompSwap"
  | .voteAny => "VoteAny"
  | .voteAll => "VoteAll"
  | .voteIeq => "VoteIeq"
  | .ballot => "Ballot"
  | .readInvocation => "ReadInvocation"
  | .readFirstInvocation => "ReadFirstInvocation"

def text (op : IntrinsicOp) : String := "@" ++ Text.snakeCase op.name

end IntrinsicOp

inductive TexSrcKind where
  | coord
  | projector
  | comparator
  | offset
  | bias
  | lod
  | ddx
  | ddy
  | msIndex
deriving DecidableEq

namespace TexSrcKind

def all : List TexSrcKind := [
  .coord, .projector, .comparator, .offset, .bias, .lod, .ddx, .ddy, .msIndex]

def name : TexSrcKind → String
  | .coord => "Coord"
  | .projector => "Projector"
  | .comparator => "Comparator"
  | .offset => "Offset"
  | .bias => "Bias"
  | .lod => "Lod"
  | .ddx => "Ddx"
  | .ddy => "Ddy"
  | .msIndex => "MsIndex"

end TexSrcKind

inductive TexDestType where
  | float
  | int
  | uint
deriving DecidableEq

namespace TexDestType

def all : List TexDestType := [
  .float, .int, .uint]

def name : TexDestType → String
  | .float => "Float"
  | .int => "Int"
  | .uint => "Uint"

end TexDestType

inductive JumpKind where
  | breakLoop
  | continueLoop
  | leaveFunction
deriving DecidableEq

namespace JumpKind

def all : List JumpKind := [
  .breakLoop, .continueLoop, .leaveFunction]

def name : JumpKind → String
  | .breakLoop => "Break"
  | .continueLoop => "Continue"
  | .leaveFunction => "Return"

def text : JumpKind → String
  | .breakLoop => "break"
  | .continueLoop => "continue"
  | .leaveFunction => "return"

end JumpKind

end ShaderSSA.Target
