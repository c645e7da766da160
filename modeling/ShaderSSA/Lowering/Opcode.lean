import ShaderSSA.Fault

/-!
# Choice of opcodes

Comparisons follow the type of their operands, everything else the type of the result. A target without
native integers takes the float form of every operator and has none for the operators on bits.
-/

namespace ShaderSSA.Lowering

open Target

def aluType (base : BaseType) : AluType :=
  let kind :=
    if base.isFloat then AluKind.float
    else if base.isBoolean then .bool
    else if base.isSignedInt then .int
    else .uint
  ⟨kind, base.bitSize⟩

def moveOp (nativeIntegers : Bool) : AluOp := if nativeIntegers then .imov else .fmov

def byWidth (width : UInt8) (one two three four : AluOp) : Except Fault AluOp :=
  if width = 1 then .ok one
  else if width = 2 then .ok two
  else if width = 3 then .ok three
  else if width = 4 then .ok four
  else .error (.defect (.fusedWidth width))

/-- The opcode that compares whole vectors: all components equal, or any of them unequal. -/
def fusedCompare (all : Bool) (input : BaseType) (width : UInt8) (nativeIntegers : Bool) :
    Except Fault AluOp :=
  match nativeIntegers, all, input.isFloat with
  | false, true, _ => byWidth width .seq .fallEqual2 .fallEqual3 .fallEqual4
  | false, false, _ => byWidth width .sne .fanyNequal2 .fanyNequal3 .fanyNequal4
  | true, true, true => byWidth width .feq .ballFequal2 .ballFequal3 .ballFequal4
  | true, true, false => byWidth width .ieq .ballIequal2 .ballIequal3 .ballIequal4
  | true, false, true => byWidth width .fne .banyFnequal2 .banyFnequal3 .banyFnequal4
  | true, false, false => byWidth width .ine .banyInequal2 .banyInequal3 .banyInequal4

/-- What the choice of an opcode looks at. -/
structure Selection where
  nativeIntegers : Bool
  input : BaseType
  output : BaseType
  width : UInt8
  arity : Nat

namespace Selection

/-- Float, signed or unsigned form, by the result. -/
def byOutput (s : Selection) (float signed unsigned : AluOp) : AluOp :=
  if !s.nativeIntegers || s.output.isFloat then float
  else if s.output.isSignedInt then signed
  else unsigned

/-- Form of a comparison, by the operands; `set` is the form of a target without integers. -/
def comparison (s : Selection) (float signed unsigned set : AluOp) : AluOp :=
  if !s.nativeIntegers then set
  else if s.input.isFloat then float
  else if s.input.isSignedInt || s.input.isBoolean then signed
  else unsigned

def logic (s : Selection) (integer float : AluOp) : AluOp :=
  if s.nativeIntegers then integer else float

def integerOnly (s : Selection) (op : ExprOp) (chosen : AluOp) : Except Fault AluOp :=
  if s.nativeIntegers then .ok chosen else .error (.defect (.needsIntegers op))

def opcode (s : Selection) (op : ExprOp) : Except Fault AluOp :=
  match op with
  | .bitNot | .logicNot => .ok (s.logic .inot .fNot)
  | .neg => .ok (s.byOutput .fneg .ineg .ineg)
  | .abs => .ok (s.byOutput .fabs .iabs .iabs)
  | .sign => .ok (s.byOutput .fsign .isign .isign)
  | .rcp => .ok .frcp
  | .rsq => .ok .frsq
  | .sqrt => .ok .fsqrt
  | .exp2 => .ok .fexp2
  | .log2 => .ok .flog2
  | .bitcastI2F | .bitcastF2I | .bitcastU2F | .bitcastF2U | .bitcastI642D | .bitcastD2I64
  | .bitcastU642D | .bitcastD2U64 | .subroutineToInt => .ok (moveOp s.nativeIntegers)
  | .trunc => .ok .ftrunc
  | .ceil => .ok .fceil
  | .floor => .ok .ffloor
  | .fract => .ok .ffract
  | .roundEven => .ok .froundEven
  | .sin => .ok .fsin
  | .cos => .ok .fcos
  | .dfdx => .ok .fddx
  | .dfdxCoarse => .ok .fddxCoarse
  | .dfdxFine => .ok .fddxFine
  | .dfdy => .ok .fddy
  | .dfdyCoarse => .ok .fddyCoarse
  | .dfdyFine => .ok .fddyFine
  | .packSnorm2x16 => .ok .packSnorm2x16
  | .packSnorm4x8 => .ok .packSnorm4x8
  | .packUnorm2x16 => .ok .packUnorm2x16
  | .packUnorm4x8 => .ok .packUnorm4x8
  | .packHalf2x16 => .ok .packHalf2x16
  | .unpackSnorm2x16 => .ok .unpackSnorm2x16
  | .unpackSnorm4x8 => .ok .unpackSnorm4x8
  | .unpackUnorm2x16 => .ok .unpackUnorm2x16
  | .unpackUnorm4x8 => .ok .unpackUnorm4x8
  | .unpackHalf2x16 => .ok .unpackHalf2x16
  | .packDouble2x32 => .ok .packDouble2x32
  | .unpackDouble2x32 => .ok .unpackDouble2x32
  | .bitfieldReverse => s.integerOnly op .bitfieldReverse
  | .bitCount => s.integerOnly op .bitCount
  | .findMsb => s.integerOnly op (if s.input.isSignedInt then .ifindMsb else .ufindMsb)
  | .findLsb => s.integerOnly op .findLsb
  | .saturate => .ok .fsat
  | .frexpSig => .ok .frexpSig
  | .frexpExp => .ok .frexpExp
  | .add => .ok (s.byOutput .fadd .iadd .iadd)
  | .sub => .ok (s.byOutput .fsub .isub .isub)
  | .mul => .ok (s.byOutput .fmul .imul .imul)
  | .div => .ok (s.byOutput .fdiv .idiv .udiv)
  | .mod => .ok (s.byOutput .fmod .umod .umod)
  | .less | .greater => .ok (s.comparison .flt .ilt .ult .slt)
  | .gequal | .lequal => .ok (s.comparison .fge .ige .uge .sge)
  | .equal => .ok (s.comparison .feq .ieq .ieq .seq)
  | .nequal => .ok (s.comparison .fne .ine .ine .sne)
  | .allEqual => fusedCompare true s.input s.width s.nativeIntegers
  | .anyNequal => fusedCompare false s.input s.width s.nativeIntegers
  | .logicAnd | .bitAnd => .ok (s.logic .iand .fAnd)
  | .logicOr | .bitOr => .ok (s.logic .ior .fOr)
  | .logicXor | .bitXor => .ok (s.logic .ixor .fXor)
  | .lshift => s.integerOnly op .ishl
  | .rshift => s.integerOnly op (if s.input.isSignedInt then .ishr else .ushr)
  | .min => .ok (s.byOutput .fmin .imin .umin)
  | .max => .ok (s.byOutput .fmax .imax .umax)
  | .pow => .ok .fpow
  | .dot =>
    if s.width = 1 then .ok .fmul
    else if s.width = 2 then .ok .fdot2
    else if s.width = 3 then .ok .fdot3
    else if s.width = 4 then .ok .fdot4
    else .error (.defect (.dotWidth s.width))
  | .imulHigh => s.integerOnly op (if s.output.isSignedInt then .imulHigh else .umulHigh)
  | .carry => s.integerOnly op .uaddCarry
  | .borrow => s.integerOnly op .usubBorrow
  | .ldexp => .ok .ldexp
  | .fma => .ok .ffma
  | .lrp => .ok .flrp
  | .csel => .ok (s.logic .bcsel .fcsel)
  | .bitfieldExtract =>
    s.integerOnly op (if s.output.isSignedInt then .ibitfieldExtract else .ubitfieldExtract)
  | .bitfieldInsert => s.integerOnly op .bitfieldInsert
  | .vector =>
    if s.arity = 2 then .ok .vec2
    else if s.arity = 3 then .ok .vec3
    else if s.arity = 4 then .ok .vec4
    else .error (.defect (.vectorArity s.arity))
  | .convert | .uboLoad | .getBufferSize | .interpolateAtCentroid | .interpolateAtOffset
  | .interpolateAtSample | .exp | .log | .noise | .vectorExtract | .vectorInsert
  | .ssboUnsizedArrayLength => .error (.defect (.noOpcode op))

end Selection

/-- The opcode that converts between numeric interpretations. Integers of one width are only moved;
rounding is fixed only when a float gets narrower. -/
def conversionOp (src dst : AluType) : AluOp :=
  let isInteger (t : AluType) : Bool := t.kind = .int || t.kind = .uint
  if src.bitSize = dst.bitSize && isInteger src && isInteger dst then .imov
  else
    let rounding : RoundingMode :=
      if src.kind = .float && dst.kind = .float && dst.bitSize < src.bitSize then .rtne else .undef
    .convert src dst rounding

end ShaderSSA.Lowering
