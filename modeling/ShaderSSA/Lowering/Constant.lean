import ShaderSSA.Fault

/-!
# Literals as constants of the target

A literal keeps its nesting. Components become bit patterns: booleans all ones or zero; without native
integers, integers and booleans become `binary32` patterns.
-/

namespace ShaderSSA.Lowering

open Source Target

def floatPattern (i : Int) : UInt64 :=
  UInt64.ofNat (binary64.convert binary32 (binary64.ofInt i))

def scalarPattern? (nativeIntegers : Bool) (base : BaseType) (s : Scalar) : Option UInt64 :=
  let integer (bits : UInt64) (value : Int) : UInt64 :=
    if nativeIntegers then bits else floatPattern value
  match base, s with
  | .bool, .bool v =>
    some (if nativeIntegers then (if v then Constant.trueBits else Constant.falseBits)
      else floatPattern (if v then 1 else 0))
  | .uint8, .u8 v => some (integer v.toUInt64 v.toNat)
  | .int8, .i8 v => some (integer v.toUInt8.toUInt64 v.toInt)
  | .uint16, .u16 v => some (integer v.toUInt64 v.toNat)
  | .int16, .i16 v => some (integer v.toUInt16.toUInt64 v.toInt)
  | .uint, .u32 v => some (integer v.toUInt64 v.toNat)
  | .int, .i32 v => some (integer v.toUInt32.toUInt64 v.toInt)
  | .uint64, .u64 v => some (integer v v.toNat)
  | .int64, .i64 v => some (integer v.toUInt64 v.toInt)
  | .float16, .f16 bits => some bits.toUInt64
  | .float, .f32 bits => some bits.toUInt64
  | .double, .f64 bits => some bits
  | _, _ => none

def scalarPattern (nativeIntegers : Bool) (base : BaseType) (s : Scalar) : Except Fault UInt64 :=
  match scalarPattern? nativeIntegers base s with
  | some bits => .ok bits
  | none => .error (.defect (.literalComponent s base))

def storedBits (nativeIntegers : Bool) (base : BaseType) : UInt8 :=
  if !nativeIntegers && !base.isFloat then 32 else base.bitSize

def componentsConstant (nativeIntegers : Bool) (type : ShaderType) (scalars : List Scalar) :
    Except Fault Constant := do
  match type.baseType? with
  | none => throw (.defect (.componentLiteral type))
  | some base =>
    if scalars.length ≠ type.rows.toNat * type.columns.toNat then
      throw (.defect (.literalComponents type scalars.length))
    if 1 < type.columns ∧ !base.isFloat then throw (.defect (.matrixLiteral type))
    let bits ← scalars.mapM (scalarPattern nativeIntegers base)
    return .numeric (storedBits nativeIntegers base) type.columns type.rows bits

def elementCount (type : ShaderType) : Except Fault Nat :=
  match type with
  | .array _ length => .ok length.toNat
  | .struct _ fields => .ok fields.length
  | other => .error (.defect (.aggregateLiteral other))

mutual

def constantOf (nativeIntegers : Bool) : Literal → Except Fault Constant
  | .components type scalars => componentsConstant nativeIntegers type scalars
  | .aggregate type elements => do
    let expected ← elementCount type
    if elements.length ≠ expected then
      throw (.defect (.literalElements type elements.length expected))
    return .aggregate (← constantsOf nativeIntegers elements)

def constantsOf (nativeIntegers : Bool) : List Literal → Except Fault (List Constant)
  | [] => .ok []
  | l :: ls => do
    let c ← constantOf nativeIntegers l
    let cs ← constantsOf nativeIntegers ls
    return c :: cs

end

end ShaderSSA.Lowering
