import ShaderSSA.Lowering.Constant
import ShaderSSA.Lowering.State

/-!
# Loads, stores and the places of constants

Buffer memory only promises that `true` is not zero, so a boolean that is loaded from it is compared
with zero before anything else reads it.
-/

namespace ShaderSSA.Lowering

open Source Target Lower

def valueBits (nativeIntegers : Bool) (type : ShaderType) : UInt8 :=
  match type.baseType? with
  | some base => if !nativeIntegers && !base.isFloat then 32 else type.bitSize
  | none => type.bitSize

/-- The write mask of all components of a value. A mask is made in a 16-bit word and cut to 8 bits. -/
def fullMask (width : UInt8) : Except Fault UInt8 :=
  if width < 16 then .ok (UInt8.ofNat (Nat.pow 2 width.toNat - 1))
  else .error (.overflow .shiftLeft)

def emitZero : Lower ValueId := emitValue (.loadConst 32 [0]) 1 32

def nonzeroTest (raw zero : ValueId) : Lower ValueId := do
  let width := (← valueDef raw).width
  emitValue (.alu .ine [.broadcast raw width, ⟨zero, .all 0⟩]) width 32

def emitLoad (raw : Bool) (operation : Operation) (width bitSize : UInt8) : Lower ValueId := do
  if raw then
    let zero ← emitZero
    let value ← emitValue operation width bitSize
    nonzeroTest value zero
  else emitValue operation width bitSize

def checkLoadable (type : ShaderType) : Lower Unit := do
  if type.isMatrix || type.rows = 0 then abort (.loadShape type)

def loadLocation (type : ShaderType) (head : LinkId) : Lower ValueId := do
  let p ← program
  let root ← check (p.links.rootVar head)
  let var ← check (p.getVariable root)
  let width := type.rows
  emitLoad (var.storage.isBuffer && type.isBoolean)
    (.intrinsic .loadDeref [.location head] { width }) width (valueBits (← nativeIntegers) type)

def storeLocation (head : LinkId) (value : ValueId) (mask : UInt8) : Lower Unit := do
  let width := (← valueDef value).width
  emitEffect (.intrinsic .storeDeref [.location head, .ssa value]
    { width, writeMask := some mask })

def copyLocation (dst src : LinkId) : Lower Unit :=
  emitEffect (.intrinsic .copyDeref [.location dst, .location src] {})

/-- Give a constant a place: a read-only variable of the function that uses it. -/
def constantChain (literal : Literal) : Lower Chain := do
  match (← scope).current with
  | none => abort (.constantOutsideFunction literal.type)
  | some function =>
    let initializer ← check (constantOf (← nativeIntegers) literal)
    let var ← addVariable
      { name := "const_temp", type := literal.type, storage := .functionLocal, readOnly := true,
        initializer := some initializer } (some function)
    rootChain var literal.type

end ShaderSSA.Lowering
