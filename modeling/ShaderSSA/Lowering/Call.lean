import ShaderSSA.Lowering.Catalogue
import ShaderSSA.Lowering.Value

/-!
# Calls

A call of a function passes locations. A call of a built-in function becomes the operation of its rule,
with its parameters laid out by the recipe, and the result is stored where the call says.
-/

namespace ShaderSSA.Lowering

open Source Target Lower

/-! ### Functions -/

def locations (source : Source.Program) : List Rvalue → Lower (List LinkId)
  | [] => return []
  | r :: rs => do
    let chain ← locationChain source r
    let heads ← locations source rs
    return chain.head :: heads

def callFunction (source : Source.Program) (call : Source.Call) : Lower Unit := do
  let callee ← check ((← scope).resolveFunction source call.callee)
  let params ← locations source call.parameters
  let result ← match call.result with
    | some place => do
      let chain ← placeChain source place
      pure (some chain.head)
    | none => pure none
  emitEffect (.call callee params result)

/-! ### Built-in functions -/

def chooseOp (id : IntrinsicId) (result : Option ShaderType) : OpChoice → Except Fault IntrinsicOp
  | .fixed op => .ok op
  | .bySignedness signed unsigned =>
    match result.bind ShaderType.baseType? with
    | some base => .ok (if base.isSignedInt then signed else unsigned)
    | none => .error (.defect (.untypedResult id))

def checkArity (id : IntrinsicId) (params : List Rvalue) (expected : Nat) : Except Fault Unit :=
  if params.length = expected then .ok ()
  else .error (.defect (.parameterCount id expected params.length))

def resultType (id : IntrinsicId) : Option ShaderType → Except Fault ShaderType
  | some type => .ok type
  | none => .error (.defect (.noResultPlace id))

def imageOf (id : IntrinsicId) : List Rvalue → Except Fault ImageType
  | [] => .error (.defect (.noImage id))
  | r :: _ =>
    match r.type.withoutArray with
    | .image image => .ok image
    | other => .error (.defect (.notImage id other))

def immediateMask (id : IntrinsicId) (param : Rvalue) : Except Fault UInt8 :=
  match param.word? with
  | some v => .ok v.toUInt8
  | none => .error (.defect (.notImmediate id param.type))

def valueSources (source : Source.Program) (params : List Rvalue) : Lower (List Src) := do
  return (← evaluateAll source params).map .ssa

/-- The undefined value that pads the operands of one call. -/
def emitUndef : Lower ValueId := emitValue .undef 1 32

/-- The lanes of an image coordinate: those in use read the coordinate, the others the padding. -/
def coordinateLanes (coordinate : ValueId) (used : UInt8) (padding : ValueId) : List AluSrc :=
  [0, 1, 2, 3].map fun i => if i < used then ⟨coordinate, .all i⟩ else ⟨padding, .all 0⟩

/-- Widen an image coordinate to four channels and pad it with an undefined value, which is given
beside it if one was needed. -/
def imageCoordinate (coordinate : ValueId) (used : UInt8) : Lower (ValueId × Option ValueId) := do
  let shape ← valueDef coordinate
  if shape.width < used then abort (.imageCoordinate used shape.width)
  if used < 4 then
    let padding ← emitUndef
    let wide ← emitValue (.alu .vec4 (coordinateLanes coordinate used padding)) 4 shape.bitSize
    return (wide, some padding)
  else
    let wide ← emitValue (.alu .vec4 (coordinateLanes coordinate used coordinate)) 4 shape.bitSize
    return (wide, none)

def emitResult (op : IntrinsicOp) (srcs : List Src) (indices : Indices) (width bitSize : UInt8) :
    Lower (Option ValueId) := do
  return some (← emitValue (.intrinsic op srcs indices) width bitSize)

def emitNoResult (op : IntrinsicOp) (srcs : List Src) (indices : Indices) :
    Lower (Option ValueId) := do
  emitEffect (.intrinsic op srcs indices)
  return none

def imageAccess (source : Source.Program) (id : IntrinsicId) (op : IntrinsicOp) (image : ImageType)
    (result : Option ShaderType) (params : List Rvalue) : Lower (Option ValueId) := do
  match params with
  | target :: coordinate :: rest =>
    let chain ← locationChain source target
    let coordinate ← evaluate source coordinate
    let (coordinate, padding) ← imageCoordinate coordinate image.coordinateComponents
    let (sample, data) ← match image.dim, rest with
      | .ms, sample :: data => do
        let sample ← evaluate source sample
        pure (sample, data)
      | _, _ => do
        let padding ← match padding with
          | some v => pure v
          | none => emitUndef
        pure (padding, rest)
    let data ← valueSources source data
    let srcs := .location chain.head :: .ssa coordinate :: .ssa sample :: data
    match result with
    | some type => emitResult op srcs {} type.rows 32
    | none => emitNoResult op srcs {}
  | _ => abort (.noImage id)

/-- Store to buffer or shared memory: the value, then the address, with the mask of an immediate. -/
def memoryStore (source : Source.Program) (id : IntrinsicId) (op : IntrinsicOp)
    (base : Option Int32) (address : List Rvalue) (value mask : Rvalue) :
    Lower (Option ValueId) := do
  let address ← valueSources source address
  let value ← evaluate source value
  let mask ← check (immediateMask id mask)
  let width := (← valueDef value).width
  emitNoResult op (.ssa value :: address) { width, writeMask := some mask, base }

def applyRecipe (source : Source.Program) (id : IntrinsicId) (op : IntrinsicOp) (recipe : Recipe)
    (result : Option ShaderType) (params : List Rvalue) : Lower (Option ValueId) := do
  match recipe, params with
  | .atomicCounter _, counter :: data =>
    let chain ← locationChain source counter
    let data ← valueSources source data
    emitResult op (.location chain.head :: data) {} 1 32
  | .image _, params => do
    let image ← check (imageOf id params)
    imageAccess source id op image result params
  | .imageQuery, image :: _ =>
    let chain ← locationChain source image
    let type ← check (resultType id result)
    emitResult op [.location chain.head] {} type.rows 32
  | .barrier, _ => emitNoResult op [] {}
  | .clock, _ => emitResult op [] {} ((result.map ShaderType.rows).getD 2) 32
  | .ssboLoad, params =>
    let type ← check (resultType id result)
    let srcs ← valueSources source params
    return some (← emitLoad type.isBoolean (.intrinsic op srcs { width := type.rows }) type.rows
      (valueBits (← nativeIntegers) type))
  | .ssboStore, [block, offset, value, mask] =>
    memoryStore source id op none [block, offset] value mask
  | .ssboAtomic _, params =>
    let srcs ← valueSources source params
    let type ← check (resultType id result)
    emitResult op srcs {} type.rows 32
  | .sharedLoad, params =>
    let srcs ← valueSources source params
    let type ← check (resultType id result)
    emitResult op srcs { width := type.rows, base := some 0 } type.rows type.bitSize
  | .sharedStore, [offset, value, mask] =>
    memoryStore source id op (some 0) [offset] value mask
  | .sharedAtomic _, params =>
    let srcs ← valueSources source params
    let type ← check (resultType id result)
    emitResult op srcs { base := some 0 } type.rows type.bitSize
  | .vote, params => do emitResult op (← valueSources source params) {} 1 32
  | .ballot, params => do emitResult op (← valueSources source params) {} 1 64
  | .readInvocation, value :: rest | .readFirstInvocation, value :: rest =>
    let value ← evaluate source value
    let rest ← valueSources source rest
    let shape ← valueDef value
    emitResult op (.ssa value :: rest) { width := shape.width } shape.width shape.bitSize
  | recipe, params => abort (.parameterCount id (recipe.arity false) params.length)

def expectedArity (id : IntrinsicId) (recipe : Recipe) (params : List Rvalue) :
    Except Fault Nat :=
  match recipe with
  | .image _ => do return recipe.arity ((← imageOf id params).dim = .ms)
  | _ => .ok (recipe.arity false)

def callIntrinsic (source : Source.Program) (id : IntrinsicId) (call : Source.Call) :
    Lower Unit := do
  let rule := ruleOf id
  let type := call.result.map Place.type
  let op ← check (chooseOp id type rule.op)
  let arity ← check (expectedArity id rule.recipe call.parameters)
  check (checkArity id call.parameters arity)
  let value ← applyRecipe source id op rule.recipe type call.parameters
  match call.result, value with
  | none, _ => return
  | some _, none => abort (.noResult id)
  | some place, some value =>
    let chain ← placeChain source place
    let mask ← check (fullMask (← valueDef value).width)
    storeLocation chain.head value mask

def lowerCall (source : Source.Program) (call : Source.Call) : Lower Unit := do
  let signature ← check (source.getSignature call.callee)
  match signature.intrinsic with
  | some id => callIntrinsic source id call
  | none => callFunction source call

end ShaderSSA.Lowering
