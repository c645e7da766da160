import ShaderSSA.Lowering.Memory
import ShaderSSA.Lowering.Opcode
import ShaderSSA.Lowering.Texture

/-!
# Values and places

`evaluate` emits what a value needs into the open region and gives the value that holds the result.
`placeChain` builds the chain of a place, root first; a literal index becomes a direct link and any
other index is evaluated just before its link is attached.
-/

namespace ShaderSSA.Lowering

open Source Target Lower

/-- Read a value through component selectors. A reading that changes nothing is the value itself. -/
def reorder (value : ValueId) (lanes : Lanes) (width : UInt8) : Lower ValueId := do
  let shape ← valueDef value
  if width = shape.width && lanes.isIdentity width then return value
  match (lanes.take width).find? fun c => shape.width ≤ c with
  | some component => abort (.swizzleRange component shape.width)
  | none =>
    emitValue (.alu (moveOp (← nativeIntegers)) [⟨value, lanes⟩]) width shape.bitSize

def convert (src dst : ShaderType) (value : ValueId) : Lower ValueId := do
  match src.baseType?, dst.baseType? with
  | some srcBase, some dstBase =>
    let operand := AluSrc.broadcast value (← valueDef value).width
    if ← nativeIntegers then
      emitValue (.alu (conversionOp (aluType srcBase) (aluType dstBase)) [operand]) dst.rows
        (valueBits true dst)
    else if dstBase.isBoolean then
      let zero ← emitZero
      emitValue (.alu .sne [operand, ⟨zero, .all 0⟩]) dst.rows 32
    else
      let op : AluOp := if srcBase.isFloat && dstBase.isInteger then .ftrunc else .fmov
      emitValue (.alu op [operand]) dst.rows 32
  | _, _ => abort (.conversion src dst)

/-- Exchange the operands of the comparisons that have no opcode of their own. -/
def orderOperands (op : ExprOp) (values : List ValueId) : Except Fault (List ValueId) :=
  if op = .greater || op = .lequal then
    match values with
    | a :: b :: rest => .ok (b :: a :: rest)
    | _ => .error (.outOfBounds values.length values.length)
  else .ok values

def componentwise : List ValueId → Lower (List AluSrc)
  | [] => return []
  | v :: vs => do
    let src := AluSrc.broadcast v (← valueDef v).width
    return src :: (← componentwise vs)

def compute (op : ExprOp) (type : ShaderType) (operandTypes : List ShaderType)
    (values : List ValueId) : Lower ValueId := do
  match type.baseType? with
  | none => abort (.expressionType op type)
  | some output =>
    let first := operandTypes.head?
    let native ← nativeIntegers
    let selection : Selection :=
      { nativeIntegers := native
        input := (first.bind ShaderType.baseType?).getD output
        output
        width := (first.map ShaderType.rows).getD 1
        arity := operandTypes.length }
    let opcode ← check (selection.opcode op)
    let values ← check (orderOperands op values)
    let srcs ←
      if op = .vector then pure (values.map fun v => ⟨v, .all 0⟩) else componentwise values
    emitValue (.alu opcode srcs) type.rows (valueBits native type)

def literalIndex (literal : Literal) : Except Fault ArrayIndex :=
  match literal.word? with
  | some i => .ok (.direct i)
  | none => .error (.defect (.literalIndex literal.type))

def interpolation? : ExprOp → Option IntrinsicOp
  | .interpolateAtCentroid => some .interpDerefAtCentroid
  | .interpolateAtOffset => some .interpDerefAtOffset
  | .interpolateAtSample => some .interpDerefAtSample
  | _ => none

mutual

/-- Emit what a value needs and give the value that holds it. -/
def evaluate (source : Source.Program) : Rvalue → Lower ValueId
  | .place p => do
    checkLoadable p.type
    let chain ← placeChain source p
    loadLocation p.type chain.head
  | .constant l => do
    checkLoadable l.type
    let chain ← constantChain l
    loadLocation l.type chain.head
  | .swizzle value lanes width => do
    let v ← evaluate source value
    reorder v lanes width
  | .texture t => evaluateTexture source t
  | .expression op type operands => do
    if op.mustBeDecomposed then abort (.notDecomposed op)
    if op = .uboLoad then
      let block ← evaluateOperand source op 0 0 operands
      let offset ← evaluateOperand source op 1 1 operands
      emitLoad type.isBoolean
        (.intrinsic .loadUbo [.ssa block, .ssa offset] { width := type.rows }) type.rows
        (valueBits (← nativeIntegers) type)
    else if op = .getBufferSize then
      let block ← evaluateOperand source op 0 0 operands
      emitValue (.intrinsic .getBufferSize [.ssa block] {}) 1 32
    else match interpolation? op with
    | some intrinsic =>
      let chain ← interpolantChain source op operands
      let sample ←
        if op = .interpolateAtCentroid then pure []
        else do
          let v ← evaluateOperand source op 1 1 operands
          pure [Src.ssa v]
      emitValue (.intrinsic intrinsic (.location chain.head :: sample) { width := type.rows })
        type.rows (valueBits (← nativeIntegers) type)
    | none =>
      let operandTypes := operands.map Rvalue.type
      if type.isMatrix || operandTypes.any ShaderType.isMatrix then abort (.matrixOperator op)
      let values ← evaluateAll source operands
      if op = .convert then
        match operandTypes, values with
        | src :: _, value :: _ => convert src type value
        | _, _ => abort (.missingOperand op 0)
      else compute op type operandTypes values

def evaluateAll (source : Source.Program) : List Rvalue → Lower (List ValueId)
  | [] => return []
  | r :: rs => do
    let v ← evaluate source r
    let vs ← evaluateAll source rs
    return v :: vs

/-- Evaluate operand `number`, which stands `skip` places into the list. -/
def evaluateOperand (source : Source.Program) (op : ExprOp) (number : Nat) :
    Nat → List Rvalue → Lower ValueId
  | _, [] => abort (.missingOperand op number)
  | 0, r :: _ => evaluate source r
  | skip + 1, _ :: rs => evaluateOperand source op number skip rs

def interpolantChain (source : Source.Program) (op : ExprOp) : List Rvalue → Lower Chain
  | [] => abort (.missingOperand op 0)
  | .place p :: _ => placeChain source p
  | _ :: _ => abort (.interpolant op)

def placeChain (source : Source.Program) : Place → Lower Chain
  | .var id type => do
    let var ← check ((← scope).resolveVariable source id)
    rootChain var type
  | .field record index type => do
    let chain ← placeChain source record
    appendLink chain (.struct index) type
  | .element array index type => do
    let chain ← placeChain source array
    let index ← match index with
      | .constant l => check (literalIndex l)
      | _ => do
        let v ← evaluate source index
        pure (.indirect v)
    appendLink chain (.array index) type

def evaluateTexture (source : Source.Program) : Texture → Lower ValueId
  | ⟨op, type, sampler, coordinate, projector, comparator, offset, lod⟩ => do
    let samplerType ← check (samplerOf op sampler.type)
    let destType ← check (textureDest op type)
    let chain ← placeChain source sampler
    let coordinates ← textureSource source .coord coordinate
    let projectors ← textureSource source .projector projector
    let comparators ← textureSource source .comparator comparator
    check (checkOffset (offset.map Rvalue.type))
    let offsets ← textureSource source .offset offset
    let (details, component) ← lodSources source op lod
    let srcs := coordinates ++ projectors ++ comparators ++ offsets ++ details
    let expected := expectedSources op (hasLevel lod) projector.isSome comparator.isSome
      offset.isSome
    if srcs.length ≠ expected then abort (.textureSources op srcs.length expected)
    let isNewStyleShadow := samplerType.shadow && type.rows = 1
    emitValue (.tex
      { op
        dim := samplerType.dim
        isArray := samplerType.array
        isShadow := samplerType.shadow
        isNewStyleShadow
        destType
        texture := chain.head
        coordinateWidth := (coordinate.map fun c => c.type.rows).getD 0
        component
        srcs })
      (textureWidth op type isNewStyleShadow) 32

def textureSource (source : Source.Program) (kind : TexSrcKind) :
    Option Rvalue → Lower (List TexSrc)
  | none => return []
  | some r => do
    let v ← evaluate source r
    return [⟨kind, v⟩]

def lodSources (source : Source.Program) (op : TextureOp) : LodInfo → Lower (List TexSrc × UInt8)
  | .absent => do
    if !takesLod op .absent then abort (.textureLod op .absent)
    return ([], 0)
  | .bias r => do
    if !takesLod op (.bias r) then abort (.textureLod op (.bias r))
    let v ← evaluate source r
    return ([⟨.bias, v⟩], 0)
  | .lod r => do
    if !takesLod op (.lod r) then abort (.textureLod op (.lod r))
    let v ← evaluate source r
    return ([⟨.lod, v⟩], 0)
  | .grad dpdx dpdy => do
    if !takesLod op (.grad dpdx dpdy) then abort (.textureLod op (.grad dpdx dpdy))
    let x ← evaluate source dpdx
    let y ← evaluate source dpdy
    return ([⟨.ddx, x⟩, ⟨.ddy, y⟩], 0)
  | .sampleIndex r => do
    if !takesLod op (.sampleIndex r) then abort (.textureLod op (.sampleIndex r))
    let v ← evaluate source r
    return ([⟨.msIndex, v⟩], 0)
  | .component r => do
    if !takesLod op (.component r) then abort (.textureLod op (.component r))
    let component ← check (gatherComponent r)
    return ([], component)

end

def locationChain (source : Source.Program) : Rvalue → Lower Chain
  | .place p => placeChain source p
  | .constant l => constantChain l
  | r => abort (.noStorage r.kind r.type)

end ShaderSSA.Lowering
