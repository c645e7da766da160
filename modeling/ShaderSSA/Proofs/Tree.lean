import ShaderSSA.Lowering.Value
import ShaderSSA.Proofs.Visible

/-!
Values as trees. `unfold` reads a value of a target program back as a tree, by way of the instructions
that produce it and the chains that these name. `Rvalue.tree` gives the tree of a source value from the
value alone and what is known of the variables in scope.
-/

namespace ShaderSSA

namespace Target

mutual

/-- A value by its producer: the operation, whose handles are blank, and what they stand for, in order. -/
inductive ValueTree where
  | node (width bitSize : UInt8) (operation : Operation) (values : List ValueTree)
    (places : List (List Segment))

/-- A link of a chain. The root of a constant shows the constant. -/
inductive Segment where
  | var (id : VarId)
  | constant (c : Constant)
  | field (index : UInt32)
  | direct (index : UInt32)
  | indirect (index : ValueTree)

end

namespace ValueTree

def width : ValueTree → UInt8
  | .node width _ _ _ _ => width

def bitSize : ValueTree → UInt8
  | .node _ bitSize _ _ _ => bitSize

end ValueTree

/-- The operation with every value and location handle blank. -/
def Operation.blank : Operation → Operation
  | .alu op srcs => .alu op (srcs.map fun s => ⟨⟨0⟩, s.lanes⟩)
  | .intrinsic op srcs indices =>
    .intrinsic op (srcs.map fun | .ssa _ => .ssa ⟨0⟩ | .location _ => .location ⟨0⟩) indices
  | .tex t => .tex { t with texture := ⟨0⟩, srcs := t.srcs.map fun s => ⟨s.kind, ⟨0⟩⟩ }
  | .call callee params result => .call callee (params.map fun _ => ⟨0⟩) (result.map fun _ => ⟨0⟩)
  | .jump kind => .jump kind
  | .undef => .undef
  | .loadConst bitSize bits => .loadConst bitSize bits

namespace Program

/-- A link read back. Variables from number `minted` on stand for constants. -/
def segment (p : Program) (minted : Nat) (tree : ValueId → Option ValueTree) : LinkKind → Option Segment
  | .var id =>
    if id.index.toNat < minted then some (.var id)
    else ((p.var? id).bind Variable.initializer).map .constant
  | .struct index => some (.field index)
  | .array (.direct index) => some (.direct index)
  | .array (.indirect v) => (tree v).map .indirect

/-- Read a value back as a tree, at most `fuel` producers deep. -/
def unfold (p : Program) (minted : Nat) : Nat → ValueId → Option ValueTree
  | 0, _ => none
  | fuel + 1, v => do
    let shape ← p.value? v
    let producer ← p.instr? shape.producer
    let values ← producer.operation.values.mapM (p.unfold minted fuel)
    let chains ← p.chains? producer.operation
    let places ← chains.mapM fun kinds => kinds.mapM (p.segment minted (p.unfold minted fuel))
    return .node shape.width shape.bitSize producer.operation.blank values places

theorem unfold_shape {p : Program} {minted fuel : Nat} {v : ValueId} {t : ValueTree}
    (h : p.unfold minted fuel v = some t) :
    ∃ shape, p.value? v = some shape ∧ shape.width = t.width ∧ shape.bitSize = t.bitSize := by
  cases fuel with
  | zero => simp [unfold] at h
  | succ fuel =>
    simp only [unfold, Option.bind_eq_bind, Option.pure_def, Option.bind_eq_some_iff,
      Option.some.injEq] at h
    obtain ⟨shape, found, _, -, _, -, _, -, _, -, rfl⟩ := h
    exact ⟨shape, found, rfl, rfl⟩

end Program

end Target

namespace Lowering
open Source Target

/-- What lowering knows of variables: what they are bound to, and the storage class of each target
variable. -/
structure Env where
  bindings : Array (Option Target.VarId)
  storage : Array StorageClass
  nativeIntegers : Bool

def State.env (s : State) : Env where
  bindings := s.scope.vars
  storage := s.program.vars.map Variable.storage
  nativeIntegers := s.scope.nativeIntegers

/-- The path starts in buffer memory. -/
def Env.inBuffer (env : Env) : List Segment → Bool
  | .var id :: _ => env.storage[id.index.toNat]?.any StorageClass.isBuffer
  | _ => false

end Lowering

namespace Target.ValueTree
open Lowering

def alu (width bitSize : UInt8) (op : AluOp) (srcs : List (ValueTree × Lanes)) : ValueTree :=
  .node width bitSize (.alu op (srcs.map fun s => ⟨⟨0⟩, s.2⟩)) (srcs.map Prod.fst) []

/-- A tree read componentwise; further lanes repeat its last component. -/
def spread (t : ValueTree) : ValueTree × Lanes :=
  (t, .ofFn fun i => UInt8.ofNat (min i (t.width.toNat - 1)))

def first (t : ValueTree) : ValueTree × Lanes := (t, .all 0)

def intrinsic (width bitSize : UInt8) (op : IntrinsicOp) (indices : Indices) (places : List (List Segment))
    (values : List ValueTree) : ValueTree :=
  .node width bitSize
    (.intrinsic op (places.map (fun _ => .location ⟨0⟩) ++ values.map fun _ => .ssa ⟨0⟩) indices) values places

def zero : ValueTree := .node 1 32 (.loadConst 32 [0]) [] []

def nonzero (t : ValueTree) : ValueTree := alu t.width 32 .ine [t.spread, zero.first]

/-- A boolean from buffer memory is compared with zero. -/
def loaded (raw : Bool) (t : ValueTree) : ValueTree := if raw then t.nonzero else t

def load (env : Env) (type : ShaderType) (place : List Segment) : ValueTree :=
  loaded (env.inBuffer place && type.isBoolean)
    (intrinsic type.rows (valueBits env.nativeIntegers type) .loadDeref { width := type.rows } [place] [])

def selected (env : Env) (lanes : Lanes) (width : UInt8) (t : ValueTree) : ValueTree :=
  if width = t.width && lanes.isIdentity width then t
  else alu width t.bitSize (moveOp env.nativeIntegers) [(t, lanes)]

def converted (env : Env) (src dst : ShaderType) (t : ValueTree) : Option ValueTree := do
  let srcBase ← src.baseType?
  let dstBase ← dst.baseType?
  if env.nativeIntegers then
    return alu dst.rows (valueBits true dst) (conversionOp (aluType srcBase) (aluType dstBase)) [t.spread]
  else if dstBase.isBoolean then return alu dst.rows 32 .sne [t.spread, zero.first]
  else return alu dst.rows 32 (if srcBase.isFloat && dstBase.isInteger then .ftrunc else .fmov) [t.spread]

/-- The operands in the order that the opcode takes them: greater and less-or-equal exchange the first
two. -/
def exchange (op : ExprOp) (trees : List ValueTree) : List ValueTree :=
  match op, trees with
  | .greater, a :: b :: rest | .lequal, a :: b :: rest => b :: a :: rest
  | _, trees => trees

def computed (env : Env) (op : ExprOp) (type : ShaderType) (types : List ShaderType)
    (trees : List ValueTree) : Option ValueTree := do
  let output ← type.baseType?
  let selection : Selection :=
    { nativeIntegers := env.nativeIntegers
      input := (types.head?.bind ShaderType.baseType?).getD output
      output
      width := (types.head?.map ShaderType.rows).getD 1
      arity := types.length }
  let opcode ← (selection.opcode op).toOption
  return alu type.rows (valueBits env.nativeIntegers type) opcode
    ((exchange op trees).map fun t => if op = .vector then t.first else t.spread)

end Target.ValueTree

namespace Source
open Target Lowering

variable {env : Env} {i : IntrinsicOp} {op : ExprOp}

def Place.root : Place → VarId
  | .var id _ => id
  | .field record _ _ => record.root
  | .element array _ _ => array.root

mutual

def Rvalue.tree (env : Env) : Rvalue → Option ValueTree
  | .place p => (p.path env).map (.load env p.type)
  | .constant l =>
    (constantOf env.nativeIntegers l).toOption.map fun c => .load env l.type [.constant c]
  | .swizzle value lanes width => (value.tree env).map (.selected env lanes width)
  | .texture t => t.tree env
  | .expression op type operands =>
    let bits := valueBits env.nativeIntegers type
    match op with
    | .uboLoad => do
      let block ← operandTree env 0 operands
      let offset ← operandTree env 1 operands
      return .loaded type.isBoolean
        (.intrinsic type.rows bits .loadUbo { width := type.rows } [] [block, offset])
    | .getBufferSize => do return .intrinsic 1 32 .getBufferSize {} [] [← operandTree env 0 operands]
    | .interpolateAtCentroid => do
      let place ← interpolantPath env operands
      return .intrinsic type.rows bits .interpDerefAtCentroid { width := type.rows } [place] []
    | .interpolateAtOffset => do
      let place ← interpolantPath env operands
      let offset ← operandTree env 1 operands
      return .intrinsic type.rows bits .interpDerefAtOffset { width := type.rows } [place] [offset]
    | .interpolateAtSample => do
      let place ← interpolantPath env operands
      let sample ← operandTree env 1 operands
      return .intrinsic type.rows bits .interpDerefAtSample { width := type.rows } [place] [sample]
    | op => do
      let types := operands.map Rvalue.type
      let trees ← treesOf env operands
      if op = .convert then (← trees.head?).converted env (← types.head?) type
      else ValueTree.computed env op type types trees

def treesOf (env : Env) : List Rvalue → Option (List ValueTree)
  | [] => some []
  | r :: rs => do return (← r.tree env) :: (← treesOf env rs)

def operandTree (env : Env) : Nat → List Rvalue → Option ValueTree
  | _, [] => none
  | 0, r :: _ => r.tree env
  | number + 1, _ :: rs => operandTree env number rs

def interpolantPath (env : Env) : List Rvalue → Option (List Segment)
  | .place p :: _ => p.path env
  | _ => none

def Place.path (env : Env) : Place → Option (List Segment)
  | .var id _ => env.bindings[id.index.toNat]?.join.map fun v => [.var v]
  | .field record index _ => (record.path env).map fun path => path ++ [.field index]
  | .element array index _ => do
    let path ← array.path env
    match index with
    | .constant l => return path ++ [.direct (← l.word?)]
    | index => return path ++ [.indirect (← index.tree env)]

def Texture.tree (env : Env) : Texture → Option ValueTree
  | ⟨op, type, sampler, coordinate, projector, comparator, offset, lod⟩ => do
    let samplerType ← (samplerOf op sampler.type).toOption
    let destType ← (textureDest op type).toOption
    let texture ← sampler.path env
    let coordinates ← sourceTrees env .coord coordinate
    let projectors ← sourceTrees env .projector projector
    let comparators ← sourceTrees env .comparator comparator
    let offsets ← sourceTrees env .offset offset
    let (details, component) ← lod.trees env
    let srcs := coordinates ++ projectors ++ comparators ++ offsets ++ details
    let isNewStyleShadow := samplerType.shadow && type.rows = 1
    return .node (textureWidth op type isNewStyleShadow) 32
      (.tex
        { op
          dim := samplerType.dim
          isArray := samplerType.array
          isShadow := samplerType.shadow
          isNewStyleShadow
          destType
          texture := ⟨0⟩
          coordinateWidth := (coordinate.map fun c => c.type.rows).getD 0
          component
          srcs := srcs.map fun s => ⟨s.1, ⟨0⟩⟩ })
      (srcs.map Prod.snd) [texture]

def sourceTrees (env : Env) (kind : TexSrcKind) : Option Rvalue → Option (List (TexSrcKind × ValueTree))
  | none => some []
  | some r => do return [(kind, ← r.tree env)]

def LodInfo.trees (env : Env) : LodInfo → Option (List (TexSrcKind × ValueTree) × UInt8)
  | .absent => some ([], 0)
  | .bias r => do return ([(.bias, ← r.tree env)], 0)
  | .lod r => do return ([(.lod, ← r.tree env)], 0)
  | .grad dpdx dpdy => do return ([(.ddx, ← dpdx.tree env), (.ddy, ← dpdy.tree env)], 0)
  | .sampleIndex r => do return ([(.msIndex, ← r.tree env)], 0)
  | .component r => do return ([], ← (gatherComponent r).toOption)

end

def Rvalue.location? (env : Env) : Rvalue → Option (List Segment)
  | .place p => p.path env
  | .constant l => (constantOf env.nativeIntegers l).toOption.map fun c => [.constant c]
  | _ => none

theorem interpolation?_eq_some (h : interpolation? op = some i) :
    op = .interpolateAtCentroid ∧ i = .interpDerefAtCentroid ∨
      op = .interpolateAtOffset ∧ i = .interpDerefAtOffset ∨
      op = .interpolateAtSample ∧ i = .interpDerefAtSample := by
  unfold interpolation? at h
  split at h <;> simp_all

theorem Rvalue.tree_interpolation (h : interpolation? op = some i) (type : ShaderType) (operands : List Rvalue) :
    Rvalue.tree env (.expression op type operands) = (interpolantPath env operands).bind fun place =>
      (if op = .interpolateAtCentroid then some [] else (operandTree env 1 operands).map ([·])).map
        fun values =>
          .intrinsic type.rows (valueBits env.nativeIntegers type) i { width := type.rows } [place] values := by
  rcases interpolation?_eq_some h with ⟨rfl, rfl⟩ | ⟨rfl, rfl⟩ | ⟨rfl, rfl⟩
  all_goals simp [Rvalue.tree, Option.map_eq_bind, Option.bind_assoc]

theorem Rvalue.tree_operator (load : op ≠ .uboLoad) (size : op ≠ .getBufferSize) (h : interpolation? op = none)
    (type : ShaderType) (operands : List Rvalue) :
    Rvalue.tree env (.expression op type operands) = (treesOf env operands).bind fun trees =>
      if op = .convert then trees.head?.bind fun t =>
        (operands.map Rvalue.type).head?.bind fun src => t.converted env src type
      else ValueTree.computed env op type (operands.map Rvalue.type) trees := by
  cases op <;> first | rfl | simp_all [interpolation?]

end Source

end ShaderSSA
