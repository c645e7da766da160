import ShaderSSA.Source.Json
import ShaderSSA.Target.Program

/-!
# Target programs as JSON

`Program.encode` writes a target program and `Program.decode` reads it. The instruction limit is not
part of the text.
-/

namespace ShaderSSA.Target

open Json

def AluKind.toJson (k : AluKind) : Value := .string k.name

def AluKind.reader : Reader AluKind := .names all name

def AluType.toJson (t : AluType) : Value :=
  .object [("kind", t.kind.toJson), ("bit_size", .nat t.bitSize.toNat)]

def AluType.reader : Reader AluType :=
  (Reader.record "struct AluType"
    (.cons (.required "kind" AluKind.reader) <|
      .cons (.required "bit_size" .uint8) .nil)).map
    fun (kind, bitSize, ()) => ⟨kind, bitSize⟩

def RoundingMode.toJson (m : RoundingMode) : Value := .string m.name

def RoundingMode.reader : Reader RoundingMode := .names all name

def AluOp.toJson : AluOp → Value
  | .convert src dst rounding =>
    .variant "Convert" (.object [("src", src.toJson), ("dst", dst.toJson),
      ("rounding", rounding.toJson)])
  | op => .string op.name

def AluOp.reader : Reader AluOp :=
  let plain (ops : List AluOp) : List (Variant AluOp) := ops.map fun op => .unit op.name op
  .variants (plain moves ++
    [.fields "AluOp" "Convert"
      (.cons (.required "src" AluType.reader) <|
        .cons (.required "dst" AluType.reader) <|
        .cons (.required "rounding" RoundingMode.reader) .nil)
      fun (src, dst, rounding, ()) => .convert src dst rounding] ++
    plain computations)

def IntrinsicOp.toJson (op : IntrinsicOp) : Value := .string op.name

def IntrinsicOp.reader : Reader IntrinsicOp := .names all name

def TexSrcKind.toJson (k : TexSrcKind) : Value := .string k.name

def TexSrcKind.reader : Reader TexSrcKind := .names all name

def TexDestType.toJson (t : TexDestType) : Value := .string t.name

def TexDestType.reader : Reader TexDestType := .names all name

def JumpKind.toJson (k : JumpKind) : Value := .string k.name

def JumpKind.reader : Reader JumpKind := .names all name

def StorageClass.toJson (c : StorageClass) : Value := .string c.name

def StorageClass.reader : Reader StorageClass := .names all name

def InstId.toJson (id : InstId) : Value := .nat id.index.toNat

def InstId.reader : Reader InstId := Reader.uint32.map InstId.mk

def VarId.toJson (id : VarId) : Value := .nat id.index.toNat

def VarId.reader : Reader VarId := Reader.uint32.map VarId.mk

def FuncId.toJson (id : FuncId) : Value := .nat id.index.toNat

def FuncId.reader : Reader FuncId := Reader.uint32.map FuncId.mk

def ValueId.toJson (id : ValueId) : Value := .nat id.index.toNat

def ValueId.reader : Reader ValueId := Reader.uint32.map ValueId.mk

def LinkId.toJson (id : LinkId) : Value := .nat id.index.toNat

def LinkId.reader : Reader LinkId := Reader.uint32.map LinkId.mk

def ValueDef.toJson (v : ValueDef) : Value :=
  .object [("num_components", .nat v.width.toNat), ("bit_size", .nat v.bitSize.toNat),
    ("producer", v.producer.toJson)]

def ValueDef.reader : Reader ValueDef :=
  (Reader.record "struct SsaDef"
    (.cons (.required "num_components" .uint8) <|
      .cons (.required "bit_size" .uint8) <|
      .cons (.required "producer" InstId.reader) .nil)).map
    fun (width, bitSize, producer, ()) => ⟨width, bitSize, producer⟩

/-! ### Constants -/

def bitsToJson (bits : List UInt64) : Value := .list (fun b => .nat b.toNat) bits

namespace Constant

mutual

def toJson : Constant → Value
  | .numeric bitSize columns rows bits =>
    .variant "Numeric" (.object [("bit_size", .nat bitSize.toNat), ("columns", .nat columns.toNat),
      ("rows", .nat rows.toNat), ("bits", bitsToJson bits)])
  | .aggregate elements => .variant "Aggregate" (.array (listToJson elements))

def listToJson : List Constant → List Value
  | [] => []
  | c :: cs => c.toJson :: listToJson cs

end

def readerAt : Nat → Reader Constant
  | 0 => .tooDeep
  | levels + 1 =>
    .variants [
      .fields "Constant" "Numeric"
        (.cons (.required "bit_size" .uint8) <|
          .cons (.required "columns" .uint8) <|
          .cons (.required "rows" .uint8) <|
          .cons (.required "bits" (.list .uint64)) .nil)
        fun (bitSize, columns, rows, bits, ()) => .numeric bitSize columns rows bits,
      .single "Aggregate" (.list (readerAt levels)) .aggregate]

def reader : Reader Constant := readerAt (maxDepth + 1)

end Constant

/-! ### Access chains -/

def ArrayIndex.toJson : ArrayIndex → Value
  | .direct index => .variant "Direct" (.nat index.toNat)
  | .indirect value => .variant "Indirect" value.toJson

def ArrayIndex.reader : Reader ArrayIndex :=
  .variants [
    .single "Direct" .uint32 .direct,
    .single "Indirect" ValueId.reader .indirect]

def LinkKind.toJson : LinkKind → Value
  | .var id => .variant "Var" id.toJson
  | .struct index => .variant "Struct" (.object [("index", .nat index.toNat)])
  | .array index => .variant "Array" index.toJson

def LinkKind.reader : Reader LinkKind :=
  .variants [
    .single "Var" VarId.reader .var,
    .fields "DerefKind" "Struct"
      (.cons (.required "index" .uint32) .nil)
      fun (index, ()) => .struct index,
    .single "Array" ArrayIndex.reader .array]

def Link.toJson (l : Link) : Value :=
  .object [("kind", l.kind.toJson), ("ty", l.type.toJson), ("child", .option LinkId.toJson l.child)]

def Link.reader : Reader Link :=
  (Reader.record "struct DerefLink"
    (.cons (.required "kind" LinkKind.reader) <|
      .cons (.required "ty" ShaderType.reader) <|
      .cons (.optional "child" LinkId.reader) .nil)).map
    fun (kind, type, child, ()) => ⟨kind, type, child⟩

/-! ### Instructions -/

def Src.toJson : Src → Value
  | .ssa value => .variant "Ssa" value.toJson
  | .location head => .variant "Deref" head.toJson

def Src.reader : Reader Src :=
  .variants [
    .single "Ssa" ValueId.reader .ssa,
    .single "Deref" LinkId.reader .location]

def AluSrc.toJson (s : AluSrc) : Value :=
  .object [("value", s.value.toJson), ("swizzle", s.lanes.toJson)]

def AluSrc.reader : Reader AluSrc :=
  (Reader.record "struct AluSrc"
    (.cons (.required "value" ValueId.reader) <|
      .cons (.required "swizzle" Lanes.reader) .nil)).map
    fun (value, lanes, ()) => ⟨value, lanes⟩

def Indices.toJson (i : Indices) : Value :=
  .object [("num_components", .nat i.width.toNat),
    ("write_mask", .option (fun m => .nat m.toNat) i.writeMask),
    ("base", .option (fun b => .int b.toInt) i.base),
    ("stream_id", .option (fun s => .nat s.toNat) i.stream)]

def Indices.reader : Reader Indices :=
  (Reader.record "struct Indices"
    (.cons (.required "num_components" .uint8) <|
      .cons (.optional "write_mask" .uint8) <|
      .cons (.optional "base" .int32) <|
      .cons (.optional "stream_id" .uint32) .nil)).map
    fun (width, writeMask, base, stream, ()) => ⟨width, writeMask, base, stream⟩

def TexSrc.toJson (s : TexSrc) : Value :=
  .object [("kind", s.kind.toJson), ("value", s.value.toJson)]

def TexSrc.reader : Reader TexSrc :=
  (Reader.record "struct TexSrc"
    (.cons (.required "kind" TexSrcKind.reader) <|
      .cons (.required "value" ValueId.reader) .nil)).map
    fun (kind, value, ()) => ⟨kind, value⟩

def TexInstr.toJson (t : TexInstr) : Value :=
  .object [("op", t.op.toJson), ("sampler_dim", t.dim.toJson), ("is_array", .bool t.isArray),
    ("is_shadow", .bool t.isShadow), ("is_new_style_shadow", .bool t.isNewStyleShadow),
    ("dest_type", t.destType.toJson), ("texture", t.texture.toJson),
    ("coord_components", .nat t.coordinateWidth.toNat), ("component", .nat t.component.toNat),
    ("srcs", .list TexSrc.toJson t.srcs)]

def TexInstr.reader : Reader TexInstr :=
  (Reader.record "struct TexInstr"
    (.cons (.required "op" TextureOp.reader) <|
      .cons (.required "sampler_dim" SamplerDim.reader) <|
      .cons (.required "is_array" .bool) <|
      .cons (.required "is_shadow" .bool) <|
      .cons (.required "is_new_style_shadow" .bool) <|
      .cons (.required "dest_type" TexDestType.reader) <|
      .cons (.required "texture" LinkId.reader) <|
      .cons (.required "coord_components" .uint8) <|
      .cons (.required "component" .uint8) <|
      .cons (.required "srcs" (.list TexSrc.reader)) .nil)).map
    fun (op, dim, isArray, isShadow, isNewStyleShadow, destType, texture, coordinateWidth, component,
        srcs, ()) =>
      ⟨op, dim, isArray, isShadow, isNewStyleShadow, destType, texture, coordinateWidth, component,
        srcs⟩

namespace Operation

def toJson : Operation → Value
  | .alu op srcs =>
    .variant "Alu" (.object [("op", op.toJson), ("srcs", .list AluSrc.toJson srcs)])
  | .intrinsic op srcs indices =>
    .variant "Intrinsic" (.object [("op", op.toJson), ("srcs", .list Src.toJson srcs),
      ("indices", indices.toJson)])
  | .tex instr => .variant "Tex" instr.toJson
  | .call callee params result =>
    .variant "Call" (.object [("callee", callee.toJson), ("params", .list LinkId.toJson params),
      ("return_deref", .option LinkId.toJson result)])
  | .jump kind => .variant "Jump" kind.toJson
  | .undef => .string "Undef"
  | .loadConst bitSize bits =>
    .variant "LoadConst" (.object [("bit_size", .nat bitSize.toNat), ("bits", bitsToJson bits)])

def reader : Reader Operation :=
  .variants [
    .fields "InstrKind" "Alu"
      (.cons (.required "op" AluOp.reader) <|
        .cons (.required "srcs" (.list AluSrc.reader)) .nil)
      fun (op, srcs, ()) => .alu op srcs,
    .fields "InstrKind" "Intrinsic"
      (.cons (.required "op" IntrinsicOp.reader) <|
        .cons (.required "srcs" (.list Src.reader)) <|
        .cons (.required "indices" Indices.reader) .nil)
      fun (op, srcs, indices, ()) => .intrinsic op srcs indices,
    .single "Tex" TexInstr.reader .tex,
    .fields "InstrKind" "Call"
      (.cons (.required "callee" FuncId.reader) <|
        .cons (.required "params" (.list LinkId.reader)) <|
        .cons (.optional "return_deref" LinkId.reader) .nil)
      fun (callee, params, result, ()) => .call callee params result,
    .single "Jump" JumpKind.reader .jump,
    .unit "Undef" .undef,
    .fields "InstrKind" "LoadConst"
      (.cons (.required "bit_size" .uint8) <|
        .cons (.required "bits" (.list .uint64)) .nil)
      fun (bitSize, bits, ()) => .loadConst bitSize bits]

end Operation

def Instr.toJson (i : Instr) : Value :=
  .object [("kind", i.operation.toJson), ("dest", .option ValueId.toJson i.dest)]

def Instr.reader : Reader Instr :=
  (Reader.record "struct Instr"
    (.cons (.required "kind" Operation.reader) <|
      .cons (.optional "dest" ValueId.reader) .nil)).map
    fun (operation, dest, ()) => ⟨operation, dest⟩

/-! ### Functions -/

namespace Node

mutual

def toJson : Node → Value
  | .instr id => .variant "Instr" id.toJson
  | .branch condition thenBody elseBody =>
    .variant "If" (.object [("condition", condition.toJson),
      ("then_body", .array (listToJson thenBody)), ("else_body", .array (listToJson elseBody))])
  | .loop body => .variant "Loop" (.object [("body", .array (listToJson body))])

def listToJson : List Node → List Value
  | [] => []
  | n :: ns => n.toJson :: listToJson ns

end

def readerAt : Nat → Reader Node
  | 0 => .tooDeep
  | levels + 1 =>
    let body : Reader (List Node) := .list (readerAt levels)
    .variants [
      .single "Instr" InstId.reader .instr,
      .fields "CfNode" "If"
        (.cons (.required "condition" ValueId.reader) <|
          .cons (.required "then_body" body) <|
          .cons (.required "else_body" body) .nil)
        fun (condition, thenBody, elseBody, ()) => .branch condition thenBody elseBody,
      .fields "CfNode" "Loop"
        (.cons (.required "body" body) .nil)
        fun (body, ()) => .loop body]

def reader : Reader Node := readerAt (maxDepth + 1)

end Node

def Body.toJson (b : Body) : Value :=
  .object [("params", .ofArray VarId.toJson b.params),
    ("return_var", .option VarId.toJson b.returnVar),
    ("locals", .ofArray VarId.toJson b.locals), ("body", .array (Node.listToJson b.nodes))]

def Body.reader : Reader Body :=
  (Reader.record "struct FunctionImpl"
    (.cons (.required "params" (.array VarId.reader)) <|
      .cons (.optional "return_var" VarId.reader) <|
      .cons (.required "locals" (.array VarId.reader)) <|
      .cons (.required "body" (.list Node.reader)) .nil)).map
    fun (params, returnVar, locals, nodes, ()) => ⟨params, returnVar, locals, nodes⟩

def Function.toJson (f : Function) : Value :=
  .object [("name", .string f.name), ("impl_", .option Body.toJson f.body)]

def Function.reader : Reader Function :=
  (Reader.record "struct Function"
    (.cons (.required "name" .string) <|
      .cons (.optional "impl_" Body.reader) .nil)).map
    fun (name, body, ()) => ⟨name, body⟩

def Variable.toJson (v : Variable) : Value :=
  .object [("name", .string v.name), ("ty", v.type.toJson), ("class", v.storage.toJson),
    ("location", .option (fun i => .int i.toInt) v.location),
    ("binding", .option (fun n => .nat n.toNat) v.binding),
    ("interpolation", .option Interpolation.toJson v.interpolation),
    ("read_only", .bool v.readOnly), ("compact", .bool v.compact),
    ("builtin", .option Builtin.toJson v.builtin),
    ("interface_block", .option .string v.interfaceBlock),
    ("constant_initializer", .option Constant.toJson v.initializer),
    ("owner", .option FuncId.toJson v.owner)]

def Variable.reader : Reader Variable :=
  (Reader.record "struct Variable"
    (.cons (.required "name" .string) <|
      .cons (.required "ty" ShaderType.reader) <|
      .cons (.required "class" StorageClass.reader) <|
      .cons (.optional "location" .int32) <|
      .cons (.optional "binding" .uint32) <|
      .cons (.optional "interpolation" Interpolation.reader) <|
      .cons (.required "read_only" .bool) <|
      .cons (.required "compact" .bool) <|
      .cons (.optional "builtin" Builtin.reader) <|
      .cons (.optional "interface_block" .string) <|
      .cons (.optional "constant_initializer" Constant.reader) <|
      .cons (.optional "owner" FuncId.reader) .nil)).map
    fun (name, type, storage, location, binding, interpolation, readOnly, compact, builtin,
        interfaceBlock, initializer, owner, ()) =>
      ⟨name, type, storage, location, binding, interpolation, readOnly, compact, builtin,
        interfaceBlock, initializer, owner⟩

def Info.toJson (i : Info) : Value :=
  .object [("name", .string i.name), ("stage", i.stage.toJson),
    ("entry_point", .option .string i.entryPoint), ("num_textures", .nat i.textures.toNat),
    ("num_images", .nat i.images.toNat), ("num_ubos", .nat i.uniformBuffers.toNat),
    ("num_ssbos", .nat i.storageBuffers.toNat), ("num_abos", .nat i.atomicCounters.toNat),
    ("clip_distance_array_size", .nat i.clipDistances.toNat),
    ("cull_distance_array_size", .nat i.cullDistances.toNat),
    ("uses_discard", .bool i.usesDiscard), ("layout", i.layout.toJson)]

def Info.reader : Reader Info :=
  (Reader.record "struct ShaderInfo"
    (.cons (.required "name" .string) <|
      .cons (.required "stage" Stage.reader) <|
      .cons (.optional "entry_point" .string) <|
      .cons (.required "num_textures" .uint32) <|
      .cons (.required "num_images" .uint32) <|
      .cons (.required "num_ubos" .uint32) <|
      .cons (.required "num_ssbos" .uint32) <|
      .cons (.required "num_abos" .uint32) <|
      .cons (.required "clip_distance_array_size" .uint32) <|
      .cons (.required "cull_distance_array_size" .uint32) <|
      .cons (.required "uses_discard" .bool) <|
      .cons (.required "layout" StageLayout.reader) .nil)).map
    fun (name, stage, entryPoint, textures, images, uniformBuffers, storageBuffers, atomicCounters,
        clipDistances, cullDistances, usesDiscard, layout, ()) =>
      ⟨name, stage, entryPoint, textures, images, uniformBuffers, storageBuffers, atomicCounters,
        clipDistances, cullDistances, usesDiscard, layout⟩

namespace Program

def toJson (p : Program) : Value :=
  .object [("info", p.info.toJson), ("globals", .ofArray VarId.toJson p.globals),
    ("functions", .ofArray Function.toJson p.functions),
    ("variables", .ofArray Variable.toJson p.vars),
    ("instrs", .ofArray Instr.toJson p.instrs), ("values", .ofArray ValueDef.toJson p.values),
    ("derefs", .object [("links", .ofArray Link.toJson p.links)])]

def linksReader : Reader (Array Link) :=
  (Reader.record "struct DerefArena"
    (.cons (.required "links" (.array Link.reader)) .nil)).map
    fun (links, ()) => links

def reader : Reader Program :=
  (Reader.record "struct Shader"
    (.cons (.required "info" Info.reader) <|
      .cons (.required "globals" (.array VarId.reader)) <|
      .cons (.required "functions" (.array Function.reader)) <|
      .cons (.required "variables" (.array Variable.reader)) <|
      .cons (.required "instrs" (.array Instr.reader)) <|
      .cons (.required "values" (.array ValueDef.reader)) <|
      .cons (.required "derefs" linksReader) .nil)).map
    fun (info, globals, functions, vars, instrs, values, links, ()) =>
      ⟨info, globals, functions, vars, instrs, values, links, none⟩

def decode (text : String) : Except DecodeError Program := Json.decode reader text

def encode (p : Program) : String := p.toJson.pretty

end Program

end ShaderSSA.Target
