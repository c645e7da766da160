import ShaderSSA.Source.Tree
import ShaderSSA.Type.Json

/-!
# Source programs as JSON

`Program.toJson` writes a program and `Program.reader` reads it. The readers of trees are built level
by level: a tree of `n + 1` levels from readers of trees of `n` levels.
-/

namespace ShaderSSA

open Json

def ExprOp.toJson (op : ExprOp) : Value := .string op.name

def ExprOp.reader : Reader ExprOp := .names all name

def TextureOp.toJson (op : TextureOp) : Value := .string op.name

def TextureOp.reader : Reader TextureOp := .names all name

def IntrinsicId.toJson (id : IntrinsicId) : Value := .string id.name

def IntrinsicId.reader : Reader IntrinsicId := .names all name

def VarMode.toJson (m : VarMode) : Value := .string m.name

def VarMode.reader : Reader VarMode := .names all name

def Interpolation.toJson (i : Interpolation) : Value := .string i.name

def Interpolation.reader : Reader Interpolation := .names all name

def Builtin.toJson (b : Builtin) : Value := .string b.name

def Builtin.reader : Reader Builtin := .names all name

def LoopJump.toJson (j : LoopJump) : Value := .string j.name

def LoopJump.reader : Reader LoopJump := .names all name

namespace Source

def VarId.toJson (id : VarId) : Value := .nat id.index.toNat

def VarId.reader : Reader VarId := Reader.uint32.map VarId.mk

def SignatureId.toJson (id : SignatureId) : Value := .nat id.index.toNat

def SignatureId.reader : Reader SignatureId := Reader.uint32.map SignatureId.mk

/-! ### Literals -/

def Scalar.toJson : Scalar → Value
  | .u8 v => .variant "U8" (.nat v.toNat)
  | .i8 v => .variant "I8" (.int v.toInt)
  | .u16 v => .variant "U16" (.nat v.toNat)
  | .i16 v => .variant "I16" (.int v.toInt)
  | .u32 v => .variant "U32" (.nat v.toNat)
  | .i32 v => .variant "I32" (.int v.toInt)
  | .u64 v => .variant "U64" (.nat v.toNat)
  | .i64 v => .variant "I64" (.int v.toInt)
  | .f16 bits => .variant "F16" (.nat bits.toNat)
  | .f32 bits => .variant "F32" (.float32 bits)
  | .f64 bits => .variant "F64" (.float64 bits)
  | .bool v => .variant "Bool" (.bool v)

def Scalar.reader : Reader Scalar :=
  .variants [
    .single "U8" .uint8 .u8,
    .single "I8" .int8 .i8,
    .single "U16" .uint16 .u16,
    .single "I16" .int16 .i16,
    .single "U32" .uint32 .u32,
    .single "I32" .int32 .i32,
    .single "U64" .uint64 .u64,
    .single "I64" .int64 .i64,
    .single "F16" .uint16 .f16,
    .single "F32" .float32 .f32,
    .single "F64" .float64 .f64,
    .single "Bool" .bool .bool]

namespace Literal

mutual

def toJson : Literal → Value
  | .components type scalars =>
    .object [("ty", type.toJson),
      ("value", .variant "Components" (.list Scalar.toJson scalars))]
  | .aggregate type elements =>
    .object [("ty", type.toJson), ("value", .variant "Aggregate" (.array (listToJson elements)))]

def listToJson : List Literal → List Value
  | [] => []
  | l :: ls => l.toJson :: listToJson ls

end

def readerAt : Nat → Reader Literal
  | 0 => .tooDeep
  | levels + 1 =>
    let content : Reader (List Scalar ⊕ List Literal) :=
      .variants [
        .single "Components" (.list Scalar.reader) .inl,
        .single "Aggregate" (.list (readerAt levels)) .inr]
    (Reader.record "struct ConstantLit"
      (.cons (.required "ty" ShaderType.reader) <|
        .cons (.required "value" content) .nil)).map
      fun
        | (type, .inl scalars, ()) => .components type scalars
        | (type, .inr elements, ()) => .aggregate type elements

def reader : Reader Literal := readerAt (maxDepth + 1)

end Literal

/-! ### Values and places -/

mutual

def Rvalue.toJson : Rvalue → Value
  | .expression op type operands =>
    .variant "Expression" (.object [("op", op.toJson), ("ty", type.toJson),
      ("operands", .array (rvaluesToJson operands))])
  | .swizzle value lanes width =>
    .variant "Swizzle" (.object [("val", value.toJson), ("components", lanes.toJson),
      ("num_components", .nat width.toNat)])
  | .texture ⟨op, type, sampler, coordinate, projector, comparator, offset, lod⟩ =>
    .variant "Texture" (.object [("op", op.toJson), ("ty", type.toJson),
      ("sampler", sampler.toJson), ("coordinate", rvalueToJson? coordinate),
      ("projector", rvalueToJson? projector), ("shadow_comparator", rvalueToJson? comparator),
      ("offset", rvalueToJson? offset), ("lod_info", lod.toJson)])
  | .constant l => .variant "Constant" l.toJson
  | .place p => .variant "Deref" p.toJson

def rvaluesToJson : List Rvalue → List Value
  | [] => []
  | r :: rs => r.toJson :: rvaluesToJson rs

def rvalueToJson? : Option Rvalue → Value
  | none => .null
  | some r => r.toJson

def Place.toJson : Place → Value
  | .var id type => .variant "Variable" (.object [("var", id.toJson), ("ty", type.toJson)])
  | .field record index type =>
    .variant "Record" (.object [("record", record.toJson), ("field", .nat index.toNat),
      ("ty", type.toJson)])
  | .element array index type =>
    .variant "Array" (.object [("array", array.toJson), ("index", index.toJson),
      ("ty", type.toJson)])

def LodInfo.toJson : LodInfo → Value
  | .absent => .string "None"
  | .bias r => .variant "Bias" r.toJson
  | .lod r => .variant "Lod" r.toJson
  | .grad dpdx dpdy =>
    .variant "Grad" (.object [("dpdx", dpdx.toJson), ("dpdy", dpdy.toJson)])
  | .sampleIndex r => .variant "SampleIndex" r.toJson
  | .component r => .variant "Component" r.toJson

end

structure TreeReaders where
  rvalue : Reader Rvalue
  place : Reader Place

namespace TreeReaders

def lodInfo (readers : TreeReaders) : Reader LodInfo :=
  .variants [
    .unit "None" .absent,
    .single "Bias" readers.rvalue .bias,
    .single "Lod" readers.rvalue .lod,
    .fields "LodInfo" "Grad"
      (.cons (.required "dpdx" readers.rvalue) <|
        .cons (.required "dpdy" readers.rvalue) .nil)
      fun (dpdx, dpdy, ()) => .grad dpdx dpdy,
    .single "SampleIndex" readers.rvalue .sampleIndex,
    .single "Component" readers.rvalue .component]

def expression (readers : TreeReaders) : Reader Rvalue :=
  (Reader.record "struct Expression"
    (.cons (.required "op" ExprOp.reader) <|
      .cons (.required "ty" ShaderType.reader) <|
      .cons (.required "operands" (.list readers.rvalue)) .nil)).map
    fun (op, type, operands, ()) => .expression op type operands

def swizzle (readers : TreeReaders) : Reader Rvalue :=
  (Reader.record "struct Swizzle"
    (.cons (.required "val" readers.rvalue) <|
      .cons (.required "components" Lanes.reader) <|
      .cons (.required "num_components" .uint8) .nil)).map
    fun (value, lanes, width, ()) => .swizzle value lanes width

def texture (readers : TreeReaders) : Reader Texture :=
  (Reader.record "struct Texture"
    (.cons (.required "op" TextureOp.reader) <|
      .cons (.required "ty" ShaderType.reader) <|
      .cons (.required "sampler" readers.place) <|
      .cons (.optional "coordinate" readers.rvalue) <|
      .cons (.optional "projector" readers.rvalue) <|
      .cons (.optional "shadow_comparator" readers.rvalue) <|
      .cons (.optional "offset" readers.rvalue) <|
      .cons (.required "lod_info" readers.lodInfo) .nil)).map
    fun (op, type, sampler, coordinate, projector, comparator, offset, lod, ()) =>
      ⟨op, type, sampler, coordinate, projector, comparator, offset, lod⟩

def next (readers : TreeReaders) : TreeReaders where
  rvalue := .variants [
    .single "Expression" readers.expression id,
    .single "Swizzle" readers.swizzle id,
    .single "Texture" readers.texture .texture,
    .single "Constant" Literal.reader .constant,
    .single "Deref" readers.place .place]
  place := .variants [
    .fields "Deref" "Variable"
      (.cons (.required "var" VarId.reader) <|
        .cons (.required "ty" ShaderType.reader) .nil)
      fun (id, type, ()) => .var id type,
    .fields "Deref" "Record"
      (.cons (.required "record" readers.place) <|
        .cons (.required "field" .uint32) <|
        .cons (.required "ty" ShaderType.reader) .nil)
      fun (record, index, type, ()) => .field record index type,
    .fields "Deref" "Array"
      (.cons (.required "array" readers.place) <|
        .cons (.required "index" readers.rvalue) <|
        .cons (.required "ty" ShaderType.reader) .nil)
      fun (array, index, type, ()) => .element array index type]

def ofLevels : Nat → TreeReaders
  | 0 => ⟨.tooDeep, .tooDeep⟩
  | levels + 1 => (ofLevels levels).next

end TreeReaders

def treeReaders : TreeReaders := .ofLevels (maxDepth + 1)

def Rvalue.reader : Reader Rvalue := treeReaders.rvalue

def Place.reader : Reader Place := treeReaders.place

/-! ### Statements -/

def Call.toJson (c : Call) : Value :=
  .object [("callee", c.callee.toJson), ("actual_parameters", .list Rvalue.toJson c.parameters),
    ("return_deref", .option Place.toJson c.result)]

def Call.reader : Reader Call :=
  (Reader.record "struct Call"
    (.cons (.required "callee" SignatureId.reader) <|
      .cons (.required "actual_parameters" (.list Rvalue.reader)) <|
      .cons (.optional "return_deref" Place.reader) .nil)).map
    fun (callee, parameters, result, ()) => ⟨callee, parameters, result⟩

namespace Stmt

mutual

def toJson : Stmt → Value
  | .declare id => .variant "Variable" id.toJson
  | .function name signatures =>
    .variant "Function" (.object [("name", .string name),
      ("signatures", .list SignatureId.toJson signatures)])
  | .loop body => .variant "Loop" (.object [("body", .array (listToJson body))])
  | .branch condition thenBody elseBody =>
    .variant "If" (.object [("condition", condition.toJson),
      ("then_body", .array (listToJson thenBody)), ("else_body", .array (listToJson elseBody))])
  | .discard condition =>
    .variant "Discard" (.object [("condition", .option Rvalue.toJson condition)])
  | .jump j => .variant "LoopJump" j.toJson
  | .ret value => .variant "Return" (.object [("value", .option Rvalue.toJson value)])
  | .call c => .variant "Call" c.toJson
  | .assign target value mask condition =>
    .variant "Assignment" (.object [("lhs", target.toJson), ("rhs", value.toJson),
      ("write_mask", .nat mask.toNat), ("condition", .option Rvalue.toJson condition)])
  | .emitVertex stream => .variant "EmitVertex" (.object [("stream", stream.toJson)])
  | .endPrimitive stream => .variant "EndPrimitive" (.object [("stream", stream.toJson)])
  | .barrier => .string "Barrier"

def listToJson : List Stmt → List Value
  | [] => []
  | s :: ss => s.toJson :: listToJson ss

end

def readerAt : Nat → Reader Stmt
  | 0 => .tooDeep
  | levels + 1 =>
    let body : Reader (List Stmt) := .list (readerAt levels)
    .variants [
      .single "Variable" VarId.reader .declare,
      .fields "Node" "Function"
        (.cons (.required "name" .string) <|
          .cons (.required "signatures" (.list SignatureId.reader)) .nil)
        fun (name, signatures, ()) => .function name signatures,
      .fields "Node" "Loop"
        (.cons (.required "body" body) .nil)
        fun (body, ()) => .loop body,
      .fields "Node" "If"
        (.cons (.required "condition" Rvalue.reader) <|
          .cons (.required "then_body" body) <|
          .cons (.required "else_body" body) .nil)
        fun (condition, thenBody, elseBody, ()) => .branch condition thenBody elseBody,
      .fields "Node" "Discard"
        (.cons (.optional "condition" Rvalue.reader) .nil)
        fun (condition, ()) => .discard condition,
      .single "LoopJump" LoopJump.reader .jump,
      .fields "Node" "Return"
        (.cons (.optional "value" Rvalue.reader) .nil)
        fun (value, ()) => .ret value,
      .single "Call" Call.reader .call,
      .fields "Node" "Assignment"
        (.cons (.required "lhs" Place.reader) <|
          .cons (.required "rhs" Rvalue.reader) <|
          .cons (.required "write_mask" .uint8) <|
          .cons (.optional "condition" Rvalue.reader) .nil)
        fun (target, value, mask, condition, ()) => .assign target value mask condition,
      .fields "Node" "EmitVertex"
        (.cons (.required "stream" Rvalue.reader) .nil)
        fun (stream, ()) => .emitVertex stream,
      .fields "Node" "EndPrimitive"
        (.cons (.required "stream" Rvalue.reader) .nil)
        fun (stream, ()) => .endPrimitive stream,
      .unit "Barrier" .barrier]

def reader : Reader Stmt := readerAt (maxDepth + 1)

end Stmt

/-! ### Declarations -/

def VarDecl.toJson (d : VarDecl) : Value :=
  .object [("name", .string d.name), ("ty", d.type.toJson), ("mode", d.mode.toJson),
    ("location", .option (fun i => .int i.toInt) d.location),
    ("binding", .option (fun n => .nat n.toNat) d.binding),
    ("interpolation", .option Interpolation.toJson d.interpolation),
    ("read_only", .bool d.readOnly),
    ("constant_initializer", .option Literal.toJson d.initializer),
    ("builtin", .option Builtin.toJson d.builtin),
    ("interface_block", .option .string d.interfaceBlock),
    ("decl_site", .option Location.toJson d.site)]

def VarDecl.reader : Reader VarDecl :=
  (Reader.record "struct VarDecl"
    (.cons (.required "name" .string) <|
      .cons (.required "ty" ShaderType.reader) <|
      .cons (.required "mode" VarMode.reader) <|
      .cons (.defaultedOption "location" .int32) <|
      .cons (.defaultedOption "binding" .uint32) <|
      .cons (.defaultedOption "interpolation" Interpolation.reader) <|
      .cons (.defaulted "read_only" .bool false) <|
      .cons (.defaultedOption "constant_initializer" Literal.reader) <|
      .cons (.defaultedOption "builtin" Builtin.reader) <|
      .cons (.defaultedOption "interface_block" .string) <|
      .cons (.defaultedOption "decl_site" Location.reader) .nil)).map
    fun (name, type, mode, location, binding, interpolation, readOnly, initializer, builtin,
        interfaceBlock, site, ()) =>
      ⟨name, type, mode, location, binding, interpolation, readOnly, initializer, builtin,
        interfaceBlock, site⟩

def Signature.toJson (s : Signature) : Value :=
  .object [("function_name", .string s.name), ("return_type", s.returnType.toJson),
    ("parameters", .list VarId.toJson s.parameters), ("body", .list Stmt.toJson s.body),
    ("is_defined", .bool s.isDefined), ("intrinsic", .option IntrinsicId.toJson s.intrinsic),
    ("decl_site", .option Location.toJson s.site)]

def Signature.reader : Reader Signature :=
  (Reader.record "struct Signature"
    (.cons (.required "function_name" .string) <|
      .cons (.required "return_type" ShaderType.reader) <|
      .cons (.required "parameters" (.list VarId.reader)) <|
      .cons (.required "body" (.list Stmt.reader)) <|
      .cons (.required "is_defined" .bool) <|
      .cons (.defaultedOption "intrinsic" IntrinsicId.reader) <|
      .cons (.defaultedOption "decl_site" Location.reader) .nil)).map
    fun (name, returnType, parameters, body, isDefined, intrinsic, site, ()) =>
      ⟨name, returnType, parameters, body, isDefined, intrinsic, site⟩

def Program.toJson (p : Program) : Value :=
  .object [("name", .string p.name), ("layout", p.layout.toJson),
    ("variables", .ofArray VarDecl.toJson p.vars),
    ("signatures", .ofArray Signature.toJson p.signatures),
    ("instructions", .list Stmt.toJson p.statements)]

def Program.reader : Reader Program :=
  (Reader.record "struct SourceShader"
    (.cons (.required "name" .string) <|
      .cons (.required "layout" StageLayout.reader) <|
      .cons (.required "variables" (.array VarDecl.reader)) <|
      .cons (.required "signatures" (.array Signature.reader)) <|
      .cons (.required "instructions" (.list Stmt.reader)) .nil)).map
    fun (name, layout, vars, signatures, statements, ()) =>
      ⟨name, layout, vars, signatures, statements⟩

def Program.decode (text : String) : Except DecodeError Program := Json.decode Program.reader text

def Program.encode (p : Program) : String := p.toJson.pretty

end Source

end ShaderSSA
