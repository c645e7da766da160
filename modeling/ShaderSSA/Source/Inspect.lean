import ShaderSSA.Source.Tree
import ShaderSSA.Type.Inspect

/-!
# Source values, inspected
-/

namespace ShaderSSA.Source

def VarId.inspect (id : VarId) : String := Inspect.call "SourceVarId" [toString id.index]

def Scalar.inspect : Scalar → String
  | .u8 v => Inspect.call "U8" [toString v]
  | .i8 v => Inspect.call "I8" [toString v]
  | .u16 v => Inspect.call "U16" [toString v]
  | .i16 v => Inspect.call "I16" [toString v]
  | .u32 v => Inspect.call "U32" [toString v]
  | .i32 v => Inspect.call "I32" [toString v]
  | .u64 v => Inspect.call "U64" [toString v]
  | .i64 v => Inspect.call "I64" [toString v]
  | .f16 bits => Inspect.call "F16" [toString bits]
  | .f32 bits => Inspect.call "F32" [Inspect.float binary32 bits.toNat]
  | .f64 bits => Inspect.call "F64" [Inspect.float binary64 bits.toNat]
  | .bool v => Inspect.call "Bool" [Inspect.bool v]

namespace Literal

mutual

def inspect : Literal → String
  | .components type scalars =>
    Inspect.record "ConstantLit" [("ty", type.inspect),
      ("value", Inspect.call "Components" [Inspect.list (scalars.map Scalar.inspect)])]
  | .aggregate type elements =>
    Inspect.record "ConstantLit" [("ty", type.inspect),
      ("value", Inspect.call "Aggregate" [Inspect.list (inspectList elements)])]

def inspectList : List Literal → List String
  | [] => []
  | l :: ls => l.inspect :: inspectList ls

end

end Literal

mutual

def Rvalue.inspect : Rvalue → String
  | .expression op type operands =>
    Inspect.call "Expression" [Inspect.record "Expression" [("op", op.name), ("ty", type.inspect),
      ("operands", Inspect.list (inspectRvalues operands))]]
  | .swizzle value lanes width =>
    Inspect.call "Swizzle" [Inspect.record "Swizzle" [("val", value.inspect),
      ("components", lanes.inspect), ("num_components", toString width)]]
  | .texture ⟨op, type, sampler, coordinate, projector, comparator, offset, lod⟩ =>
    Inspect.call "Texture" [Inspect.record "Texture" [("op", op.name), ("ty", type.inspect),
      ("sampler", sampler.inspect), ("coordinate", inspectRvalue? coordinate),
      ("projector", inspectRvalue? projector), ("shadow_comparator", inspectRvalue? comparator),
      ("offset", inspectRvalue? offset), ("lod_info", lod.inspect)]]
  | .constant l => Inspect.call "Constant" [l.inspect]
  | .place p => Inspect.call "Deref" [p.inspect]

def inspectRvalues : List Rvalue → List String
  | [] => []
  | r :: rs => r.inspect :: inspectRvalues rs

def inspectRvalue? : Option Rvalue → String
  | none => Inspect.option none
  | some r => Inspect.option (some r.inspect)

def Place.inspect : Place → String
  | .var id type => Inspect.record "Variable" [("var", id.inspect), ("ty", type.inspect)]
  | .field record index type =>
    Inspect.record "Record" [("record", record.inspect), ("field", toString index),
      ("ty", type.inspect)]
  | .element array index type =>
    Inspect.record "Array" [("array", array.inspect), ("index", index.inspect),
      ("ty", type.inspect)]

def LodInfo.inspect : LodInfo → String
  | .absent => "None"
  | .bias r => Inspect.call "Bias" [r.inspect]
  | .lod r => Inspect.call "Lod" [r.inspect]
  | .grad dpdx dpdy => Inspect.record "Grad" [("dpdx", dpdx.inspect), ("dpdy", dpdy.inspect)]
  | .sampleIndex r => Inspect.call "SampleIndex" [r.inspect]
  | .component r => Inspect.call "Component" [r.inspect]

end

end ShaderSSA.Source
