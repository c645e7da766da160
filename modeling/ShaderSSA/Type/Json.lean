import ShaderSSA.Json.Reader
import ShaderSSA.Type.Basic

/-!
# Shader types as JSON
-/

namespace ShaderSSA

open Json

def BaseType.toJson (b : BaseType) : Value := .string b.name

def BaseType.reader : Reader BaseType := .names all name

def SamplerDim.toJson (d : SamplerDim) : Value := .string d.name

def SamplerDim.reader : Reader SamplerDim := .names all name

def SamplerType.toJson (s : SamplerType) : Value :=
  .object [("dim", s.dim.toJson), ("shadow", .bool s.shadow), ("array", .bool s.array),
    ("sampled", s.sampled.toJson)]

def SamplerType.reader : Reader SamplerType :=
  (Reader.record "struct SamplerType"
    (.cons (.required "dim" SamplerDim.reader) <|
      .cons (.required "shadow" .bool) <|
      .cons (.required "array" .bool) <|
      .cons (.required "sampled" BaseType.reader) .nil)).map
    fun (dim, shadow, array, sampled, ()) => ⟨dim, shadow, array, sampled⟩

def ImageType.toJson (i : ImageType) : Value :=
  .object [("dim", i.dim.toJson), ("array", .bool i.array), ("sampled", i.sampled.toJson)]

def ImageType.reader : Reader ImageType :=
  (Reader.record "struct ImageType"
    (.cons (.required "dim" SamplerDim.reader) <|
      .cons (.required "array" .bool) <|
      .cons (.required "sampled" BaseType.reader) .nil)).map
    fun (dim, array, sampled, ()) => ⟨dim, array, sampled⟩

namespace ShaderType

mutual

def toJson : ShaderType → Value
  | .void => .string "Void"
  | .numeric base rows columns =>
    .variant "Numeric" (.object [("base", base.toJson), ("vector_elements", .nat rows.toNat),
      ("matrix_columns", .nat columns.toNat)])
  | .array element length =>
    .variant "Array" (.object [("element", element.toJson), ("length", .nat length.toNat)])
  | .struct name fields =>
    .variant "Struct" (.object [("name", .string name), ("fields", .array (fieldsToJson fields))])
  | .sampler s => .variant "Sampler" s.toJson
  | .image i => .variant "Image" i.toJson
  | .atomicUint => .string "AtomicUint"

def fieldsToJson : List (String × ShaderType) → List Value
  | [] => []
  | (name, type) :: rest =>
    .object [("name", .string name), ("ty", type.toJson)] :: fieldsToJson rest

end

def readerAt : Nat → Reader ShaderType
  | 0 => .tooDeep
  | levels + 1 =>
    let type := readerAt levels
    let field : Reader (String × ShaderType) :=
      (Reader.record "struct StructField"
        (.cons (.required "name" .string) <|
          .cons (.required "ty" type) .nil)).map
        fun (name, type, ()) => (name, type)
    .variants [
      .unit "Void" .void,
      .fields "Type" "Numeric"
        (.cons (.required "base" BaseType.reader) <|
          .cons (.required "vector_elements" .uint8) <|
          .cons (.required "matrix_columns" .uint8) .nil)
        fun (base, rows, columns, ()) => .numeric base rows columns,
      .fields "Type" "Array"
        (.cons (.required "element" type) <|
          .cons (.required "length" .uint32) .nil)
        fun (element, length, ()) => .array element length,
      .fields "Type" "Struct"
        (.cons (.required "name" .string) <|
          .cons (.required "fields" (.list field)) .nil)
        fun (name, fields, ()) => .struct name fields,
      .single "Sampler" SamplerType.reader .sampler,
      .single "Image" ImageType.reader .image,
      .unit "AtomicUint" .atomicUint]

def reader : Reader ShaderType := readerAt (maxDepth + 1)

end ShaderType

end ShaderSSA
