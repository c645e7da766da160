import ShaderSSA.Text.Inspect
import ShaderSSA.Type.Basic

/-!
# Shader types, inspected
-/

namespace ShaderSSA

def SamplerType.inspect (s : SamplerType) : String :=
  Inspect.record "SamplerType" [("dim", s.dim.name), ("shadow", Inspect.bool s.shadow),
    ("array", Inspect.bool s.array), ("sampled", s.sampled.name)]

def ImageType.inspect (i : ImageType) : String :=
  Inspect.record "ImageType" [("dim", i.dim.name), ("array", Inspect.bool i.array),
    ("sampled", i.sampled.name)]

namespace ShaderType

mutual

def inspect : ShaderType → String
  | .void => "Void"
  | .numeric base rows columns =>
    Inspect.record "Numeric" [("base", base.name), ("vector_elements", toString rows),
      ("matrix_columns", toString columns)]
  | .array element length =>
    Inspect.record "Array" [("element", element.inspect), ("length", toString length)]
  | .struct name fields =>
    Inspect.record "Struct" [("name", Inspect.quoted name),
      ("fields", Inspect.list (inspectFields fields))]
  | .sampler s => Inspect.call "Sampler" [s.inspect]
  | .image i => Inspect.call "Image" [i.inspect]
  | .atomicUint => "AtomicUint"

def inspectFields : List (String × ShaderType) → List String
  | [] => []
  | (name, type) :: rest =>
    Inspect.record "StructField" [("name", Inspect.quoted name), ("ty", type.inspect)]
      :: inspectFields rest

end

end ShaderType

end ShaderSSA
