import ShaderSSA.Json.Reader

/-!
# Pipeline stages and their layout
-/

namespace ShaderSSA

open Json

inductive Stage where
  | vertex
  | tessCtrl
  | tessEval
  | geometry
  | fragment
  | compute
deriving DecidableEq

namespace Stage

def all : List Stage := [
  .vertex, .tessCtrl, .tessEval, .geometry, .fragment, .compute]

def name : Stage → String
  | .vertex => "Vertex"
  | .tessCtrl => "TessCtrl"
  | .tessEval => "TessEval"
  | .geometry => "Geometry"
  | .fragment => "Fragment"
  | .compute => "Compute"

def text : Stage → String
  | .vertex => "vertex"
  | .tessCtrl => "tess_ctrl"
  | .tessEval => "tess_eval"
  | .geometry => "geometry"
  | .fragment => "fragment"
  | .compute => "compute"

end Stage

inductive Primitive where
  | points
  | lines
  | linesAdjacency
  | triangles
  | trianglesAdjacency
  | lineStrip
  | triangleStrip
  | quads
  | isolines
deriving DecidableEq

namespace Primitive

def all : List Primitive := [
  .points, .lines, .linesAdjacency, .triangles, .trianglesAdjacency, .lineStrip, .triangleStrip,
  .quads, .isolines]

def name : Primitive → String
  | .points => "Points"
  | .lines => "Lines"
  | .linesAdjacency => "LinesAdjacency"
  | .triangles => "Triangles"
  | .trianglesAdjacency => "TrianglesAdjacency"
  | .lineStrip => "LineStrip"
  | .triangleStrip => "TriangleStrip"
  | .quads => "Quads"
  | .isolines => "Isolines"

end Primitive

inductive TessSpacing where
  | equal
  | fractionalOdd
  | fractionalEven
deriving DecidableEq

namespace TessSpacing

def all : List TessSpacing := [
  .equal, .fractionalOdd, .fractionalEven]

def name : TessSpacing → String
  | .equal => "Equal"
  | .fractionalOdd => "FractionalOdd"
  | .fractionalEven => "FractionalEven"

end TessSpacing

inductive DepthLayout where
  | none
  | any
  | greater
  | less
  | unchanged
deriving DecidableEq

namespace DepthLayout

def all : List DepthLayout := [
  .none, .any, .greater, .less, .unchanged]

def name : DepthLayout → String
  | .none => "None"
  | .any => "Any"
  | .greater => "Greater"
  | .less => "Less"
  | .unchanged => "Unchanged"

end DepthLayout

/-- What the layout qualifiers of a stage say. -/
inductive StageLayout where
  | vertex
  | tessCtrl (verticesOut : UInt32)
  | tessEval (primitiveMode : Primitive) (spacing : TessSpacing) (ccw pointMode : Bool)
  | geometry (verticesIn verticesOut invocations : UInt32) (inputPrimitive outputPrimitive : Primitive)
  | fragment (earlyTests : Bool) (depth : DepthLayout) (originUpperLeft : Bool)
  | compute (sizeX sizeY sizeZ : UInt32) (sharedSize : UInt32)
deriving DecidableEq

def StageLayout.stage : StageLayout → Stage
  | .vertex => .vertex
  | .tessCtrl _ => .tessCtrl
  | .tessEval .. => .tessEval
  | .geometry .. => .geometry
  | .fragment .. => .fragment
  | .compute .. => .compute

/-! ### JSON -/

def Stage.toJson (s : Stage) : Value := .string s.name

def Stage.reader : Reader Stage := .names all name

def Primitive.toJson (p : Primitive) : Value := .string p.name

def Primitive.reader : Reader Primitive := .names all name

def TessSpacing.toJson (s : TessSpacing) : Value := .string s.name

def TessSpacing.reader : Reader TessSpacing := .names all name

def DepthLayout.toJson (d : DepthLayout) : Value := .string d.name

def DepthLayout.reader : Reader DepthLayout := .names all name

namespace StageLayout

def toJson : StageLayout → Value
  | .vertex => .string "Vertex"
  | .tessCtrl verticesOut =>
    .variant "TessCtrl" (.object [("vertices_out", .nat verticesOut.toNat)])
  | .tessEval primitiveMode spacing ccw pointMode =>
    .variant "TessEval" (.object [("primitive_mode", primitiveMode.toJson),
      ("spacing", spacing.toJson), ("ccw", .bool ccw), ("point_mode", .bool pointMode)])
  | .geometry verticesIn verticesOut invocations inputPrimitive outputPrimitive =>
    .variant "Geometry" (.object [("vertices_in", .nat verticesIn.toNat),
      ("vertices_out", .nat verticesOut.toNat), ("invocations", .nat invocations.toNat),
      ("input_primitive", inputPrimitive.toJson), ("output_primitive", outputPrimitive.toJson)])
  | .fragment earlyTests depth originUpperLeft =>
    .variant "Fragment" (.object [("early_fragment_tests", .bool earlyTests),
      ("depth_layout", depth.toJson), ("origin_upper_left", .bool originUpperLeft)])
  | .compute sizeX sizeY sizeZ sharedSize =>
    .variant "Compute" (.object [
      ("local_size", .array [.nat sizeX.toNat, .nat sizeY.toNat, .nat sizeZ.toNat]),
      ("shared_size", .nat sharedSize.toNat)])

def sizeReader : Reader (UInt32 × UInt32 × UInt32) :=
  (Reader.tuple
    (.cons (.element .uint32) <| .cons (.element .uint32) <| .cons (.element .uint32) .nil)).map
    fun (x, y, z, ()) => (x, y, z)

def reader : Reader StageLayout :=
  .variants [
    .unit "Vertex" .vertex,
    .fields "StageLayout" "TessCtrl"
      (.cons (.required "vertices_out" .uint32) .nil)
      fun (verticesOut, ()) => .tessCtrl verticesOut,
    .fields "StageLayout" "TessEval"
      (.cons (.required "primitive_mode" Primitive.reader) <|
        .cons (.required "spacing" TessSpacing.reader) <|
        .cons (.required "ccw" .bool) <|
        .cons (.required "point_mode" .bool) .nil)
      fun (primitiveMode, spacing, ccw, pointMode, ()) =>
        .tessEval primitiveMode spacing ccw pointMode,
    .fields "StageLayout" "Geometry"
      (.cons (.required "vertices_in" .uint32) <|
        .cons (.required "vertices_out" .uint32) <|
        .cons (.required "invocations" .uint32) <|
        .cons (.required "input_primitive" Primitive.reader) <|
        .cons (.required "output_primitive" Primitive.reader) .nil)
      fun (verticesIn, verticesOut, invocations, inputPrimitive, outputPrimitive, ()) =>
        .geometry verticesIn verticesOut invocations inputPrimitive outputPrimitive,
    .fields "StageLayout" "Fragment"
      (.cons (.required "early_fragment_tests" .bool) <|
        .cons (.required "depth_layout" DepthLayout.reader) <|
        .cons (.required "origin_upper_left" .bool) .nil)
      fun (earlyTests, depth, originUpperLeft, ()) => .fragment earlyTests depth originUpperLeft,
    .fields "StageLayout" "Compute"
      (.cons (.required "local_size" sizeReader) <|
        .cons (.required "shared_size" .uint32) .nil)
      fun ((x, y, z), sharedSize, ()) => .compute x y z sharedSize]

end StageLayout

end ShaderSSA
