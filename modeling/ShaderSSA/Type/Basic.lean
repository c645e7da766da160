/-!
# Shader types

The types that source and target programs share: a numeric type is a base type with a number of rows
and columns, aggregates nest, and opaque types carry the shape that texture and image accesses need.
-/

namespace ShaderSSA

inductive BaseType where
  | uint8
  | int8
  | uint16
  | int16
  | uint
  | int
  | uint64
  | int64
  | float16
  | float
  | double
  | bool
deriving DecidableEq

namespace BaseType

def all : List BaseType := [
  .uint8, .int8, .uint16, .int16, .uint, .int, .uint64, .int64, .float16, .float, .double, .bool]

def name : BaseType → String
  | .uint8 => "Uint8"
  | .int8 => "Int8"
  | .uint16 => "Uint16"
  | .int16 => "Int16"
  | .uint => "Uint"
  | .int => "Int"
  | .uint64 => "Uint64"
  | .int64 => "Int64"
  | .float16 => "Float16"
  | .float => "Float"
  | .double => "Double"
  | .bool => "Bool"

/-- Storage width of one component. Booleans are 32-bit words. -/
def bitSize : BaseType → UInt8
  | .uint8 | .int8 => 8
  | .uint16 | .int16 | .float16 => 16
  | .uint | .int | .float | .bool => 32
  | .uint64 | .int64 | .double => 64

def isFloat : BaseType → Bool
  | .float16 | .float | .double => true
  | _ => false

def isSignedInt : BaseType → Bool
  | .int8 | .int16 | .int | .int64 => true
  | _ => false

def isUnsignedInt : BaseType → Bool
  | .uint8 | .uint16 | .uint | .uint64 => true
  | _ => false

def isInteger (b : BaseType) : Bool := b.isSignedInt || b.isUnsignedInt

def isBoolean (b : BaseType) : Bool := b = .bool

def text : BaseType → String
  | .uint8 => "u8"
  | .int8 => "i8"
  | .uint16 => "u16"
  | .int16 => "i16"
  | .uint => "u32"
  | .int => "i32"
  | .uint64 => "u64"
  | .int64 => "i64"
  | .float16 => "f16"
  | .float => "f32"
  | .double => "f64"
  | .bool => "bool"

end BaseType

inductive SamplerDim where
  | dim1D
  | dim2D
  | dim3D
  | cube
  | rect
  | buf
  | external
  | ms
  | subpass
deriving DecidableEq

namespace SamplerDim

def all : List SamplerDim := [
  .dim1D, .dim2D, .dim3D, .cube, .rect, .buf, .external, .ms, .subpass]

def name : SamplerDim → String
  | .dim1D => "Dim1D"
  | .dim2D => "Dim2D"
  | .dim3D => "Dim3D"
  | .cube => "Cube"
  | .rect => "Rect"
  | .buf => "Buf"
  | .external => "External"
  | .ms => "Ms"
  | .subpass => "Subpass"

end SamplerDim

structure SamplerType where
  dim : SamplerDim
  shadow : Bool
  array : Bool
  sampled : BaseType
deriving DecidableEq

structure ImageType where
  dim : SamplerDim
  array : Bool
  sampled : BaseType
deriving DecidableEq

/-- Number of coordinate components an access uses. A cube array addresses its layers through the
face coordinate. -/
def ImageType.coordinateComponents (i : ImageType) : UInt8 :=
  let size := match i.dim with
    | .dim1D | .buf => 1
    | .dim2D | .rect | .external | .ms | .subpass => 2
    | .dim3D | .cube => 3
  if i.array ∧ i.dim ≠ .cube then size + 1 else size

inductive ShaderType where
  | void
  | numeric (base : BaseType) (rows columns : UInt8)
  | array (element : ShaderType) (length : UInt32)
  | struct (name : String) (fields : List (String × ShaderType))
  | sampler (s : SamplerType)
  | image (i : ImageType)
  | atomicUint

namespace ShaderType

mutual

def decEq : (a b : ShaderType) → Decidable (a = b)
  | .void, b => match b with
    | .void => isTrue rfl
    | .numeric .. | .array .. | .struct .. | .sampler _ | .image _ | .atomicUint =>
      isFalse (by intro h; cases h)
  | .numeric base rows columns, b => match b with
    | .numeric base' rows' columns' =>
      if h : base = base' ∧ rows = rows' ∧ columns = columns' then
        isTrue (by obtain ⟨h₁, h₂, h₃⟩ := h; rw [h₁, h₂, h₃])
      else isFalse (by intro e; cases e; exact h ⟨rfl, rfl, rfl⟩)
    | .void | .array .. | .struct .. | .sampler _ | .image _ | .atomicUint =>
      isFalse (by intro h; cases h)
  | .array element length, b => match b with
    | .array element' length' =>
      match decEq element element' with
      | isTrue h =>
        if h' : length = length' then isTrue (by rw [h, h'])
        else isFalse (by intro e; cases e; exact h' rfl)
      | isFalse h => isFalse (by intro e; cases e; exact h rfl)
    | .void | .numeric .. | .struct .. | .sampler _ | .image _ | .atomicUint =>
      isFalse (by intro h; cases h)
  | .struct name fields, b => match b with
    | .struct name' fields' =>
      match decEqFields fields fields' with
      | isTrue h =>
        if h' : name = name' then isTrue (by rw [h, h'])
        else isFalse (by intro e; cases e; exact h' rfl)
      | isFalse h => isFalse (by intro e; cases e; exact h rfl)
    | .void | .numeric .. | .array .. | .sampler _ | .image _ | .atomicUint =>
      isFalse (by intro h; cases h)
  | .sampler s, b => match b with
    | .sampler s' =>
      if h : s = s' then isTrue (by rw [h]) else isFalse (by intro e; cases e; exact h rfl)
    | .void | .numeric .. | .array .. | .struct .. | .image _ | .atomicUint =>
      isFalse (by intro h; cases h)
  | .image i, b => match b with
    | .image i' =>
      if h : i = i' then isTrue (by rw [h]) else isFalse (by intro e; cases e; exact h rfl)
    | .void | .numeric .. | .array .. | .struct .. | .sampler _ | .atomicUint =>
      isFalse (by intro h; cases h)
  | .atomicUint, b => match b with
    | .atomicUint => isTrue rfl
    | .void | .numeric .. | .array .. | .struct .. | .sampler _ | .image _ =>
      isFalse (by intro h; cases h)

def decEqFields : (a b : List (String × ShaderType)) → Decidable (a = b)
  | [], b => match b with
    | [] => isTrue rfl
    | _ :: _ => isFalse (by intro h; cases h)
  | (name, type) :: rest, b => match b with
    | [] => isFalse (by intro h; cases h)
    | (name', type') :: rest' =>
      match decEq type type', decEqFields rest rest' with
      | isTrue h, isTrue h' =>
        if h'' : name = name' then isTrue (by rw [h, h', h''])
        else isFalse (by intro e; cases e; exact h'' rfl)
      | isFalse h, _ => isFalse (by intro e; cases e; exact h rfl)
      | _, isFalse h => isFalse (by intro e; cases e; exact h rfl)

end

instance : DecidableEq ShaderType := decEq

def vector (base : BaseType) (rows : UInt8) : ShaderType := .numeric base rows 1

def scalar (base : BaseType) : ShaderType := vector base 1

def matrix (base : BaseType) (columns rows : UInt8) : ShaderType := .numeric base rows columns

def baseType? : ShaderType → Option BaseType
  | .numeric base _ _ => some base
  | .atomicUint => some .uint
  | _ => none

/-- Components per column; 0 for anything that is not numeric. -/
def rows : ShaderType → UInt8
  | .numeric _ rows _ => rows
  | .atomicUint => 1
  | _ => 0

def columns : ShaderType → UInt8
  | .numeric _ _ columns => columns
  | _ => 0

def bitSize (t : ShaderType) : UInt8 :=
  match t.baseType? with
  | some base => base.bitSize
  | none => 32

def isVoid : ShaderType → Bool
  | .void => true
  | _ => false

def isScalar : ShaderType → Bool
  | .numeric _ rows columns => rows = 1 && columns = 1
  | _ => false

def isVector : ShaderType → Bool
  | .numeric _ rows columns => 2 ≤ rows && rows ≤ 4 && columns = 1
  | _ => false

def isMatrix : ShaderType → Bool
  | .numeric _ _ columns => 2 ≤ columns && columns ≤ 4
  | _ => false

def isBoolean (t : ShaderType) : Bool := t.baseType? = some .bool && !t.isMatrix

def isArray : ShaderType → Bool
  | .array _ _ => true
  | _ => false

def isAggregate : ShaderType → Bool
  | .array _ _ | .struct _ _ => true
  | _ => false

def withoutArray : ShaderType → ShaderType
  | .array element _ => element.withoutArray
  | t => t

/-- Number of leaves when every array level is flattened, if each product fits a word. -/
def flattenedLength? : ShaderType → Option UInt32
  | .array element length =>
    match element.flattenedLength? with
    | none => none
    | some inner =>
      if length.toNat * inner.toNat < UInt32.size then some (length * inner) else none
  | _ => some 1

def field? (t : ShaderType) (index : UInt32) : Option ShaderType :=
  match t with
  | .struct _ fields => fields[index.toNat]?.map (·.2)
  | _ => none

/-- The type that indexing gives: an array's element, a matrix's column, a vector's component. -/
def indexResult? : ShaderType → Option ShaderType
  | .array element _ => some element
  | .numeric base rows columns =>
    if 1 < columns then some (vector base rows)
    else if 1 < rows then some (scalar base)
    else none
  | _ => none

def text : ShaderType → String
  | .void => "void"
  | .numeric base rows columns =>
    if columns = 1 then
      if rows = 1 then base.text else base.text ++ "vec" ++ toString rows
    else base.text ++ "mat" ++ toString columns ++ "x" ++ toString rows
  | .array element length => element.text ++ "[" ++ toString length ++ "]"
  | .struct name _ => "struct " ++ name
  | .sampler s => "sampler" ++ s.dim.name ++ (if s.shadow then "Shadow" else "")
  | .image i => "image" ++ i.dim.name
  | .atomicUint => "atomic_uint"

end ShaderType

end ShaderSSA
