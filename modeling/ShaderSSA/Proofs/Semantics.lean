import ShaderSSA.Proofs.Copies
import ShaderSSA.Proofs.WellFormed

/-!
The meaning of integer and boolean values. A component is a 32-bit integer or a truth value, a value is a
list of components, and a variable holds a tree of such lists. A scalar operand stands for a vector in the
operators that work on each component by itself.
-/

namespace ShaderSSA

/-- What storage holds: the components of a vector, or the columns, elements or fields of something larger. -/
inductive Stored (α : Type) where
  | vector (components : List α)
  | parts (parts : List (Stored α))

namespace Stored
variable {α β : Type}

def components? : Stored α → Option (List α)
  | .vector components => some components
  | .parts _ => none

def part? : Stored α → Nat → Option (Stored α)
  | .vector components, i => components[i]?.map fun c => .vector [c]
  | .parts ps, i => ps[i]?

mutual

def map (f : α → β) : Stored α → Stored β
  | .vector components => .vector (components.map f)
  | .parts ps => .parts (mapAll f ps)

def mapAll (f : α → β) : List (Stored α) → List (Stored β)
  | [] => []
  | c :: cs => c.map f :: mapAll f cs

end

theorem mapAll_eq (f : α → β) (cs : List (Stored α)) : mapAll f cs = cs.map (map f) := by
  induction cs with
  | nil => rw [mapAll, List.map_nil]
  | cons c cs ih => rw [mapAll, ih, List.map_cons]

theorem part?_map (f : α → β) (c : Stored α) (i : Nat) : (c.map f).part? i = (c.part? i).map (map f) := by
  cases c with
  | vector components => simp [map, part?, Function.comp_def]
  | parts ps => simp [map, part?, mapAll_eq]

end Stored

def BaseType.isInt32 : BaseType → Bool
  | .int | .uint => true
  | _ => false

/-- Components that are one word: 32-bit integers and booleans. -/
def BaseType.isWord (base : BaseType) : Bool := base.isInt32 || base = .bool

/-- A scalar or vector of 32-bit integers or booleans. -/
def ShaderType.isWords (type : ShaderType) : Bool := type.isValue && type.baseType?.any BaseType.isWord

namespace Source

inductive Datum where
  | int (v : Int32)
  | uint (v : UInt32)
  | bool (v : Bool)
deriving DecidableEq

namespace Datum

def base : Datum → BaseType
  | .int _ => .int
  | .uint _ => .uint
  | .bool _ => .bool

def truth (v : Bool) : UInt32 := if v then 0xffffffff else 0

def word : Datum → UInt32
  | .int v => v.toUInt32
  | .uint v => v
  | .bool v => truth v

def integer (signed : Int32 → Int32) (unsigned : UInt32 → UInt32) : List Datum → Option Datum
  | [.int a] => some (.int (signed a))
  | [.uint a] => some (.uint (unsigned a))
  | _ => none

def integers (signed : Int32 → Int32 → Int32) (unsigned : UInt32 → UInt32 → UInt32) : List Datum → Option Datum
  | [.int a, .int b] => some (.int (signed a b))
  | [.uint a, .uint b] => some (.uint (unsigned a b))
  | _ => none

def ordered (signed : Int32 → Int32 → Bool) (unsigned : UInt32 → UInt32 → Bool) : List Datum → Option Datum
  | [.int a, .int b] => some (.bool (signed a b))
  | [.uint a, .uint b] => some (.bool (unsigned a b))
  | _ => none

def truths (f : Bool → Bool → Bool) : List Datum → Option Datum
  | [.bool a, .bool b] => some (.bool (f a b))
  | _ => none

def negated : List Datum → Option Datum
  | [.bool a] => some (.bool !a)
  | _ => none

def equals (expected : Bool) : List Datum → Option Datum
  | [a, b] => if a.base = b.base then some (.bool (decide (a = b) == expected)) else none
  | _ => none

def selected : List Datum → Option Datum
  | [.bool c, a, b] => some (if c then a else b)
  | _ => none

end Datum

end Source

open Source

/-- How the operators that work on each component by itself treat the types of their operands. -/
inductive OperatorForm where
  | integer
  | integers
  | ordered
  | truths
  | negated
  | equals
  | selected

def OperatorForm.arity : OperatorForm → Nat
  | .integer | .negated => 1
  | .integers | .ordered | .truths | .equals => 2
  | .selected => 3

def OperatorForm.result? : OperatorForm → List BaseType → Option BaseType
  | .integer, [a] => if a.isInt32 then some a else none
  | .integers, [a, b] => if a.isInt32 && a = b then some a else none
  | .ordered, [a, b] => if a.isInt32 && a = b then some .bool else none
  | .truths, [.bool, .bool] => some .bool
  | .negated, [.bool] => some .bool
  | .equals, [a, b] => if a.isWord && a = b then some .bool else none
  | .selected, [.bool, a, b] => if a.isWord && a = b then some a else none
  | _, _ => none

namespace ExprOp

def form? : ExprOp → Option OperatorForm
  | .neg | .bitNot => some .integer
  | .add | .sub | .mul | .min | .max | .bitAnd | .bitOr | .bitXor => some .integers
  | .less | .greater | .lequal | .gequal => some .ordered
  | .logicAnd | .logicOr | .logicXor => some .truths
  | .logicNot => some .negated
  | .equal | .nequal => some .equals
  | .csel => some .selected
  | _ => none

/-- What an operator makes of one component of each operand. Integers wrap around. -/
def apply : ExprOp → List Datum → Option Datum
  | .neg => Datum.integer (- ·) (- ·)
  | .bitNot => Datum.integer (~~~ ·) (~~~ ·)
  | .add => Datum.integers (· + ·) (· + ·)
  | .sub => Datum.integers (· - ·) (· - ·)
  | .mul => Datum.integers (· * ·) (· * ·)
  | .min => Datum.integers Min.min Min.min
  | .max => Datum.integers Max.max Max.max
  | .bitAnd => Datum.integers (· &&& ·) (· &&& ·)
  | .bitOr => Datum.integers (· ||| ·) (· ||| ·)
  | .bitXor => Datum.integers (· ^^^ ·) (· ^^^ ·)
  | .less => Datum.ordered (fun a b => a < b) (fun a b => a < b)
  | .greater => Datum.ordered (fun a b => a > b) (fun a b => a > b)
  | .lequal => Datum.ordered (fun a b => a ≤ b) (fun a b => a ≤ b)
  | .gequal => Datum.ordered (fun a b => a ≥ b) (fun a b => a ≥ b)
  | .logicAnd => Datum.truths (· && ·)
  | .logicOr => Datum.truths (· || ·)
  | .logicXor => Datum.truths (· ^^ ·)
  | .logicNot => Datum.negated
  | .equal => Datum.equals true
  | .nequal => Datum.equals false
  | .csel => Datum.selected
  | _ => fun _ => none

end ExprOp

namespace Source

def spread (data : List Datum) (i : Nat) : Option Datum := if data.length = 1 then data[0]? else data[i]?

/-- What an operator with a result of `width` components makes of its operands. -/
def combine (op : ExprOp) (width : Nat) (operands : List (List Datum)) : Option (List Datum) :=
  match op, operands with
  | .vector, _ => some operands.flatten
  | .allEqual, [a, b] => some [.bool (a = b)]
  | .anyNequal, [a, b] => some [.bool (a ≠ b)]
  | _, _ => (List.range width).mapM fun i => (operands.mapM (spread · i)).bind op.apply

def Scalar.datum? : Scalar → Option Datum
  | .i32 v => some (.int v)
  | .u32 v => some (.uint v)
  | .bool v => some (.bool v)
  | _ => none

def Rvalue.index? : Rvalue → Option Nat
  | .constant (.components _ [.u32 i]) => some i.toNat
  | .constant (.components _ [.i32 i]) => if 0 ≤ i then some i.toInt.toNat else none
  | _ => none

/-- What each variable holds. -/
abbrev Contents := VarId → Stored Datum

/-- What a place holds; every index is a literal. -/
def Place.content (contents : Contents) : Place → Option (Stored Datum)
  | .var id _ => some (contents id)
  | .field record index _ => (record.content contents).bind (·.part? index.toNat)
  | .element array index _ =>
    (array.content contents).bind fun whole => index.index?.bind whole.part?

mutual

def Rvalue.value (contents : Contents) : Rvalue → Option (List Datum)
  | .place p => (p.content contents).bind Stored.components?
  | .constant (.components _ scalars) => scalars.mapM Scalar.datum?
  | .constant (.aggregate _ _) => none
  | .swizzle value lanes width =>
    (value.value contents).bind fun data => (lanes.take width).mapM fun c => data[c.toNat]?
  | .texture _ => none
  | .expression op type operands => (valuesOf contents operands).bind (combine op type.rows.toNat)

def valuesOf (contents : Contents) : List Rvalue → Option (List (List Datum))
  | [] => some []
  | r :: rs => (r.value contents).bind fun data => (valuesOf contents rs).map (data :: ·)

end

/-! ### Types -/

/-- The contents are a column with so many components, which are integers or booleans if the base type says so. -/
def isColumn (base : BaseType) (rows : UInt8) : Stored Datum → Bool
  | .vector data => data.length = rows.toNat && data.all fun d => !base.isWord || d.base = base
  | .parts _ => false

mutual

/-- A variable of the type may have the contents. -/
def holds : ShaderType → Stored Datum → Bool
  | .numeric base rows columns, whole =>
    if 1 < columns then
      match whole with
      | .vector _ => false
      | .parts parts => parts.length = columns.toNat && parts.all (isColumn base rows)
    else isColumn base rows whole
  | .array element length, whole =>
    match whole with
    | .vector _ => false
    | .parts parts => parts.length = length.toNat && parts.all (holds element)
  | .struct _ fields, whole =>
    match whole with
    | .vector _ => false
    | .parts parts => holdsAll fields parts
  | .void, _ | .sampler _, _ | .image _, _ | .atomicUint, _ => true

def holdsAll : List (String × ShaderType) → List (Stored Datum) → Bool
  | [], parts => parts.isEmpty
  | (_, type) :: fields, parts =>
    match parts with
    | [] => false
    | part :: parts => holds type part && holdsAll fields parts

end

/-- Every variable holds what its type asks for. -/
def Program.Suits (source : Program) (contents : Contents) : Prop :=
  ∀ ⦃id decl⦄, source.var? id = some decl → holds decl.type (contents id) = true

end Source

def ShaderType.extent : ShaderType → Nat
  | .array _ length => length.toNat
  | .numeric _ rows columns => if 1 < columns then columns.toNat else rows.toNat
  | _ => 0

namespace Source

/-- The place is a part of one of the variables `seen`, which is outside buffer memory, at literal indices
that are in range. -/
def Place.isTyped (source : Program) (seen : List VarId) : Place → Bool
  | .var id type => seen.contains id && (source.var? id).any fun decl => decl.type = type && !decl.inBuffer
  | .field record index type => record.type.field? index = some type && record.isTyped source seen
  | .element array index type => array.type.indexResult? = some type && array.isTyped source seen &&
      index.index?.any (· < array.type.extent)

def areAlike : List ShaderType → Bool
  | [a, b] => a = b
  | _ => false

/-- The operator has a result of the type for operands of the given types. -/
def accepts (op : ExprOp) (type : ShaderType) (operands : List ShaderType) : Bool :=
  match op with
  | .vector => 2 ≤ type.rows && operands.length = type.rows.toNat &&
      operands.all fun operand => operand.rows = 1 && operand.baseType? = type.baseType?
  | .allEqual | .anyNequal => type = .scalar .bool && areAlike operands
  | op => operands.all (fun operand => operand.rows = 1 || operand.rows = type.rows) &&
      (op.form?.bind fun form => (operands.mapM ShaderType.baseType?).bind form.result?) = type.baseType?

mutual

/-- The value is an integer or boolean scalar or vector that has its type. -/
def Rvalue.isTyped (source : Program) (seen : List VarId) : Rvalue → Bool
  | .place p => p.type.isWords && p.isTyped source seen
  | .constant l => l.type.isWords && l.isShaped
  | .swizzle value lanes width =>
    1 ≤ width && width ≤ 4 && (lanes.take width).all (· < value.type.rows) && value.isTyped source seen
  | .texture _ => false
  | .expression op type operands =>
    type.isWords && accepts op type (operands.map Rvalue.type) && allTyped source seen operands

def allTyped (source : Program) (seen : List VarId) : List Rvalue → Bool
  | [] => true
  | r :: rs => r.isTyped source seen && allTyped source seen rs

end

end Source

end ShaderSSA
