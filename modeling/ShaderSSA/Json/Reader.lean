import ShaderSSA.Json.Skip

/-!
# Reading typed values from JSON

A `Reader` reads a value of one type. Records are objects with known keys, or arrays of their fields
in order; variants are strings or one-member objects. The first argument of a reader is how many
more arrays and objects may be entered.
-/

namespace ShaderSSA.Json

open Outcome

abbrev Reader (α : Type) := Nat → List Char → Outcome α

def maxDepth : Nat := 127

namespace Reader

/-- Report the value that stands where another kind was expected. Scalars are consumed first. -/
def mismatch (expected : String) (cs : List Char) : Outcome α :=
  let wrong (found : Found) (rest : List Char) : Outcome α := here (.invalidType found expected) rest
  match cs with
  | 'n' :: rest => (scanIdent ['u', 'l', 'l'] rest).andThen fun _ rest => wrong .null rest
  | 't' :: rest => (scanIdent ['r', 'u', 'e'] rest).andThen fun _ rest => wrong (.bool true) rest
  | 'f' :: rest => (scanIdent ['a', 'l', 's', 'e'] rest).andThen fun _ rest => wrong (.bool false) rest
  | '-' :: rest => (scanNumber true rest).andThen fun n rest => wrong (.number n) rest
  | '"' :: rest => (scanString rest).andThen fun s rest => wrong (.string s) rest
  | '[' :: _ => wrong .sequence cs
  | '\x7b' :: _ => wrong .map cs
  | _ =>
    if startsWithDigit cs then (scanNumber false cs).andThen fun n rest => wrong (.number n) rest
    else ahead .expectedValue cs

def map (f : α → β) (r : Reader α) : Reader β := fun depth cs => (r depth cs).map f

/-- The reader of a type whose values nest deeper than may be read. -/
def tooDeep : Reader α := fun _ cs => ahead .recursionLimit cs

/-! ### Scalars -/

def bool : Reader Bool := fun _ cs =>
  match skipBlanks cs with
  | [] => here .eofValue []
  | 't' :: rest => (scanIdent ['r', 'u', 'e'] rest).map fun _ => true
  | 'f' :: rest => (scanIdent ['a', 'l', 's', 'e'] rest).map fun _ => false
  | cs => mismatch "a boolean" cs

def unit : Reader Unit := fun _ cs =>
  match skipBlanks cs with
  | [] => here .eofValue []
  | 'n' :: rest => scanIdent ['u', 'l', 'l'] rest
  | cs => mismatch "unit" cs

def string : Reader String := fun _ cs =>
  match skipBlanks cs with
  | [] => here .eofValue []
  | '"' :: rest => scanString rest
  | cs => mismatch "a string" cs

/-- A number that `accept` turns into a value; a number that it refuses is an issue. -/
def number (expected : String) (accept : Numeral → Except Issue α) : Reader α := fun _ cs =>
  let finish (n : Numeral) (rest : List Char) : Outcome α :=
    match accept n with
    | .ok a => .done a rest
    | .error i => here i rest
  match skipBlanks cs with
  | [] => here .eofValue []
  | '-' :: rest => (scanNumber true rest).andThen finish
  | cs => if startsWithDigit cs then (scanNumber false cs).andThen finish else mismatch expected cs

def integer (name : String) (low high : Int) (ofInt : Int → α) : Reader α :=
  number name fun
    | .integer i =>
      if low ≤ i ∧ i ≤ high then .ok (ofInt i) else .error (.invalidValue (.number (.integer i)) name)
    | .float bits => .error (.invalidType (.number (.float bits)) name)

def uint8 : Reader UInt8 := integer "u8" 0 0xff fun i => UInt8.ofNat i.toNat

def uint16 : Reader UInt16 := integer "u16" 0 0xffff fun i => UInt16.ofNat i.toNat

def uint32 : Reader UInt32 := integer "u32" 0 0xffffffff fun i => UInt32.ofNat i.toNat

def uint64 : Reader UInt64 := integer "u64" 0 0xffffffffffffffff fun i => UInt64.ofNat i.toNat

def size : Reader UInt64 := integer "usize" 0 0xffffffffffffffff fun i => UInt64.ofNat i.toNat

def int8 : Reader Int8 := integer "i8" (-0x80) 0x7f Int8.ofInt

def int16 : Reader Int16 := integer "i16" (-0x8000) 0x7fff Int16.ofInt

def int32 : Reader Int32 := integer "i32" (-0x80000000) 0x7fffffff Int32.ofInt

def int64 : Reader Int64 := integer "i64" (-0x8000000000000000) 0x7fffffffffffffff Int64.ofInt

/-- The bits of a float of format `f`: integers round directly, other numbers by way of `binary64`. -/
def float (name : String) (f : BinaryFormat) : Reader Nat :=
  number name fun
    | .integer i => .ok (f.ofInt i)
    | .float bits => .ok (binary64.convert f bits)

def float32 : Reader UInt32 := (float "f32" binary32).map UInt32.ofNat

def float64 : Reader UInt64 := (float "f64" binary64).map UInt64.ofNat

def option (r : Reader α) : Reader (Option α) := fun depth cs =>
  match skipBlanks cs with
  | 'n' :: rest => (scanIdent ['u', 'l', 'l'] rest).map fun _ => none
  | cs => (r depth cs).map some

/-! ### Arrays -/

def items (r : Reader α) (depth : Nat) : Nat → Bool → List Char → Outcome (List α)
  | 0, _, cs => here .eofList cs
  | fuel + 1, first, cs =>
    (scanNextItem first cs).andThen fun more cs =>
      if more then
        (r depth cs).andThen fun a cs => (items r depth fuel false cs).map (a :: ·)
      else .done [] cs

/-- Enter an array; anything else is a mismatch. -/
def inArray (expected : String) (content : Reader α) : Reader α := fun depth cs =>
  match skipBlanks cs with
  | [] => here .eofValue []
  | '[' :: rest =>
    match depth with
    | 0 => ahead .recursionLimit ('[' :: rest)
    | depth + 1 => (content depth rest).close scanArrayEnd
  | cs => mismatch expected cs

def list (r : Reader α) : Reader (List α) :=
  inArray "a sequence" fun depth cs => items r depth (cs.length + 1) true cs

def array (r : Reader α) : Reader (Array α) := (list r).map List.toArray

end Reader

/-! ### Records -/

structure Field (α : Type) where
  name : String
  read : Reader α
  /-- The value when an object lacks the key. -/
  absent : Option α
  /-- The value when an array ends before the field. -/
  short : Option α

namespace Field

def required (name : String) (read : Reader α) : Field α := ⟨name, read, none, none⟩

/-- An element of an array of fixed length, which has no name. -/
def element (read : Reader α) : Field α := required "" read

/-- A field that an object may lack but an array may not. -/
def optional (name : String) (read : Reader α) : Field (Option α) :=
  ⟨name, read.option, some none, none⟩

/-- A field that may be missing from both forms. -/
def defaulted (name : String) (read : Reader α) (value : α) : Field α :=
  ⟨name, read, some value, some value⟩

/-- An optional field that may be missing from both forms. -/
def defaultedOption (name : String) (read : Reader α) : Field (Option α) :=
  defaulted name read.option none

end Field

/-- The fields of a record, in declaration order; the record's content is the tuple of their values. -/
inductive Fields : Type → Type 1 where
  | nil : Fields Unit
  | cons {α β : Type} (field : Field α) (rest : Fields β) : Fields (α × β)

namespace Fields

def count : {τ : Type} → Fields τ → Nat
  | _, .nil => 0
  | _, .cons _ rest => rest.count + 1

def Slots : {τ : Type} → Fields τ → Type
  | _, .nil => Unit
  | _, @Fields.cons α _ _ rest => Option α × rest.Slots

def emptySlots : {τ : Type} → (fs : Fields τ) → fs.Slots
  | _, .nil => ()
  | _, .cons _ rest => (none, rest.emptySlots)

/-- Read the value of the key `name` into its slot; the value of an unknown key is skipped. -/
def readMember (name : String) (depth : Nat) (cs : List Char) :
    {τ : Type} → (fs : Fields τ) → fs.Slots → Outcome fs.Slots
  | _, .nil, () =>
    (scanColon cs).andThen fun _ cs => (skipValue cs).map fun _ => ()
  | _, @Fields.cons α _ field rest, slots =>
    let slots : Option α × rest.Slots := slots
    if field.name = name then
      match slots.1 with
      | some _ => .pending (.duplicateField name) cs
      | none =>
        (scanColon cs).andThen fun _ cs =>
          (field.read depth cs).map fun a => ((some a, slots.2) : Option α × rest.Slots)
    else
      (rest.readMember name depth cs slots.2).map fun later =>
        ((slots.1, later) : Option α × rest.Slots)

def readMembers {τ : Type} (fs : Fields τ) (depth : Nat) :
    Nat → Bool → fs.Slots → List Char → Outcome fs.Slots
  | 0, _, _, cs => here .eofObject cs
  | fuel + 1, first, slots, cs =>
    (scanNextKey first cs).andThen fun more cs =>
      if more then
        (scanString cs).andThen fun name cs =>
          (fs.readMember name depth cs slots).andThen fun slots cs =>
            fs.readMembers depth fuel false slots cs
      else .done slots cs

/-- The values of all slots; the first field without one is an issue. -/
def assemble : {τ : Type} → (fs : Fields τ) → fs.Slots → Except Issue τ
  | _, .nil, () => .ok ()
  | _, @Fields.cons α _ field rest, slots =>
    let slots : Option α × rest.Slots := slots
    match slots.1.or field.absent with
    | none => .error (.missingField field.name)
    | some a =>
      match rest.assemble slots.2 with
      | .error i => .error i
      | .ok b => .ok (a, b)

/-- The fields as consecutive elements of an array, from the `read`-th on. -/
def readItems (expected : String) (depth : Nat) :
    {τ : Type} → (fs : Fields τ) → Nat → List Char → Outcome τ
  | _, .nil, _, cs => .done () cs
  | _, .cons field rest, read, cs =>
    (scanNextItem (read = 0) cs).andThen fun more cs =>
      let value : Outcome _ :=
        if more then field.read depth cs
        else match field.short with
          | some a => .done a cs
          | none => .pending (.invalidLength read expected) cs
      value.andThen fun a cs => (rest.readItems expected depth (read + 1) cs).map fun b => (a, b)

end Fields

namespace Reader

/-- How a record of `count` fields is announced when an array is too short for it. -/
def recordLength (expected : String) (count : Nat) : String :=
  expected ++ " with " ++ toString count ++ (if count = 1 then " element" else " elements")

def tuple {τ : Type} (fs : Fields τ) : Reader τ :=
  let expected := "an array of length " ++ toString fs.count
  inArray expected fun depth cs => fs.readItems expected depth 0 cs

def record {τ : Type} (expected : String) (fs : Fields τ) : Reader τ := fun depth cs =>
  match skipBlanks cs with
  | [] => here .eofValue []
  | '[' :: rest =>
    match depth with
    | 0 => ahead .recursionLimit ('[' :: rest)
    | depth + 1 =>
      (fs.readItems (recordLength expected fs.count) depth 0 rest).close scanArrayEnd
  | '\x7b' :: rest =>
    match depth with
    | 0 => ahead .recursionLimit ('\x7b' :: rest)
    | depth + 1 =>
      let content := (fs.readMembers depth (rest.length + 1) true fs.emptySlots rest).andThen
        fun slots cs =>
          match fs.assemble slots with
          | .ok a => .done a cs
          | .error i => .pending i cs
      content.close scanObjectEnd
  | cs => mismatch expected cs

end Reader

/-! ### Variants -/

inductive Content (α : Type) where
  | unit (a : α)
  | single (read : Reader α)
  | fields (read : Reader α)

structure Variant (α : Type) where
  name : String
  content : Content α

namespace Variant

def unit (name : String) (a : α) : Variant α := ⟨name, .unit a⟩

def single (name : String) (read : Reader β) (f : β → α) : Variant α := ⟨name, .single (read.map f)⟩

def fields {τ : Type} (type name : String) (fs : Fields τ) (f : τ → α) : Variant α :=
  ⟨name, .fields ((Reader.record ("struct variant " ++ type ++ "::" ++ name) fs).map f)⟩

def find (variants : List (Variant α)) (name : String) : Except Issue (Variant α) :=
  match variants.find? fun v => v.name = name with
  | some v => .ok v
  | none => .error (.unknownVariant name (variants.map (·.name)))

def bare (v : Variant α) (cs : List Char) : Outcome α :=
  match v.content with
  | .unit a => .done a cs
  | .single _ => .pending (.invalidType .unitVariant "newtype variant") cs
  | .fields _ => .pending (.invalidType .unitVariant "struct variant") cs

def read (v : Variant α) : Reader α :=
  match v.content with
  | .unit a => Reader.unit.map fun _ => a
  | .single r => r
  | .fields r => r

end Variant

namespace Reader

def variantName (variants : List (Variant α)) (cs : List Char) : Outcome (Variant α) :=
  (scanString cs).andThen fun name cs =>
    match Variant.find variants name with
    | .ok v => .done v cs
    | .error i => here i cs

def variantEnd (cs : List Char) : Outcome Unit :=
  match skipBlanks cs with
  | [] => here .eofObject []
  | '\x7d' :: rest => .done () rest
  | cs => here .expectedValue cs

def variants (vs : List (Variant α)) : Reader α := fun depth cs =>
  match skipBlanks cs with
  | [] => here .eofValue []
  | '"' :: rest => (variantName vs rest).andThen fun v cs => v.bare cs
  | '\x7b' :: rest =>
    match depth with
    | 0 => ahead .recursionLimit ('\x7b' :: rest)
    | depth + 1 =>
      match skipBlanks rest with
      | [] => here .eofObject []
      | '"' :: rest =>
        (variantName vs rest).andThen fun v cs =>
          (scanColon cs).andThen fun _ cs =>
            (v.read depth cs).andThen fun a cs => (variantEnd cs).map fun _ => a
      | '\x7d' :: rest => ahead .expectedValue ('\x7d' :: rest)
      | cs => ahead .keyNotString cs
  | cs => ahead .expectedValue cs

def names (all : List α) (name : α → String) : Reader α :=
  variants (all.map fun a => .unit (name a) a)

end Reader

/-- Decode a whole text: one value, and nothing but blanks after it. -/
def decode (r : Reader α) (text : String) : Except DecodeError α :=
  let cs := text.toList
  let total := byteCount cs
  let fail (i : Issue) (left : Nat) : Except DecodeError α :=
    .error ⟨i, some (Position.after (total - left) cs ⟨1, 0⟩)⟩
  match r maxDepth cs with
  | .failed i left => fail i left
  | .pending i _ => .error ⟨i, none⟩
  | .done a rest =>
    match skipBlanks rest with
    | [] => .ok a
    | rest => fail .trailingCharacters (byteCount rest - 1)

end ShaderSSA.Json
