import ShaderSSA.Numeric.Decimal

/-!
# JSON values and their text

`Value.pretty` writes a value with one member or element a line and two blanks a level.
Floats are written with the fewest digits that read back; an infinite one is written as `null`.
-/

namespace ShaderSSA.Json

inductive Value where
  | null
  | bool (b : Bool)
  | int (i : Int)
  | float32 (bits : UInt32)
  | float64 (bits : UInt64)
  | string (s : String)
  | array (items : List Value)
  | object (members : List (String × Value))

namespace Value

def nat (n : Nat) : Value := .int n

def option (f : α → Value) : Option α → Value
  | none => .null
  | some a => f a

def list (f : α → Value) (items : List α) : Value := .array (items.map f)

def ofArray (f : α → Value) (items : Array α) : Value := list f items.toList

def variant (name : String) (content : Value) : Value := .object [(name, content)]

end Value

/-- `binary32` floats are positional from `10 ^ -6` up to `10 ^ 13`. -/
def layout32 : FloatLayout := ⟨-6, 12, true, .even⟩

/-- `binary64` floats are positional from `10 ^ -5` up to `10 ^ 16`. -/
def layout64 : FloatLayout := ⟨-5, 15, true, .even⟩

def floatChars (l : FloatLayout) (f : BinaryFormat) (bits : Nat) : List Char :=
  if f.magnitude bits < f.infinity then l.chars f bits else ['n', 'u', 'l', 'l']

def intChars (i : Int) : List Char :=
  if i < 0 then '-' :: digitChars i.natAbs else digitChars i.natAbs

def hexPair (n : Nat) : List Char := [Nat.digitChar (n / 16 % 16), Nat.digitChar (n % 16)]

/-- One character of a string. Only quotes, backslashes and control characters are escaped. -/
def escapedChar (c : Char) : List Char :=
  if c = '"' then ['\\', '"']
  else if c = '\\' then ['\\', '\\']
  else if c = '\x08' then ['\\', 'b']
  else if c = '\x0c' then ['\\', 'f']
  else if c = '\n' then ['\\', 'n']
  else if c = '\r' then ['\\', 'r']
  else if c = '\t' then ['\\', 't']
  else if c.toNat < 0x20 then ['\\', 'u', '0', '0'] ++ hexPair c.toNat
  else [c]

def stringChars (s : String) : List Char := '"' :: s.toList.flatMap escapedChar ++ ['"']

def lineBreak (level : Nat) : List Char := '\n' :: List.replicate (2 * level) ' '

mutual

def Value.prettyChars (level : Nat) : Value → List Char
  | .null => ['n', 'u', 'l', 'l']
  | .bool true => ['t', 'r', 'u', 'e']
  | .bool false => ['f', 'a', 'l', 's', 'e']
  | .int i => intChars i
  | .float32 bits => floatChars layout32 binary32 bits.toNat
  | .float64 bits => floatChars layout64 binary64 bits.toNat
  | .string s => stringChars s
  | .array [] => ['[', ']']
  | .array (v :: vs) =>
    '[' :: lineBreak (level + 1) ++ v.prettyChars (level + 1) ++ prettyItems (level + 1) vs
      ++ lineBreak level ++ [']']
  | .object [] => ['\x7b', '\x7d']
  | .object ((k, v) :: ms) =>
    '\x7b' :: lineBreak (level + 1) ++ stringChars k ++ ':' :: ' ' :: v.prettyChars (level + 1)
      ++ prettyMembers (level + 1) ms ++ lineBreak level ++ ['\x7d']

def prettyItems (level : Nat) : List Value → List Char
  | [] => []
  | v :: vs => ',' :: lineBreak level ++ v.prettyChars level ++ prettyItems level vs

def prettyMembers (level : Nat) : List (String × Value) → List Char
  | [] => []
  | (k, v) :: ms =>
    ',' :: lineBreak level ++ stringChars k ++ ':' :: ' ' :: v.prettyChars level
      ++ prettyMembers level ms

end

def Value.pretty (v : Value) : String := String.ofList (v.prettyChars 0)

mutual

def Value.depth : Value → Nat
  | .array vs => itemsDepth vs + 1
  | .object ms => membersDepth ms + 1
  | _ => 0

def itemsDepth : List Value → Nat
  | [] => 0
  | v :: vs => max v.depth (itemsDepth vs)

def membersDepth : List (String × Value) → Nat
  | [] => 0
  | (_, v) :: ms => max v.depth (membersDepth ms)

end

end ShaderSSA.Json
