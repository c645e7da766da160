import ShaderSSA.Numeric.Decimal
import ShaderSSA.Text.Printable

/-!
# Inspected values

Diagnostics and traces show a value by its constructors: `Name`, `Name(a, b)`,
`Name { field: a }`, lists in brackets, and text in quotes with escapes.
-/

namespace ShaderSSA.Inspect

def hexChars (n : Nat) : List Char := Nat.toDigits 16 n

def quotedChar (c : Char) : List Char :=
  if c = '"' then ['\\', '"']
  else if c = '\\' then ['\\', '\\']
  else if c = '\n' then ['\\', 'n']
  else if c = '\r' then ['\\', 'r']
  else if c = '\t' then ['\\', 't']
  else if c.toNat = 0 then ['\\', '0']
  else if 0x20 ≤ c.toNat && c.toNat < 0x7f then [c]
  else if Text.isPrintable c then [c]
  else ['\\', 'u', '\x7b'] ++ hexChars c.toNat ++ ['\x7d']

def quoted (s : String) : String :=
  String.ofList ('"' :: s.toList.flatMap quotedChar ++ ['"'])

def call (name : String) (args : List String) : String :=
  name ++ "(" ++ ", ".intercalate args ++ ")"

def record (name : String) (fields : List (String × String)) : String :=
  name ++ " \x7b " ++ ", ".intercalate (fields.map fun (k, v) => k ++ ": " ++ v) ++ " \x7d"

def list (items : List String) : String := "[" ++ ", ".intercalate items ++ "]"

def option : Option String → String
  | none => "None"
  | some s => call "Some" [s]

def bool (b : Bool) : String := if b then "true" else "false"

/-- Floats from `10 ^ -4` up to `10 ^ 16` are positional, and a tie goes up. -/
def floatLayout : FloatLayout := ⟨-4, 15, false, .up⟩

def float (f : BinaryFormat) (bits : Nat) : String :=
  let m := f.magnitude bits
  let sign := if f.isNegative bits then "-" else ""
  if m < f.infinity then String.ofList (floatLayout.chars f bits)
  else if m = f.infinity then sign ++ "inf"
  else "NaN"

end ShaderSSA.Inspect
