import ShaderSSA.Json.Value
import ShaderSSA.Text.Inspect

/-!
# What can be wrong with a JSON text

An `Issue` is a cause, `Issue.message` its wording. A `DecodeError` is an issue with the line and
column it was found at, if it has any.
-/

namespace ShaderSSA.Json

/-- A number as it is spelled: an unsigned or negative integer in 64 bits, else a `binary64`. -/
inductive Numeral where
  | integer (i : Int)
  | float (bits : Nat)
deriving DecidableEq, Repr

/-- What stood where something else was expected. -/
inductive Found where
  | null
  | bool (b : Bool)
  | number (n : Numeral)
  | string (s : String)
  | sequence
  | map
  | unitVariant
deriving DecidableEq, Repr

def Numeral.describe : Numeral → String
  | .integer i => "integer `" ++ String.ofList (intChars i) ++ "`"
  | .float bits => "floating point `" ++ String.ofList (floatChars layout64 binary64 bits) ++ "`"

def Found.describe : Found → String
  | .null => "null"
  | .bool b => "boolean `" ++ Inspect.bool b ++ "`"
  | .number n => n.describe
  | .string s => "string " ++ Inspect.quoted s
  | .sequence => "sequence"
  | .map => "map"
  | .unitVariant => "unit variant"

inductive Issue where
  | eofList
  | eofObject
  | eofString
  | eofValue
  | expectedColon
  | expectedListSeparator
  | expectedObjectSeparator
  | expectedIdent
  | expectedValue
  | invalidEscape
  | invalidNumber
  | numberOutOfRange
  | keyNotString
  | controlCharacter
  | loneSurrogate
  | endOfHexEscape
  | trailingComma
  | trailingCharacters
  | recursionLimit
  | invalidType (found : Found) (expected : String)
  | invalidValue (found : Found) (expected : String)
  | invalidLength (length : Nat) (expected : String)
  | unknownVariant (name : String) (known : List String)
  | missingField (name : String)
  | duplicateField (name : String)
deriving DecidableEq, Repr

def oneOf : List String → String
  | [] => "there are no variants"
  | [a] => "expected `" ++ a ++ "`"
  | [a, b] => "expected `" ++ a ++ "` or `" ++ b ++ "`"
  | names => "expected one of " ++ ", ".intercalate (names.map fun a => "`" ++ a ++ "`")

def Issue.message : Issue → String
  | .eofList => "EOF while parsing a list"
  | .eofObject => "EOF while parsing an object"
  | .eofString => "EOF while parsing a string"
  | .eofValue => "EOF while parsing a value"
  | .expectedColon => "expected `:`"
  | .expectedListSeparator => "expected `,` or `]`"
  | .expectedObjectSeparator => "expected `,` or `\x7d`"
  | .expectedIdent => "expected ident"
  | .expectedValue => "expected value"
  | .invalidEscape => "invalid escape"
  | .invalidNumber => "invalid number"
  | .numberOutOfRange => "number out of range"
  | .keyNotString => "key must be a string"
  | .controlCharacter => "control character (\\u0000-\\u001F) found while parsing a string"
  | .loneSurrogate => "lone leading surrogate in hex escape"
  | .endOfHexEscape => "unexpected end of hex escape"
  | .trailingComma => "trailing comma"
  | .trailingCharacters => "trailing characters"
  | .recursionLimit => "recursion limit exceeded"
  | .invalidType found expected => "invalid type: " ++ found.describe ++ ", expected " ++ expected
  | .invalidValue found expected => "invalid value: " ++ found.describe ++ ", expected " ++ expected
  | .invalidLength length expected => "invalid length " ++ toString length ++ ", expected " ++ expected
  | .unknownVariant name known => "unknown variant `" ++ name ++ "`, " ++ oneOf known
  | .missingField name => "missing field `" ++ name ++ "`"
  | .duplicateField name => "duplicate field `" ++ name ++ "`"

/-- A line from 1 and a column in bytes from 0. -/
structure Position where
  line : Nat
  column : Nat
deriving DecidableEq, Repr

/-- The position after the first `n` bytes of a text. -/
def Position.after (n : Nat) : List Char → Position → Position
  | [], p => p
  | c :: cs, p =>
    if n = 0 then p
    else if c = '\n' then after (n - 1) cs ⟨p.line + 1, 0⟩
    else if n < c.utf8Size then ⟨p.line, p.column + n⟩
    else after (n - c.utf8Size) cs ⟨p.line, p.column + c.utf8Size⟩

structure DecodeError where
  issue : Issue
  position : Option Position
deriving DecidableEq, Repr

def DecodeError.message (e : DecodeError) : String :=
  match e.position with
  | none => e.issue.message
  | some p => e.issue.message ++ " at line " ++ toString p.line ++ " column " ++ toString p.column

end ShaderSSA.Json
