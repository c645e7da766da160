import ShaderSSA.Json.Reader

/-!
# Places in the shader's text

Declarations carry them so that a diagnostic can point back.
-/

namespace ShaderSSA

open Json

structure Location where
  file : String
  line : UInt64
  column : UInt64
deriving DecidableEq

namespace Location

def text (l : Location) : String :=
  l.file ++ ":" ++ toString l.line ++ ":" ++ toString l.column

def describe : Option Location → String
  | some l => l.text
  | none => "unknown location"

def toJson (l : Location) : Value :=
  .object [("file", .string l.file), ("line", .nat l.line.toNat), ("column", .nat l.column.toNat)]

def reader : Reader Location :=
  (Reader.record "struct Location"
    (.cons (.required "file" .string) <|
      .cons (.required "line" .size) <|
      .cons (.required "column" .size) .nil)).map
    fun (file, line, column, ()) => ⟨file, line, column⟩

end Location

end ShaderSSA
