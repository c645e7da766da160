import ShaderSSA.Location

/-!
# Recoverable errors and how they are reported

Two errors are recoverable: a source text that cannot be decoded, and a target program that grows
past its capacity. Both are reported as a `Diagnostic`.
-/

namespace ShaderSSA

inductive Severity where
  | info
  | warning
  | error
  | critical
deriving DecidableEq

def Severity.text : Severity → String
  | .info => "INFO"
  | .warning => "WARNING"
  | .error => "ERROR"
  | .critical => "CRITICAL"

structure Diagnostic where
  severity : Severity
  issuer : String
  location : Option Location
  message : String

namespace Diagnostic

def line (d : Diagnostic) : String :=
  let place := match d.location with
    | some l => l.text
    | none => "unknown"
  "GLINT | " ++ d.severity.text ++ " | " ++ place ++ " | " ++ d.issuer ++ " | " ++ d.message

def report (d : Diagnostic) : String :=
  "GLINT | " ++ d.severity.text ++ " | " ++ Location.describe d.location ++ " | " ++ d.message

end Diagnostic

/-- The target program could not grow. -/
structure OutOfMemory where
  what : String
  location : Option Location
deriving DecidableEq

namespace OutOfMemory

def message (e : OutOfMemory) : String := "out of memory while growing " ++ e.what

def text (e : OutOfMemory) : String :=
  match e.location with
  | some l => e.message ++ " (at " ++ l.text ++ ")"
  | none => e.message

def inspectKind (e : OutOfMemory) : String :=
  Inspect.record "OutOfMemory" [("what", Inspect.quoted e.what)]

def diagnostic (e : OutOfMemory) : Diagnostic :=
  ⟨.critical, "glint::lower", e.location, e.message⟩

end OutOfMemory

def Json.DecodeError.diagnostic (e : Json.DecodeError) : Diagnostic :=
  let position := e.position.getD ⟨0, 0⟩
  { severity := .error
    issuer := "glint::parse"
    location := some ⟨"<input>", UInt64.ofNat position.line, UInt64.ofNat position.column⟩
    message := "malformed source shader: " ++ e.message }

end ShaderSSA
