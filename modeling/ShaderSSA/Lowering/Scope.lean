import ShaderSSA.Fault

/-!
# Names in scope

A `Scope` maps the variables and signatures of a source program to what they have been lowered to,
and knows the function whose body is being lowered.
-/

namespace ShaderSSA.Lowering

open Json

structure Capabilities where
  /-- Without native integers, integers and booleans are carried as floats. -/
  nativeIntegers : Bool := true
  maxInstructions : Option UInt32 := none
deriving DecidableEq

namespace Capabilities

def toJson (c : Capabilities) : Value :=
  .object [("native_integers", .bool c.nativeIntegers),
    ("max_instructions", .option (fun n => .nat n.toNat) c.maxInstructions)]

def reader : Reader Capabilities :=
  (Reader.record "struct Capabilities"
    (.cons (.defaulted "native_integers" .bool true) <|
      .cons (.defaultedOption "max_instructions" .uint32) .nil)).map
    fun (nativeIntegers, maxInstructions, ()) => ⟨nativeIntegers, maxInstructions⟩

end Capabilities

end ShaderSSA.Lowering

namespace ShaderSSA.Source.Program

def getVariable (p : Program) (id : VarId) : Except Fault VarDecl :=
  match p.var? id with
  | some v => .ok v
  | none => .error (.defect (.sourceVariableRange id))

def getSignature (p : Program) (id : SignatureId) : Except Fault Signature :=
  match p.signature? id with
  | some s => .ok s
  | none => .error (.defect (.signatureRange id))

end ShaderSSA.Source.Program

namespace ShaderSSA.Lowering

structure Scope where
  vars : Array (Option Target.VarId)
  functions : Array (Option Target.FuncId)
  nativeIntegers : Bool
  current : Option Target.FuncId

namespace Scope

def new (source : Source.Program) (capabilities : Capabilities) : Scope where
  vars := Array.replicate source.vars.size none
  functions := Array.replicate source.signatures.size none
  nativeIntegers := capabilities.nativeIntegers
  current := none

def bindVariable (s : Scope) (id : Source.VarId) (target : Target.VarId) : Except Fault Scope :=
  if id.index.toNat < s.vars.size then
    .ok { s with vars := s.vars.setIfInBounds id.index.toNat (some target) }
  else .error (.defect (.sourceVariableRange id))

def resolveVariable (s : Scope) (source : Source.Program) (id : Source.VarId) :
    Except Fault Target.VarId :=
  match s.vars[id.index.toNat]?.join with
  | some v => .ok v
  | none => do
    let decl ← source.getVariable id
    throw (.defect (.undeclaredVariable decl.name decl.site))

def bindFunction (s : Scope) (id : Source.SignatureId) (target : Target.FuncId) :
    Except Fault Scope :=
  if id.index.toNat < s.functions.size then
    .ok { s with functions := s.functions.setIfInBounds id.index.toNat (some target) }
  else .error (.defect (.signatureRange id))

def resolveFunction (s : Scope) (source : Source.Program) (id : Source.SignatureId) :
    Except Fault Target.FuncId :=
  match s.functions[id.index.toNat]?.join with
  | some f => .ok f
  | none => do
    let signature ← source.getSignature id
    throw (.defect (.unregisteredSignature signature.name signature.site))

def enterFunction (s : Scope) (function : Target.FuncId) : Except Fault Scope :=
  match s.current with
  | some outer => .error (.defect (.nestedFunction function outer))
  | none => .ok { s with current := some function }

def leaveFunction (s : Scope) : Scope := { s with current := none }

end Scope

end ShaderSSA.Lowering
