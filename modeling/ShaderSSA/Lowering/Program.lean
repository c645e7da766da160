import ShaderSSA.Lowering.Statement
import ShaderSSA.Lowering.Summary
import ShaderSSA.Source.Json

/-!
# Lowering of programs

Every signature of a function gets its target function first, so that calls can name functions that
are defined later. Then global variables are declared and bodies lowered in order, and last the
program is summarized.
-/

namespace ShaderSSA.Lowering

open Source Target Lower

/-! ### Functions -/

def registerSignature (source : Source.Program) (id : SignatureId) : Lower Unit := do
  let signature ← check (source.getSignature id)
  if signature.isIntrinsic then return
  let (function, p) := (← program).addFunction signature.name
  setProgram p
  setScope (← check ((← scope).bindFunction id function))
  report (.registered signature.name function)

def registerSignatures (source : Source.Program) : List SignatureId → Lower Unit
  | [] => return
  | id :: ids => do
    registerSignature source id
    registerSignatures source ids

def registerAll (source : Source.Program) : List Stmt → Lower Unit
  | [] => return
  | .function _ signatures :: rest => do
    registerSignatures source signatures
    registerAll source rest
  | _ :: rest => registerAll source rest

def declareParams (source : Source.Program) (signature : Signature) (function : FuncId) :
    List Source.VarId → Lower Unit
  | [] => return
  | id :: ids => do
    let var ← declare source id
    let storage := (← check ((← program).getVariable var)).storage
    if storage ≠ .param then
      let decl ← check (source.getVariable id)
      abort (.parameterStorage decl.name signature.name)
    modifyBody function fun b => { b with params := b.params.push var }
    declareParams source signature function ids

def declareReturn (function : FuncId) (type : ShaderType) : Lower Unit := do
  if type.isVoid then return
  let var ← addVariable { name := "return_var", type, storage := .functionLocal } (some function)
  modifyBody function fun b => { b with returnVar := some var }

def withSite (site : Option Location) (content : Lower α) : Lower α := ExceptT.mk fun s =>
  match content.run.run s, site with
  | (.error (.exhausted e), t), some l => (.error (.exhausted { e with location := some l }), t)
  | result, _ => result

def lowerBody (source : Source.Program) (signature : Signature) (function : FuncId) :
    Lower Unit := do
  setProgram (← check ((← program).setBody function (some {})))
  setScope (← check ((← scope).enterFunction function))
  declareParams source signature function signature.parameters
  declareReturn function signature.returnType
  let region ← withSite signature.site (inRegion (lowerStmts source signature.body))
  report (.bodyLowered signature.name region.size)
  modifyBody function fun b => { b with nodes := region.toList }
  setScope (← scope).leaveFunction

def lowerSignature (source : Source.Program) (id : SignatureId) : Lower Unit := do
  let signature ← check (source.getSignature id)
  if signature.isIntrinsic then return
  let function ← check ((← scope).resolveFunction source id)
  if signature.isDefined then lowerBody source signature function
  else report (.declaredOnly signature.name)

def lowerSignatures (source : Source.Program) : List SignatureId → Lower Unit
  | [] => return
  | id :: ids => do
    lowerSignature source id
    lowerSignatures source ids

def lowerAll (source : Source.Program) : List Stmt → Lower Unit
  | [] => return
  | .declare id :: rest => do
    let _ ← declare source id
    lowerAll source rest
  | .function _ signatures :: rest => do
    lowerSignatures source signatures
    lowerAll source rest
  | s :: _ => abort (.globalStatement s.kind)

/-! ### Programs -/

def finish : Lower Unit := do
  let p ← program
  let info ← check (summarize p)
  setProgram { p with info }
  report (.finished info.stage info.name p.functions.size p.instrs.size p.values.size)

def lowerProgram (source : Source.Program) : Lower Unit := do
  registerAll source source.statements
  lowerAll source source.statements
  finish

def State.initial (source : Source.Program) (capabilities : Capabilities) : State where
  program := .new source.name source.layout capabilities.maxInstructions
  scope := .new source capabilities
  region := {}
  log := #[]

/-- Lower a source program. Only exhaustion is recoverable; a malformed program is a fault. -/
def lower (source : Source.Program) (capabilities : Capabilities) :
    Except Failure Target.Program :=
  match (lowerProgram source).run.run (.initial source capabilities) with
  | (.ok (), s) => .ok s.program
  | (.error e, _) => .error e

def lowerLog (source : Source.Program) (capabilities : Capabilities) :
    List Event × Option Failure :=
  match (lowerProgram source).run.run (.initial source capabilities) with
  | (.ok (), s) => (s.log.toList, none)
  | (.error (.fault (.defect d)), s) =>
    (s.log.toList ++ [.aborted (Fault.message (.defect d))], some (.fault (.defect d)))
  | (.error e, s) => (s.log.toList, some e)

/-! ### Texts -/

inductive TextFailure where
  | malformed (e : Json.DecodeError)
  | failed (f : Failure)

def lowerText (text : String) (capabilities : Capabilities) :
    Except TextFailure Target.Program :=
  match Source.Program.decode text with
  | .error e => .error (.malformed e)
  | .ok source => (lower source capabilities).mapError .failed

def logText (text : String) (capabilities : Capabilities) : List Event × Option TextFailure :=
  match Source.Program.decode text with
  | .error e => ([], some (.malformed e))
  | .ok source =>
    let (events, failure) := lowerLog source capabilities
    (events, failure.map .failed)

def TextFailure.diagnostic : TextFailure → Except Fault Diagnostic
  | .malformed e => .ok e.diagnostic
  | .failed (.exhausted e) => .ok e.diagnostic
  | .failed (.fault f) => .error f

end ShaderSSA.Lowering
