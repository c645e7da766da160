import ShaderSSA.Lowering.Event
import ShaderSSA.Lowering.Scope
import ShaderSSA.Target.Build
import ShaderSSA.Target.Region

/-!
# The state of lowering

Lowering is a computation over a `State` that can fail. A failure keeps the state that was reached.
Instructions go to the region that is open; `inRegion` collects a nested region.
-/

namespace ShaderSSA.Lowering

open Target

structure State where
  program : Target.Program
  scope : Scope
  region : Region
  log : Array Event

/-- Why lowering ended. Only exhaustion is recoverable. -/
inductive Failure where
  | fault (f : Fault)
  | exhausted (e : OutOfMemory)

abbrev Lower := ExceptT Failure (StateM State)

namespace Lower

def abort (d : Defect) : Lower α := throw (.fault (.defect d))

/-- A look-up or calculation that can fault. -/
def check : Except Fault α → Lower α
  | .ok a => pure a
  | .error f => throw (.fault f)

def report (e : Event) : Lower Unit := modify fun s => { s with log := s.log.push e }

def program : Lower Target.Program := return (← get).program

def setProgram (p : Target.Program) : Lower Unit := modify fun s => { s with program := p }

def scope : Lower Scope := return (← get).scope

def setScope (scope : Scope) : Lower Unit := modify fun s => { s with scope }

def nativeIntegers : Lower Bool := return (← scope).nativeIntegers

def valueDef (v : ValueId) : Lower ValueDef := do check ((← program).getValue v)

/-! ### Regions -/

def modifyRegion (change : Region → Region) : Lower Unit :=
  modify fun s => { s with region := change s.region }

/-- Lower into a region of its own. The open region is kept, also on failure. -/
def inRegion (content : Lower Unit) : Lower Region := ExceptT.mk fun s =>
  match content.run.run { s with region := {} } with
  | (.ok (), t) => (.ok t.region, { t with region := s.region })
  | (.error e, t) => (.error e, { t with region := s.region })

/-! ### Instructions -/

def emitEffect (operation : Operation) : Lower Unit := do
  match (← program).addEffect operation with
  | .error e => throw (.exhausted e)
  | .ok (id, p) =>
    setProgram p
    modifyRegion (·.pushInstr id)
    report (.emitted id operation)

def emitValue (operation : Operation) (width bitSize : UInt8) : Lower ValueId := do
  if width = 0 ∨ 4 < width then abort (.valueWidth width)
  match (← program).addValue operation width bitSize with
  | .error e => throw (.exhausted e)
  | .ok (id, value, p) =>
    setProgram p
    modifyRegion (·.pushInstr id)
    report (.emitted id operation)
    return value

/-! ### Variables and chains -/

def addVariable (var : Variable) (owner : Option FuncId) : Lower VarId := do
  let (result, p) := (← program).addVariable var owner
  setProgram p
  check result

def modifyBody (id : FuncId) (change : Body → Body) : Lower Unit := do
  setProgram (← check ((← program).modifyBody id change))

def rootChain (var : VarId) (type : ShaderType) : Lower Chain := do
  let p ← program
  let (chain, links) := p.links.root var type
  setProgram { p with links }
  return chain

def appendLink (chain : Chain) (kind : LinkKind) (type : ShaderType) : Lower Chain := do
  let p ← program
  let (chain, links) ← check (p.links.append chain kind type)
  setProgram { p with links }
  return chain

end Lower

end ShaderSSA.Lowering
