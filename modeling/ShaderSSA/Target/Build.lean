import ShaderSSA.Diagnostic
import ShaderSSA.Target.Chain

/-!
# Looking things up in a target program and adding to it

Look-ups by handle fault when the handle is out of range. An addition that faults midway keeps what
it has already added, so additions give the program beside their result.

Memory is assumed to suffice: an array grows whenever something is added to it, and only the limit on
instructions gives `OutOfMemory`. An allocation that is refused, which could end any addition in the
same way, has no counterpart here, and nothing is stated about it.
-/

namespace ShaderSSA.Target.Program

/-! ### Look-ups -/

def getFunction (p : Program) (id : FuncId) : Except Fault Function :=
  match p.function? id with
  | some f => .ok f
  | none => .error (.defect (.functionRange id))

def getBody (p : Program) (id : FuncId) : Except Fault Body := do
  match (← p.getFunction id).body with
  | some b => return b
  | none => throw (.defect (.functionWithoutBody id))

def getVariable (p : Program) (id : VarId) : Except Fault Variable :=
  match p.var? id with
  | some v => .ok v
  | none => .error (.defect (.variableRange id))

def getInstr (p : Program) (id : InstId) : Except Fault Instr :=
  match p.instr? id with
  | some i => .ok i
  | none => .error (.defect (.instructionRange id))

def getValue (p : Program) (id : ValueId) : Except Fault ValueDef :=
  match p.value? id with
  | some v => .ok v
  | none => .error (.defect (.valueRange id))

def getProducer (p : Program) (id : ValueId) : Except Fault Instr := do
  p.getInstr (← p.getValue id).producer

def instrsIn (p : Program) (id : FuncId) : Except Fault (List InstId) := do
  match (← p.getFunction id).body with
  | some b => return instrsOf b.nodes
  | none => return []

/-! ### Additions -/

def addFunction (p : Program) (name : String) : FuncId × Program :=
  (⟨UInt32.ofNat p.functions.size⟩, { p with functions := p.functions.push { name } })

def setBody (p : Program) (id : FuncId) (body : Option Body) : Except Fault Program := do
  let f ← p.getFunction id
  return { p with functions := p.functions.setIfInBounds id.index.toNat { f with body } }

def modifyBody (p : Program) (id : FuncId) (change : Body → Body) : Except Fault Program := do
  let b ← p.getBody id
  p.setBody id (some (change b))

/-- Add a variable. A local one is listed in its owner's body, a parameter only records its owner,
and every other variable is listed among the globals. -/
def addVariable (p : Program) (var : Variable) (owner : Option FuncId) :
    Except Fault VarId × Program :=
  let id : VarId := ⟨UInt32.ofNat p.vars.size⟩
  let push (owner : Option FuncId) : Program :=
    { p with vars := p.vars.push { var with owner } }
  if var.storage.isFunctionOwned then
    match owner with
    | none => (.error (.defect (.ownerlessVariable var.storage var.name)), p)
    | some f =>
      let p := push (some f)
      if var.storage = .functionLocal then
        match p.modifyBody f fun b => { b with locals := b.locals.push id } with
        | .ok p => (.ok id, p)
        | .error e => (.error e, p)
      else (.ok id, p)
  else
    let p := push none
    (.ok id, { p with globals := p.globals.push id })

def isFull (p : Program) : Bool :=
  match p.instrLimit with
  | some limit => limit ≤ UInt32.ofNat p.instrs.size
  | none => false

def addEffect (p : Program) (operation : Operation) : Except OutOfMemory (InstId × Program) :=
  if p.isFull then .error ⟨"instructions", none⟩
  else
    .ok (⟨UInt32.ofNat p.instrs.size⟩, { p with instrs := p.instrs.push ⟨operation, none⟩ })

def addValue (p : Program) (operation : Operation) (width bitSize : UInt8) :
    Except OutOfMemory (InstId × ValueId × Program) :=
  if p.isFull then .error ⟨"instructions", none⟩
  else
    let inst : InstId := ⟨UInt32.ofNat p.instrs.size⟩
    let value : ValueId := ⟨UInt32.ofNat p.values.size⟩
    .ok (inst, value, { p with
      values := p.values.push ⟨width, bitSize, inst⟩
      instrs := p.instrs.push ⟨operation, some value⟩ })

end ShaderSSA.Target.Program
