import ShaderSSA.Lowering.Call

/-!
# Declarations and statements

A statement is lowered into the open region. The bodies of loops and branches are lowered into regions
of their own, which are then attached to the open one.
-/

namespace ShaderSSA.Lowering

open Source Target Lower

/-! ### Declarations -/

def storageOf (decl : VarDecl) (owner : Option FuncId) : StorageClass :=
  match decl.mode with
  | .auto | .temporary => if owner.isSome then .functionLocal else .global
  | .constIn => .functionLocal
  | .uniform => if decl.interfaceBlock.isSome then .uniformBuffer else .uniform
  | .shaderStorage => .storageBuffer
  | .shaderIn => .shaderIn
  | .shaderOut => .shaderOut
  | .systemValue => .systemValue
  | .shared => .shared
  | .functionIn | .functionOut | .functionInout => .param

def isPacked (builtin : Option Builtin) : Bool :=
  builtin = some .clipDistance || builtin = some .cullDistance

def initializerOf (nativeIntegers : Bool) : Option Literal → Except Fault (Option Constant)
  | none => .ok none
  | some literal => do return some (← constantOf nativeIntegers literal)

def declare (source : Source.Program) (id : Source.VarId) : Lower Target.VarId := do
  let decl ← check (source.getVariable id)
  let owner := (← scope).current
  let storage := storageOf decl owner
  let initializer ← check (initializerOf (← nativeIntegers) decl.initializer)
  let var ← addVariable
    { name := decl.name
      type := decl.type
      storage
      location := decl.location
      binding := decl.binding
      interpolation := decl.interpolation
      readOnly := decl.readOnly
      compact := isPacked decl.builtin
      builtin := decl.builtin
      interfaceBlock := decl.interfaceBlock
      initializer } owner
  setScope (← check ((← scope).bindVariable id var))
  report (.bound id var)
  report (.declared decl.name storage var)
  return var

/-! ### Assignments -/

def guarded (source : Source.Program) (condition : Option Rvalue) (emission : Lower Unit) :
    Lower Unit := do
  match condition with
  | none => emission
  | some c =>
    let c ← evaluate source c
    let thenRegion ← inRegion emission
    modifyRegion (·.pushBranch c thenRegion {})

/-- The component of a packed value that a written channel takes; others take the first. -/
def packedLane (mask width : UInt8) (channel : Nat) : UInt8 :=
  let written (i : Nat) : Bool := i < width.toNat && mask.toNat.testBit i
  if written channel then UInt8.ofNat ((List.range channel).countP written) else 0

/-- Spread the components of a value over the channels that the mask writes. -/
def packedLanes (mask width : UInt8) : Lanes := .ofFn (packedLane mask width)

/-- Assign to a place. An unmasked value with a location of its own is copied as a whole. -/
def assign (source : Source.Program) (target : Place) (value : Rvalue) (mask : UInt8)
    (condition : Option Rvalue) : Lower Unit := do
  let width := target.type.rows
  let full ← check (fullMask width)
  if value.isStored && (mask = full || mask = 0) then
    let dst ← placeChain source target
    let src ← locationChain source value
    guarded source condition (copyLocation dst.head src.head)
  else
    let mask := if mask = 0 then full else mask
    let dst ← placeChain source target
    let value ← evaluate source value
    let value ← if mask = full then pure value else reorder value (packedLanes mask width) width
    guarded source condition (storeLocation dst.head value mask)

/-! ### Returns -/

def returnVariable : Lower Target.VarId := do
  match (← scope).current with
  | none => abort .returnOutsideFunction
  | some id =>
    let function ← check ((← program).getFunction id)
    match function.body.bind Body.returnVar with
    | some var => return var
    | none => abort (.noReturnVariable function.name)

def storeReturn (source : Source.Program) (value : Rvalue) : Lower Unit := do
  let var ← returnVariable
  let type := (← check ((← program).getVariable var)).type
  if value.isStored then
    let dst ← rootChain var type
    let src ← locationChain source value
    copyLocation dst.head src.head
  else
    let value ← evaluate source value
    let dst ← rootChain var type
    let mask ← check (fullMask (← valueDef value).width)
    storeLocation dst.head value mask

/-! ### Statements -/

def loopJump : LoopJump → JumpKind
  | .breakLoop => .breakLoop
  | .continueLoop => .continueLoop

def emitStream (op : IntrinsicOp) (kind : String) (stream : Rvalue) : Lower Unit := do
  match stream.word? with
  | some s => emitEffect (.intrinsic op [] { stream := some s })
  | none => abort (.streamNotConstant kind)

mutual

def lowerStmt (source : Source.Program) : Stmt → Lower Unit
  | .declare id => do
    let _ ← declare source id
  | .function name _ => abort (.nestedDefinition name)
  | .loop body => do
    let inner ← inRegion (lowerStmts source body)
    modifyRegion (·.pushLoop inner)
  | .branch condition thenBody elseBody => do
    let c ← evaluate source condition
    let thenRegion ← inRegion (lowerStmts source thenBody)
    let elseRegion ← inRegion (lowerStmts source elseBody)
    modifyRegion (·.pushBranch c thenRegion elseRegion)
  | .discard condition => do
    match condition with
    | some c =>
      let c ← evaluate source c
      emitEffect (.intrinsic .discardIf [.ssa c] {})
    | none => emitEffect (.intrinsic .discard [] {})
    let p ← program
    setProgram { p with info := { p.info with usesDiscard := true } }
  | .jump jump => emitEffect (.jump (loopJump jump))
  | .ret value => do
    match value with
    | some r => storeReturn source r
    | none => pure ()
    emitEffect (.jump .leaveFunction)
  | .call call => lowerCall source call
  | .assign target value mask condition => assign source target value mask condition
  | .emitVertex stream => emitStream .emitVertex "emit-vertex" stream
  | .endPrimitive stream => emitStream .endPrimitive "end-primitive" stream
  | .barrier => emitEffect (.intrinsic .barrier [] {})

def lowerStmts (source : Source.Program) : List Stmt → Lower Unit
  | [] => return
  | s :: ss => do
    lowerStmt source s
    lowerStmts source ss

end

end ShaderSSA.Lowering
