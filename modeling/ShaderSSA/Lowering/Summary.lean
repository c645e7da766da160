import ShaderSSA.Target.Build

/-!
# What a lowered program uses

The last step of lowering counts the resources of the global variables in 32-bit words and finds the
entry point.
-/

namespace ShaderSSA.Lowering

open Target

def addCount (total count : UInt32) : Except Fault UInt32 :=
  if total.toNat + count.toNat < UInt32.size then .ok (total + count) else .error (.overflow .add)

def countHandles (info : Info) (type : ShaderType) (count : UInt32) : Except Fault Info :=
  match type.withoutArray with
  | .sampler _ => do return { info with textures := ← addCount info.textures count }
  | .image _ => do return { info with images := ← addCount info.images count }
  | .atomicUint => do return { info with atomicCounters := ← addCount info.atomicCounters count }
  | _ => .ok info

/-- An array of blocks binds a buffer for each element, any other buffer variable one. -/
def bufferCount (var : Variable) (count : UInt32) : UInt32 :=
  if var.interfaceBlock.isSome && var.type.isArray then count else 1

def countBuffers (info : Info) (var : Variable) (count : UInt32) : Except Fault Info :=
  match var.storage with
  | .uniformBuffer => do
    return { info with uniformBuffers := ← addCount info.uniformBuffers (bufferCount var count) }
  | .storageBuffer => do
    return { info with storageBuffers := ← addCount info.storageBuffers (bufferCount var count) }
  | _ => .ok info

def noteDistances (info : Info) (builtin : Option Builtin) (count : UInt32) : Info :=
  match builtin with
  | some .clipDistance => { info with clipDistances := count }
  | some .cullDistance => { info with cullDistances := count }
  | _ => info

def countVariable (info : Info) (var : Variable) : Except Fault Info :=
  match var.type.flattenedLength? with
  | none => .error (.overflow .multiply)
  | some count => do
    let info ← countHandles info var.type count
    let info ← countBuffers info var count
    return noteDistances info var.builtin count

def countVariables (p : Target.Program) : Info → List VarId → Except Fault Info
  | info, [] => .ok info
  | info, id :: ids => do
    let info ← countVariable info (← p.getVariable id)
    countVariables p info ids

def entryPoint? (functions : List Function) : Option String :=
  (functions.find? fun f => f.name = "main" && f.body.isSome).map (·.name)

def summarize (p : Target.Program) : Except Fault Info := do
  let info ← countVariables p p.info p.globals.toList
  return { info with entryPoint := entryPoint? p.functions.toList }

end ShaderSSA.Lowering
