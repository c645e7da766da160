import ShaderSSA.Target.Build

/-!
# The dump of a target program

`Program.dump` is the readable text of a program, a list of lines: its globals, then each function with
its variables and its regions. Handles that are out of range are faults.
-/

namespace ShaderSSA.Target

namespace Constant

def patternText (bitSize : UInt8) (bits : UInt64) : String :=
  let digits := Inspect.hexChars bits.toNat
  let width := (bitSize.toNat + 3) / 4
  "0x" ++ String.ofList (List.replicate (width - digits.length) '0' ++ digits)

mutual

def text : Constant → String
  | .numeric bitSize _ _ bits => "(" ++ ", ".intercalate (bits.map (patternText bitSize)) ++ ")"
  | .aggregate elements => "\x7b" ++ ", ".intercalate (texts elements) ++ "\x7d"

def texts : List Constant → List String
  | [] => []
  | c :: cs => c.text :: texts cs

end

end Constant

namespace Program

def linkText (p : Program) (kind : LinkKind) : Except Fault String :=
  match kind with
  | .var v => return "&" ++ (← p.getVariable v).name
  | .struct index => return "." ++ toString index
  | .array (.direct index) => return "[" ++ toString index ++ "]"
  | .array (.indirect value) => return "[" ++ value.text ++ "]"

def locationText (p : Program) (head : LinkId) : Except Fault String := do
  return String.join (← p.links.visit (fun _ link => p.linkText link.kind) head)

def laneLetter (c : UInt8) : Char :=
  match c.toNat % 4 with
  | 0 => 'x'
  | 1 => 'y'
  | 2 => 'z'
  | _ => 'w'

/-- The lanes of an operand of the given width, unless each reads its own component. -/
def lanesText (lanes : Lanes) (width : UInt8) : Except Fault String :=
  if lanes.isIdentity width then
    if 4 < width then .error (.outOfBounds 4 4)
    else if width = 0 then .ok letters
    else .ok ""
  else .ok letters
where
  letters : String := "." ++ String.ofList (lanes.toList.map laneLetter)

def aluSrcText (p : Program) (s : AluSrc) : Except Fault String := do
  let def_ ← p.getValue s.value
  return s.value.text ++ (← lanesText s.lanes def_.width)

def srcText (p : Program) : Src → Except Fault String
  | .ssa v => .ok v.text
  | .location head => p.locationText head

def indicesText (i : Indices) : String :=
  let mask := match i.writeMask with
    | some m => " (wrmask=0x" ++ String.ofList (Inspect.hexChars m.toNat) ++ ")"
    | none => ""
  let base := match i.base with
    | some b => " (base=" ++ toString b ++ ")"
    | none => ""
  let stream := match i.stream with
    | some s => " (stream=" ++ toString s ++ ")"
    | none => ""
  mask ++ base ++ stream

def operationText (p : Program) : Operation → Except Fault String
  | .alu op [] => return op.text
  | .alu op srcs => return op.text ++ " " ++ ", ".intercalate (← srcs.mapM p.aluSrcText)
  | .intrinsic op srcs indices =>
    return op.text ++ " (" ++ ", ".intercalate (← srcs.mapM p.srcText) ++ ")" ++ indicesText indices
  | .tex t =>
    return "tex." ++ Text.snakeCase t.op.name ++ " " ++ (← p.locationText t.texture) ++
      String.join (t.srcs.map fun s => ", " ++ s.value.text ++ " (" ++ s.kind.name ++ ")")
  | .call callee params result => do
    let f ← p.getFunction callee
    let args ← params.mapM p.locationText
    let target ← match result with
      | some head => pure (" -> " ++ (← p.locationText head))
      | none => pure ""
    return "call " ++ f.name ++ " (" ++ ", ".intercalate args ++ ")" ++ target
  | .jump kind => .ok kind.text
  | .undef => .ok "undefined"
  | .loadConst _ bits =>
    let patterns := bits.map fun b => "0x" ++ String.ofList (Inspect.hexChars b.toNat)
    .ok ("load_const (" ++ ", ".intercalate patterns ++ ")")

def instrText (p : Program) (i : Instr) : Except Fault String := do
  let dest ← match i.dest with
    | some v =>
      let def_ ← p.getValue v
      pure ("vec" ++ toString def_.width ++ " " ++ toString def_.bitSize ++ ": " ++ v.text ++ " = ")
    | none => pure ""
  return dest ++ (← p.operationText i.operation)

def indent (depth : Nat) : String := String.ofList (List.replicate (4 * depth) ' ')

mutual

def nodeLines (p : Program) (depth : Nat) : Node → Except Fault (List String)
  | .instr id => do
    let i ← p.getInstr id
    return [indent depth ++ (← p.instrText i)]
  | .branch condition thenBody elseBody => do
    let thenLines ← nodesLines p (depth + 1) thenBody
    let elseLines ← nodesLines p (depth + 1) elseBody
    let alternative := match elseBody with
      | [] => []
      | _ :: _ => (indent depth ++ "\x7d else \x7b") :: elseLines
    return (indent depth ++ "if " ++ condition.text ++ " \x7b") :: thenLines ++ alternative ++
      [indent depth ++ "\x7d"]
  | .loop body => do
    let lines ← nodesLines p (depth + 1) body
    return (indent depth ++ "loop \x7b") :: lines ++ [indent depth ++ "\x7d"]

def nodesLines (p : Program) (depth : Nat) : List Node → Except Fault (List String)
  | [] => .ok []
  | n :: ns => do
    let lines ← nodeLines p depth n
    let rest ← nodesLines p depth ns
    return lines ++ rest

end

def declarationText (v : Variable) : String :=
  let value := match v.initializer with
    | some c => " = " ++ c.text
    | none => ""
  "decl_var " ++ v.storage.name ++ " " ++ v.type.text ++ " " ++ v.name ++ value

def functionLines (p : Program) (f : Function) : Except Fault (List String) :=
  match f.body with
  | none => return ["", "decl_function " ++ f.name ++ " (extern)"]
  | some b => do
    let params ← b.params.toList.mapM fun id => do
      let v ← p.getVariable id
      return "    decl_param " ++ v.type.text ++ " " ++ v.name
    let locals ← b.locals.toList.mapM fun id => do
      return "    " ++ declarationText (← p.getVariable id)
    let nodes ← p.nodesLines 1 b.nodes
    return ["", "impl " ++ f.name ++ " \x7b"] ++ params ++ locals ++ nodes ++ ["\x7d"]

def dumpLines (p : Program) : Except Fault (List String) := do
  let entry := match p.info.entryPoint with
    | some name => ["entry: " ++ name]
    | none => []
  let globals ← p.globals.toList.mapM fun id => do
    return declarationText (← p.getVariable id)
  let functions ← p.functions.toList.mapM p.functionLines
  return ["shader: " ++ p.info.name ++ " (" ++ p.info.stage.text ++ ")"] ++ entry ++ globals ++
    functions.flatten

/-- The dump: every line ends in a line break. -/
def dump (p : Program) : Except Fault String := do
  return String.join ((← p.dumpLines).map fun line => line ++ "\n")

end Program

end ShaderSSA.Target
