import ShaderSSA.CommandLine.Invocation
import ShaderSSA.Lowering.Program
import ShaderSSA.Table
import ShaderSSA.Target.Dump
import ShaderSSA.Target.Json

/-!
# Runs of the command line

`run` is the whole program over an abstract way to read and write files; what it prints and how it
exits is a `Transcript`. `Directory` is a directory of files in memory.
-/

namespace ShaderSSA.CommandLine

/-- Reading and writing of files. A failure is the text of the operating system's error. -/
structure FileAccess (m : Type → Type) where
  read : String → m (Except String ByteArray)
  write : String → String → m (Except String Unit)

structure Transcript where
  exit : UInt32 := 0
  out : String := ""
  err : String := ""
  crash : Option String := none

namespace Transcript

def print (t : Transcript) (text : String) : Transcript := { t with out := t.out ++ text }

def status (t : Transcript) (tag text : String) : Transcript :=
  { t with err := t.err ++ tag ++ ": " ++ text ++ "\n" }

def fail (t : Transcript) (text : String) : Transcript :=
  { t.status "error" text with exit := 1 }

def abort (t : Transcript) (f : Fault) : Transcript :=
  { t with exit := 101, crash := some f.message }

end Transcript

def version : String := "glint 0.1.0\n"

def textOfLines (lines : List String) : String := String.join (lines.map (· ++ "\n"))

def help : String := textOfLines [
  "Lower serialized shader trees into structured SSA",
  "",
  "Usage: glint <COMMAND>",
  "",
  "Commands:",
  "  lower  Lower a JSON-encoded source shader",
  "  help   Print this message or the help of the given subcommand(s)",
  "",
  "Options:",
  "  -h, --help     Print help",
  "  -V, --version  Print version"]

def lowerHelp : String := textOfLines [
  "Lower a JSON-encoded source shader",
  "",
  "Usage: glint lower [OPTIONS] <file>",
  "",
  "Arguments:",
  "  <file>  The source shader to lower",
  "",
  "Options:",
  "      --no-integers           Target a backend without native integer support",
  "      --json                  Print the lowered shader as JSON",
  "      --stats                 Print per-function instruction counts",
  "      --max-instructions <N>  Fail once the lowered shader exceeds N instructions",
  "  -o, --output <FILE>         Write the lowered shader to FILE instead of stdout",
  "  -h, --help                  Print help"]

def usage : String := textOfLines [
  "Usage: glint lower [OPTIONS] <file>",
  "",
  "For more information, try '--help'."]

namespace Request

def capabilities (r : Request) : Lowering.Capabilities :=
  { nativeIntegers := !r.noIntegers, maxInstructions := r.maxInstructions }

def render (r : Request) (p : Target.Program) : Except Fault String :=
  if r.json then .ok p.encode else p.dump

def renderStats (r : Request) (p : Target.Program) : Except Fault String :=
  if r.stats then do return (← p.tallyTable).text ++ "\n" else .ok ""

def conclude (r : Request) (p : Target.Program) (t : Transcript) : Transcript :=
  match r.renderStats p with
  | .error f => t.abort f
  | .ok stats =>
    (t.print stats).status "done"
      ("lowered " ++ p.info.name ++ " (" ++ toString p.functions.size ++ " functions)")

def deliver [Monad m] (files : FileAccess m) (r : Request) (p : Target.Program) (t : Transcript) :
    m Transcript :=
  match r.render p, r.output with
  | .error f, _ => return t.abort f
  | .ok text, none => return r.conclude p (t.print text)
  | .ok text, some path => do
    match ← files.write path text with
    | .error e => return t.fail ("cannot write " ++ path ++ ": " ++ e)
    | .ok () => return r.conclude p (t.status "info" ("wrote " ++ path))

def run [Monad m] (files : FileAccess m) (r : Request) : m Transcript := do
  let t : Transcript := {}
  let t :=
    if r.noIntegers then t.status "warning" "integers and booleans will be carried as floats" else t
  match ← files.read r.file with
  | .error e => return t.fail ("cannot read " ++ r.file ++ ": " ++ e)
  | .ok bytes =>
    match String.fromUTF8? bytes with
    | none => return t.fail ("cannot read " ++ r.file ++ ": stream did not contain valid UTF-8")
    | some text =>
      match Lowering.lowerText text r.capabilities with
      | .ok p => deliver files r p t
      | .error e =>
        match e.diagnostic with
        | .ok d => return t.fail d.line
        | .error f => return t.abort f

end Request

def run [Monad m] (files : FileAccess m) (args : List String) : m Transcript :=
  match parse args with
  | .lower request => request.run files
  | .showVersion => return { out := version }
  | .showHelp => return { out := help }
  | .showLowerHelp => return { out := lowerHelp }
  | .misuse => return { exit := 2, err := usage }

end ShaderSSA.CommandLine
