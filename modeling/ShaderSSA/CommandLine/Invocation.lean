/-!
# Arguments of the command line

`parse` reads the arguments from left to right; the first one that is wrong, or that asks for help or
the version, decides.
-/

namespace ShaderSSA.CommandLine

structure Request where
  file : String
  noIntegers : Bool
  json : Bool
  stats : Bool
  maxInstructions : Option UInt32
  output : Option String
deriving DecidableEq

inductive Invocation where
  | lower (request : Request)
  | showVersion
  | showHelp
  | showLowerHelp
  | misuse
deriving DecidableEq

/-- The arguments of `lower` that have been read. -/
structure Options where
  file : Option String := none
  noIntegers : Bool := false
  json : Bool := false
  stats : Bool := false
  maxInstructions : Option UInt32 := none
  output : Option String := none

def digits? (cs : List Char) : Option Nat :=
  if cs.isEmpty || !cs.all Char.isDigit then none
  else some (cs.foldl (fun n c => 10 * n + (c.toNat - '0'.toNat)) 0)

def count? (text : String) : Option UInt32 :=
  let bounded (n : Nat) : Option UInt32 := if n < UInt32.size then some (UInt32.ofNat n) else none
  match text.toList with
  | '+' :: cs => (digits? cs).bind bounded
  | '-' :: cs => (digits? cs).bind fun n => if n = 0 then some 0 else none
  | cs => (digits? cs).bind bounded

namespace Options

def finish (o : Options) : Invocation :=
  match o.file with
  | some file =>
    .lower ⟨file, o.noIntegers, o.json, o.stats, o.maxInstructions, o.output⟩
  | none => .misuse

def withFile (o : Options) (file : String) : Option Options :=
  if o.file.isSome then none else some { o with file := some file }

def withFlag (o : Options) (name : String) : Option Options :=
  if name = "no-integers" then if o.noIntegers then none else some { o with noIntegers := true }
  else if name = "json" then if o.json then none else some { o with json := true }
  else if name = "stats" then if o.stats then none else some { o with stats := true }
  else none

def takesValue (name : String) : Bool := name = "max-instructions" || name = "output"

def withValue (o : Options) (name value : String) : Option Options :=
  if name = "output" then
    if o.output.isSome then none else some { o with output := some value }
  else if name = "max-instructions" then
    match o.maxInstructions, count? value with
    | none, some n => some { o with maxInstructions := some n }
    | _, _ => none
  else none

end Options

inductive Argument where
  /-- What follows are files, whatever they look like. -/
  | separator
  | flag (name : String)
  | setting (name value : String)
  /-- The value is the next argument. -/
  | pending (name : String)
  | help
  | file (name : String)
  | unknown
deriving DecidableEq

namespace Argument

/-- A name after two dashes, with a value if an equals sign follows. -/
def ofLong (cs : List Char) : Argument :=
  let name := String.ofList (cs.takeWhile (· ≠ '='))
  match cs.dropWhile (· ≠ '=') with
  | [] =>
    if Options.takesValue name then .pending name
    else if name = "help" then .help
    else .flag name
  | _ :: value => if Options.takesValue name then .setting name (String.ofList value) else .unknown

def ofShort : List Char → Argument
  | ['o'] => .pending "output"
  | 'o' :: '=' :: value => .setting "output" (String.ofList value)
  | 'o' :: value => .setting "output" (String.ofList value)
  | 'h' :: _ => .help
  | _ => .unknown

/-- A single dash is a file name. -/
def ofString (arg : String) : Argument :=
  match arg.toList with
  | ['-', '-'] => .separator
  | '-' :: '-' :: cs => ofLong cs
  | ['-'] => .file arg
  | '-' :: cs => ofShort cs
  | _ => .file arg

end Argument

def parseFiles (o : Options) : List String → Invocation
  | [] => o.finish
  | arg :: rest =>
    match o.withFile arg with
    | some o => parseFiles o rest
    | none => .misuse

def parseLower (o : Options) : List String → Invocation
  | [] => o.finish
  | arg :: rest =>
    match Argument.ofString arg with
    | .separator => parseFiles o rest
    | .help => .showLowerHelp
    | .unknown => .misuse
    | .file name =>
      match o.withFile name with
      | some o => parseLower o rest
      | none => .misuse
    | .flag name =>
      match o.withFlag name with
      | some o => parseLower o rest
      | none => .misuse
    | .setting name value =>
      match o.withValue name value with
      | some o => parseLower o rest
      | none => .misuse
    | .pending name =>
      match rest with
      | [] => .misuse
      | next :: rest =>
        match Argument.ofString next with
        | .file value =>
          match o.withValue name value with
          | some o => parseLower o rest
          | none => .misuse
        | _ => .misuse

def parse : List String → Invocation
  | "lower" :: rest => parseLower {} rest
  | ["help"] | ["help", "help"] => .showHelp
  | ["help", "lower"] => .showLowerHelp
  | arg :: _ =>
    match arg.toList with
    | '-' :: 'V' :: _ => .showVersion
    | '-' :: 'h' :: _ => .showHelp
    | _ =>
      if arg = "--version" then .showVersion
      else if arg = "--help" then .showHelp
      else .misuse
  | [] => .misuse

end ShaderSSA.CommandLine
