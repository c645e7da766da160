import ShaderSSA.CommandLine.Run

/-!
# Directories in memory

`runIn` runs the program in a directory that holds files. A path is followed name by name, as the
operating system does it: from the directory or, after a leading slash, from the root. Of what lies
outside the directory only the null device is known.
-/

namespace ShaderSSA.CommandLine

inductive PathError where
  | noSuchFile
  | notDirectory
  | isDirectory
  | nameTooLong
deriving DecidableEq

def PathError.text : PathError → String
  | noSuchFile => "No such file or directory (os error 2)"
  | notDirectory => "Not a directory (os error 20)"
  | isDirectory => "Is a directory (os error 21)"
  | nameTooLong => "File name too long (os error 36)"

inductive Place where
  | here
  /-- A directory above this one. -/
  | above
  | root
  | devices
  | nullDevice
  | file (name : String)
deriving DecidableEq

namespace Place

def isDirectory : Place → Bool
  | here | above | root | devices => true
  | nullDevice | file _ => false

def parent : Place → Place
  | devices | root => root
  | _ => above

end Place

/-- A directory that holds files only. -/
abbrev Directory := List (String × ByteArray)

namespace Directory

def nameLimit : Nat := 255

def pathLimit : Nat := 4095

def names (path : String) : List String := (path.splitOn "/").filter (· ≠ "")

def start (path : String) : Place := if path.startsWith "/" then .root else .here

def find (d : Directory) (place : Place) (name : String) : Except PathError (Option Place) :=
  if !place.isDirectory then .error .notDirectory
  else if name = "." then .ok place
  else if name = ".." then .ok place.parent
  else if nameLimit < name.utf8ByteSize then .error .nameTooLong
  else
    match place with
    | .here => .ok (if (d.lookup name).isSome then some (.file name) else none)
    | .root => .ok (if name = "dev" then some .devices else none)
    | .devices => .ok (if name = "null" then some .nullDevice else none)
    | _ => .ok none

def follow (d : Directory) (place : Place) : List String → Except PathError Place
  | [] => .ok place
  | name :: rest => do
    match ← d.find place name with
    | some next => d.follow next rest
    | none => throw .noSuchFile

def checkLength (path : String) : Except PathError Unit :=
  if path.isEmpty then .error .noSuchFile
  else if pathLimit < path.utf8ByteSize then .error .nameTooLong
  else .ok ()

def read (d : Directory) (path : String) : Except PathError ByteArray := do
  checkLength path
  let place ← d.follow (start path) (names path)
  if place.isDirectory then throw .isDirectory
  if path.endsWith "/" then throw .notDirectory
  match place with
  | .file name =>
    match d.lookup name with
    | some bytes => return bytes
    | none => throw .noSuchFile
  | _ => return .empty

def insert (d : Directory) (name : String) (bytes : ByteArray) : Directory :=
  if (d.lookup name).isSome then d.map fun (n, b) => if n = name then (n, bytes) else (n, b)
  else d ++ [(name, bytes)]

/-- Write a file. A path that ends in a slash or in a dot names a directory. What is written outside
the directory leaves it as it is. -/
def write (d : Directory) (path : String) (bytes : ByteArray) : Except PathError Directory := do
  checkLength path
  match (names path).getLast? with
  | none => throw .isDirectory
  | some name =>
    let place ← d.follow (start path) (names path).dropLast
    if !place.isDirectory then throw .notDirectory
    if name = "." || name = ".." || path.endsWith "/" then throw .isDirectory
    match ← d.find place name with
    | some (.file name) => return d.insert name bytes
    | some found => if found.isDirectory then throw .isDirectory else return d
    | none => return if place = .here then d.insert name bytes else d

def files : FileAccess (StateM Directory) where
  read path := return ((← get).read path).mapError PathError.text
  write path text := do
    match (← get).write path text.toUTF8 with
    | .error e => return .error e.text
    | .ok d =>
      set d
      return .ok ()

def changes (before after : Directory) : Directory :=
  after.filter fun (name, bytes) => before.lookup name != some bytes

end Directory

/-- Run the program in a directory, and give the transcript and the files it has written. -/
def runIn (d : Directory) (args : List String) : Transcript × Directory :=
  let (t, after) := (run Directory.files args).run d
  (t, d.changes after)

end ShaderSSA.CommandLine
