import ShaderSSA.CommandLine.Run

/-!
# The program
-/

namespace ShaderSSA

def osError : IO.Error → String
  | .noFileOrDirectory _ code details | .permissionDenied (some _) code details
  | .inappropriateType (some _) code details | .alreadyExists (some _) code details
  | .invalidArgument (some _) code details | .resourceExhausted (some _) code details
  | .inappropriateType none code details | .permissionDenied none code details
  | .otherError code details =>
    details ++ " (os error " ++ toString code ++ ")"
  | e => toString e

def systemFiles : CommandLine.FileAccess IO where
  read path := do
    try return .ok (← IO.FS.readBinFile path)
    catch e => return .error (osError e)
  write path text := do
    try
      IO.FS.writeFile path text
      return .ok ()
    catch e => return .error (osError e)

end ShaderSSA

def main (args : List String) : IO UInt32 := do
  let t ← ShaderSSA.CommandLine.run ShaderSSA.systemFiles args
  IO.print t.out
  IO.eprint t.err
  if let some message := t.crash then IO.eprintln message
  return t.exit
