import ShaderSSA.Source.Tree
import ShaderSSA.Target.Inspect

/-!
# What lowering reports on the way
-/

namespace ShaderSSA.Lowering

inductive LogLevel where
  | error
  | info
  | debug
  | trace
deriving DecidableEq

namespace LogLevel

def name : LogLevel → String
  | .error => "ERROR"
  | .info => "INFO"
  | .debug => "DEBUG"
  | .trace => "TRACE"

/-- More severe levels come first. -/
def rank : LogLevel → Nat
  | .error => 0
  | .info => 1
  | .debug => 2
  | .trace => 3

end LogLevel

inductive Event where
  | registered (name : String) (id : Target.FuncId)
  | declaredOnly (name : String)
  | bound (source : Source.VarId) (target : Target.VarId)
  | declared (name : String) (storage : Target.StorageClass) (id : Target.VarId)
  | emitted (id : Target.InstId) (operation : Target.Operation)
  | bodyLowered (name : String) (nodes : Nat)
  | finished (stage : Stage) (name : String) (functions instructions values : Nat)
  | aborted (message : String)

namespace Event

def level : Event → LogLevel
  | .registered .. | .declaredOnly _ | .bodyLowered .. => .debug
  | .bound .. | .declared .. | .emitted .. => .trace
  | .finished .. => .info
  | .aborted _ => .error

def message : Event → String
  | .registered name id => "registered function `" ++ name ++ "` as #" ++ toString id.index
  | .declaredOnly name => "`" ++ name ++ "` is declared only"
  | .bound source target =>
    "bound source variable #" ++ toString source.index ++ " -> var #" ++ toString target.index
  | .declared name storage id =>
    "declared `" ++ name ++ "` as " ++ storage.name ++ " var #" ++ toString id.index
  | .emitted id operation => "emit #" ++ toString id.index ++ ": " ++ operation.inspect
  | .bodyLowered name nodes =>
    "lowered `" ++ name ++ "`: " ++ toString nodes ++ " top-level nodes"
  | .finished stage name functions instructions values =>
    "lowered " ++ stage.text ++ " shader `" ++ name ++ "`: " ++ toString functions ++
      " functions, " ++ toString instructions ++ " instructions, " ++ toString values ++ " values"
  | .aborted message => message

def report (limit : LogLevel) (events : List Event) : List String :=
  (events.filter fun e => e.level.rank ≤ limit.rank).map fun e => e.level.name ++ " " ++ e.message

end Event

end ShaderSSA.Lowering
