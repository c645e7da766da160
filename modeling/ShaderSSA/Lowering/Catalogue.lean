import ShaderSSA.Source.Operator
import ShaderSSA.Target.Opcode
import ShaderSSA.Text.Inspect

/-!
# The catalogue of built-in functions

Each built-in function has a rule: the target operation it becomes and a recipe for its operands.
-/

namespace ShaderSSA.Lowering

open Target

inductive OpChoice where
  | fixed (op : IntrinsicOp)
  /-- Decided by the type of the place that the result goes to. -/
  | bySignedness (signed unsigned : IntrinsicOp)
deriving DecidableEq

/-- The layout of the operands. `data` is the number of value parameters at the end. -/
inductive Recipe where
  | atomicCounter (data : Nat)
  | image (data : Nat)
  | imageQuery
  | barrier
  | clock
  | ssboLoad
  | ssboStore
  | ssboAtomic (data : Nat)
  | sharedLoad
  | sharedStore
  | sharedAtomic (data : Nat)
  | vote
  | ballot
  | readInvocation
  | readFirstInvocation
deriving DecidableEq

structure Rule where
  op : OpChoice
  recipe : Recipe
deriving DecidableEq

def OpChoice.inspect : OpChoice → String
  | .fixed op => Inspect.call "Fixed" [op.name]
  | .bySignedness signed unsigned =>
    Inspect.record "BySignedness" [("signed", signed.name), ("unsigned", unsigned.name)]

def Recipe.inspect : Recipe → String
  | .atomicCounter data => Inspect.record "AtomicCounter" [("data", toString data)]
  | .image data => Inspect.record "Image" [("data", toString data)]
  | .imageQuery => "ImageQuery"
  | .barrier => "Barrier"
  | .clock => "Clock"
  | .ssboLoad => "SsboLoad"
  | .ssboStore => "SsboStore"
  | .ssboAtomic data => Inspect.record "SsboAtomic" [("data", toString data)]
  | .sharedLoad => "SharedLoad"
  | .sharedStore => "SharedStore"
  | .sharedAtomic data => Inspect.record "SharedAtomic" [("data", toString data)]
  | .vote => "Vote"
  | .ballot => "Ballot"
  | .readInvocation => "ReadInvocation"
  | .readFirstInvocation => "ReadFirstInvocation"

def ruleOf : IntrinsicId → Rule
  | .atomicCounterRead => ⟨.fixed .atomicCounterReadDeref, .atomicCounter 0⟩
  | .atomicCounterIncrement => ⟨.fixed .atomicCounterIncDeref, .atomicCounter 0⟩
  | .atomicCounterPredecrement => ⟨.fixed .atomicCounterPreDecDeref, .atomicCounter 0⟩
  | .atomicCounterAdd => ⟨.fixed .atomicCounterAddDeref, .atomicCounter 1⟩
  | .atomicCounterAnd => ⟨.fixed .atomicCounterAndDeref, .atomicCounter 1⟩
  | .atomicCounterOr => ⟨.fixed .atomicCounterOrDeref, .atomicCounter 1⟩
  | .atomicCounterXor => ⟨.fixed .atomicCounterXorDeref, .atomicCounter 1⟩
  | .atomicCounterMin => ⟨.fixed .atomicCounterMinDeref, .atomicCounter 1⟩
  | .atomicCounterMax => ⟨.fixed .atomicCounterMaxDeref, .atomicCounter 1⟩
  | .atomicCounterExchange => ⟨.fixed .atomicCounterExchangeDeref, .atomicCounter 1⟩
  | .atomicCounterCompSwap => ⟨.fixed .atomicCounterCompSwapDeref, .atomicCounter 2⟩
  | .imageLoad => ⟨.fixed .imageDerefLoad, .image 0⟩
  | .imageStore => ⟨.fixed .imageDerefStore, .image 1⟩
  | .imageAtomicAdd => ⟨.fixed .imageDerefAtomicAdd, .image 1⟩
  | .imageAtomicMin => ⟨.bySignedness .imageDerefAtomicImin .imageDerefAtomicUmin, .image 1⟩
  | .imageAtomicMax => ⟨.bySignedness .imageDerefAtomicImax .imageDerefAtomicUmax, .image 1⟩
  | .imageAtomicAnd => ⟨.fixed .imageDerefAtomicAnd, .image 1⟩
  | .imageAtomicOr => ⟨.fixed .imageDerefAtomicOr, .image 1⟩
  | .imageAtomicXor => ⟨.fixed .imageDerefAtomicXor, .image 1⟩
  | .imageAtomicExchange => ⟨.fixed .imageDerefAtomicExchange, .image 1⟩
  | .imageAtomicCompSwap => ⟨.fixed .imageDerefAtomicCompSwap, .image 2⟩
  | .imageSize => ⟨.fixed .imageDerefSize, .imageQuery⟩
  | .imageSamples => ⟨.fixed .imageDerefSamples, .imageQuery⟩
  | .memoryBarrier => ⟨.fixed .memoryBarrier, .barrier⟩
  | .memoryBarrierAtomicCounter => ⟨.fixed .memoryBarrierAtomicCounter, .barrier⟩
  | .memoryBarrierBuffer => ⟨.fixed .memoryBarrierBuffer, .barrier⟩
  | .memoryBarrierImage => ⟨.fixed .memoryBarrierImage, .barrier⟩
  | .memoryBarrierShared => ⟨.fixed .memoryBarrierShared, .barrier⟩
  | .groupMemoryBarrier => ⟨.fixed .groupMemoryBarrier, .barrier⟩
  | .shaderClock => ⟨.fixed .shaderClock, .clock⟩
  | .ssboLoad => ⟨.fixed .loadSsbo, .ssboLoad⟩
  | .ssboStore => ⟨.fixed .storeSsbo, .ssboStore⟩
  | .ssboAtomicAdd => ⟨.fixed .ssboAtomicAdd, .ssboAtomic 1⟩
  | .ssboAtomicMin => ⟨.bySignedness .ssboAtomicImin .ssboAtomicUmin, .ssboAtomic 1⟩
  | .ssboAtomicMax => ⟨.bySignedness .ssboAtomicImax .ssboAtomicUmax, .ssboAtomic 1⟩
  | .ssboAtomicAnd => ⟨.fixed .ssboAtomicAnd, .ssboAtomic 1⟩
  | .ssboAtomicOr => ⟨.fixed .ssboAtomicOr, .ssboAtomic 1⟩
  | .ssboAtomicXor => ⟨.fixed .ssboAtomicXor, .ssboAtomic 1⟩
  | .ssboAtomicExchange => ⟨.fixed .ssboAtomicExchange, .ssboAtomic 1⟩
  | .ssboAtomicCompSwap => ⟨.fixed .ssboAtomicCompSwap, .ssboAtomic 2⟩
  | .sharedLoad => ⟨.fixed .loadShared, .sharedLoad⟩
  | .sharedStore => ⟨.fixed .storeShared, .sharedStore⟩
  | .sharedAtomicAdd => ⟨.fixed .sharedAtomicAdd, .sharedAtomic 1⟩
  | .sharedAtomicMin => ⟨.bySignedness .sharedAtomicImin .sharedAtomicUmin, .sharedAtomic 1⟩
  | .sharedAtomicMax => ⟨.bySignedness .sharedAtomicImax .sharedAtomicUmax, .sharedAtomic 1⟩
  | .sharedAtomicAnd => ⟨.fixed .sharedAtomicAnd, .sharedAtomic 1⟩
  | .sharedAtomicOr => ⟨.fixed .sharedAtomicOr, .sharedAtomic 1⟩
  | .sharedAtomicXor => ⟨.fixed .sharedAtomicXor, .sharedAtomic 1⟩
  | .sharedAtomicExchange => ⟨.fixed .sharedAtomicExchange, .sharedAtomic 1⟩
  | .sharedAtomicCompSwap => ⟨.fixed .sharedAtomicCompSwap, .sharedAtomic 2⟩
  | .voteAny => ⟨.fixed .voteAny, .vote⟩
  | .voteAll => ⟨.fixed .voteAll, .vote⟩
  | .voteEq => ⟨.fixed .voteIeq, .vote⟩
  | .ballot => ⟨.fixed .ballot, .ballot⟩
  | .readInvocation => ⟨.fixed .readInvocation, .readInvocation⟩
  | .readFirstInvocation => ⟨.fixed .readFirstInvocation, .readFirstInvocation⟩

/-- How many parameters a recipe takes; an access to a multisample image takes one more. -/
def Recipe.arity (multisample : Bool) : Recipe → Nat
  | .atomicCounter data => 1 + data
  | .image data => 2 + (if multisample then 1 else 0) + data
  | .imageQuery => 1
  | .barrier => 0
  | .clock => 0
  | .ssboLoad => 2
  | .ssboStore => 4
  | .ssboAtomic data => 2 + data
  | .sharedLoad => 1
  | .sharedStore => 3
  | .sharedAtomic data => 1 + data
  | .vote => 1
  | .ballot => 1
  | .readInvocation => 2
  | .readFirstInvocation => 1

end ShaderSSA.Lowering
