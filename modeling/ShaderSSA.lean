import ShaderSSA.CommandLine.Directory
import ShaderSSA.Main
import ShaderSSA.Proofs.Thread
import ShaderSSA.Proofs.Invariants
import ShaderSSA.Proofs.Skeleton
import ShaderSSA.Proofs.Tree
import ShaderSSA.Proofs.Code
import ShaderSSA.Proofs.Evaluation
import ShaderSSA.Proofs.Calls
import ShaderSSA.Proofs.Statements
import ShaderSSA.Proofs.Programs
import ShaderSSA.Proofs.Order
import ShaderSSA.Proofs.Booleans
import ShaderSSA.Proofs.Copies
import ShaderSSA.Proofs.WellFormed
import ShaderSSA.Proofs.Progress
import ShaderSSA.Proofs.Resources
import ShaderSSA.Proofs.Success
import ShaderSSA.Proofs.Semantics
import ShaderSSA.Proofs.Typing
import ShaderSSA.Proofs.Machine
import ShaderSSA.Proofs.Execution
import ShaderSSA.Proofs.Opcodes
import ShaderSSA.Proofs.Meaning
import ShaderSSA.Proofs.Cap
import ShaderSSA.Proofs.FloatOnly
import ShaderSSA.Proofs.Functions
import ShaderSSA.Proofs.Weave
import ShaderSSA.Proofs.Chains
import ShaderSSA.Proofs.Linear
import ShaderSSA.Proofs.Likeness
import ShaderSSA.Proofs.Parallel
import ShaderSSA.Proofs.ParallelValues
import ShaderSSA.Proofs.ParallelStatements
import ShaderSSA.Proofs.Twins
import ShaderSSA.Proofs.Modes
import ShaderSSA.Proofs.Handles
import ShaderSSA.Proofs.Inspection
import ShaderSSA.Proofs.Upkeep
import ShaderSSA.Proofs.Homes
import ShaderSSA.Proofs.Owners
import ShaderSSA.Proofs.Independence
import ShaderSSA.Proofs.Reading
import ShaderSSA.Proofs.Shapes
import ShaderSSA.Proofs.TypeText
import ShaderSSA.Proofs.SourceText
import ShaderSSA.Proofs.TargetText
import ShaderSSA.Proofs.Accesses
import ShaderSSA.Proofs.Literals
import ShaderSSA.Proofs.Places
import ShaderSSA.Proofs.Packing
import ShaderSSA.Proofs.Cells
import ShaderSSA.Proofs.MaskedStores
import ShaderSSA.Proofs.Additions
import ShaderSSA.Proofs.Discards
import ShaderSSA.Proofs.Summary
import ShaderSSA.Proofs.Textures
import ShaderSSA.Proofs.Pieces
import ShaderSSA.Proofs.Images
import ShaderSSA.Proofs.Marshalling
import ShaderSSA.Proofs.Operands
import ShaderSSA.Proofs.Temporaries
import ShaderSSA.Proofs.Traversals
import ShaderSSA.Proofs.Nesting
import ShaderSSA.Proofs.Interleaving
import ShaderSSA.Proofs.AppendOnly
