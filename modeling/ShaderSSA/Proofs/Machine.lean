import ShaderSSA.Proofs.Semantics

/-!
A machine for straight-line code on 32-bit words. An instruction reads registers through the selectors of
its sources, or storage at the end of a chain, and writes the register of its value. Operations outside
integers and booleans have no meaning here, and executing one is an error.
-/

namespace ShaderSSA.Target
open Source (Datum)

variable {p : Program}

abbrev RegisterFile := ValueId → List UInt32

abbrev Memory := VarId → Stored UInt32

def RegisterFile.set (regs : RegisterFile) (v : ValueId) (words : List UInt32) : RegisterFile :=
  fun w => if w = v then words else regs w

def AluSrc.read (regs : RegisterFile) (src : AluSrc) (i : Nat) : Option UInt32 :=
  src.lanes.toList[i]?.bind fun c => (regs src.value)[c.toNat]?

namespace AluOp

/-- What an opcode makes of one lane of each source. Arithmetic is modulo 2^32, and comparisons give all ones
or zero. -/
def lanewise : AluOp → List UInt32 → Option UInt32
  | .imov, [a] => some a
  | .ineg, [a] => some (-a)
  | .inot, [a] => some (~~~a)
  | .iadd, [a, b] => some (a + b)
  | .isub, [a, b] => some (a - b)
  | .imul, [a, b] => some (a * b)
  | .imin, [a, b] => some (if a.toInt32 ≤ b.toInt32 then a else b)
  | .imax, [a, b] => some (if a.toInt32 ≤ b.toInt32 then b else a)
  | .umin, [a, b] => some (if a ≤ b then a else b)
  | .umax, [a, b] => some (if a ≤ b then b else a)
  | .iand, [a, b] => some (a &&& b)
  | .ior, [a, b] => some (a ||| b)
  | .ixor, [a, b] => some (a ^^^ b)
  | .ilt, [a, b] => some (Datum.truth (a.toInt32 < b.toInt32))
  | .ige, [a, b] => some (Datum.truth (b.toInt32 ≤ a.toInt32))
  | .ult, [a, b] => some (Datum.truth (a < b))
  | .uge, [a, b] => some (Datum.truth (b ≤ a))
  | .ieq, [a, b] => some (Datum.truth (a = b))
  | .ine, [a, b] => some (Datum.truth (a ≠ b))
  | .bcsel, [c, a, b] => some (if c = 0 then b else a)
  | _, _ => none

/-- How an opcode goes over the lanes of its sources. -/
inductive Shape where
  /-- Each lane by itself. -/
  | lanes
  /-- The first lanes of so many sources, one after the other. -/
  | gather (count : Nat)
  /-- So many lanes of two sources are compared as a whole. -/
  | compare (count : Nat) (equal : Bool)

def shape : AluOp → Shape
  | .vec2 => .gather 2
  | .vec3 => .gather 3
  | .vec4 => .gather 4
  | .ballIequal2 => .compare 2 true
  | .ballIequal3 => .compare 3 true
  | .ballIequal4 => .compare 4 true
  | .banyInequal2 => .compare 2 false
  | .banyInequal3 => .compare 3 false
  | .banyInequal4 => .compare 4 false
  | _ => .lanes

/-- Whether the first lanes of two sources are equal in all of them, or are not. -/
def compared (regs : RegisterFile) (count : Nat) (equal : Bool) : List AluSrc → Option (List UInt32)
  | [a, b] =>
    ((List.range count).mapM (a.read regs)).bind fun xs =>
      ((List.range count).mapM (b.read regs)).map fun ys => [Datum.truth (decide (xs = ys) == equal)]
  | _ => none

def perform (op : AluOp) (regs : RegisterFile) (srcs : List AluSrc) (width : Nat) : Option (List UInt32) :=
  match op.shape with
  | .lanes => (List.range width).mapM fun i => (srcs.mapM (AluSrc.read regs · i)).bind op.lanewise
  | .gather count => if srcs.length = count then srcs.mapM (AluSrc.read regs · 0) else none
  | .compare count equal => compared regs count equal srcs

end AluOp

/-- One link further into storage. -/
def LinkKind.narrow? (whole : Stored UInt32) : LinkKind → Option (Stored UInt32)
  | .struct index => whole.part? index.toNat
  | .array (.direct index) => whole.part? index.toNat
  | .array (.indirect _) | .var _ => none

def Memory.read (memory : Memory) : List LinkKind → Option (Stored UInt32)
  | .var id :: kinds => kinds.foldlM LinkKind.narrow? (memory id)
  | _ => none

mutual

def Constant.stored : Constant → Stored UInt32
  | .numeric _ columns rows bits =>
    let words := bits.map UInt64.toUInt32
    if 1 < columns then
      .parts ((List.range columns.toNat).map fun c => .vector ((words.drop (c * rows.toNat)).take rows.toNat))
    else .vector words
  | .aggregate elements => .parts (storedAll elements)

def storedAll : List Constant → List (Stored UInt32)
  | [] => []
  | c :: cs => c.stored :: storedAll cs

end

namespace Program

def perform (p : Program) (memory : Memory) (regs : RegisterFile) (op : Operation) (width : UInt8) :
    Option (List UInt32) :=
  match op with
  | .alu op srcs => op.perform regs srcs width.toNat
  | .intrinsic .loadDeref [.location head] _ => ((p.chain? head).bind memory.read).bind Stored.components?
  | _ => none

/-- Execute one instruction: its value gets as many words as it is wide. -/
def step (p : Program) (memory : Memory) (regs : RegisterFile) (i : Instr) : Option RegisterFile := do
  let v ← i.dest
  let shape ← p.value? v
  let words ← p.perform memory regs i.operation shape.width
  if words.length = shape.width.toNat then return regs.set v words else none

def execute (p : Program) (memory : Memory) (instrs : List Instr) (regs : RegisterFile) : Option RegisterFile :=
  instrs.foldlM (p.step memory) regs

def between (p : Program) (first last : Nat) : List Instr := (p.instrs.extract first last).toList

theorem execute_append {memory : Memory} {instrs rest : List Instr} {regs next : RegisterFile}
    (h : p.execute memory instrs regs = some next) :
    p.execute memory (instrs ++ rest) regs = p.execute memory rest next := by
  rw [execute] at h
  rw [execute, List.foldlM_append, h]
  rfl

theorem between_append {a b c : Nat} (low : a ≤ b) (high : b ≤ c) : p.between a b ++ p.between b c = p.between a c := by
  rw [between, between, between, ← Array.toList_append, Array.extract_append_extract, Nat.min_eq_left low,
    Nat.max_eq_right high]

theorem between_self (p : Program) (n : Nat) : p.between n n = [] := by simp [between]

theorem between_succ {n : Nat} {i : Instr} (found : p.instrs[n]? = some i) : p.between n (n + 1) = [i] := by
  obtain ⟨inside, rfl⟩ := Array.getElem?_eq_some_iff.mp found
  have there : n < p.instrs.toList.length := inside
  rw [between, Array.toList_extract, List.extract_eq_take_drop, List.drop_eq_getElem_cons there]
  simp

end Program

end ShaderSSA.Target
