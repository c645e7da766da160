import ShaderSSA.Proofs.Growth
import ShaderSSA.Proofs.Visible

/-!
Raw booleans. Buffer memory only promises that `true` is not zero, so what is loaded from it is raw until it
has been compared with zero. A raw load is known by where it stands: right behind the zero that it is
compared with. `Tidy` says of a region that it is made of groups, each of which is a plain instruction, a
raw load between its zero and its test, or a zero with another comparison.
-/

namespace ShaderSSA.Target
variable {x : Instr}

namespace Operation

def isConst : Operation → Bool
  | .loadConst .. => true
  | _ => false

def isIntrinsic : Operation → Bool
  | .intrinsic .. => true
  | _ => false

/-- Neither a constant nor a load through a chain. -/
def isPlain : Operation → Bool
  | .loadConst .. | .intrinsic .loadDeref .. => false
  | _ => true

end Operation

namespace Program

def storage? (p : Program) (head : LinkId) : Option StorageClass := do
  let v ← (p.links.rootVar head).toOption
  return (← p.var? v).storage

/-- The chain leads to a boolean in buffer memory. -/
def holdsRaw (p : Program) (head : LinkId) : Bool :=
  (p.storage? head).any StorageClass.isBuffer && (p.links.chainType head).toOption.any ShaderType.isBoolean

/-- The operation loads a boolean from buffer memory through a chain. -/
def loadsRaw (p : Program) : Operation → Bool
  | .intrinsic .loadDeref srcs _ => srcs.any fun s => s.location?.any p.holdsRaw
  | _ => false

/-- The instruction at position `i` is a load right behind a constant. -/
def rawAt (p : Program) : Nat → Bool
  | 0 => false
  | i + 1 => p.instrs[i]?.any (fun x => x.operation.isConst) &&
      p.instrs[i + 1]?.any fun x => x.operation.isIntrinsic

/-- The value is defined, and not by a raw load. -/
def Clean (p : Program) (v : ValueId) : Prop :=
  ∃ d, p.value? v = some d ∧ p.rawAt d.producer.index.toNat = false

/-- The operation is no constant, loads no raw boolean through a chain and reads none. -/
structure Plain (p : Program) (op : Operation) : Prop where
  notConst : op.isConst = false
  notRaw : p.loadsRaw op = false
  reads : ∀ v ∈ op.values, p.Clean v

end Program

/-- A raw load with the zero before it and the test behind it. -/
structure RawTest where
  zero : ValueId
  raw : ValueId
  load : Operation
  width : UInt8
  bitSize : UInt8
  value : ValueId

/-- The three instructions stand at `n`, `n + 1` and `n + 2`. -/
structure RawTest.At (x : RawTest) (p : Program) (n : Nat) : Prop where
  zero : p.instrs[n]? = some ⟨.loadConst 32 [0], some x.zero⟩
  load : p.instrs[n + 1]? = some ⟨x.load, some x.raw⟩
  test : p.instrs[n + 2]? = some ⟨.alu .ine [.broadcast x.raw x.width, ⟨x.zero, .all 0⟩], some x.value⟩
  zeroDef : p.value? x.zero = some ⟨1, 32, ⟨UInt32.ofNat n⟩⟩
  rawDef : p.value? x.raw = some ⟨x.width, x.bitSize, ⟨UInt32.ofNat (n + 1)⟩⟩
  isIntrinsic : x.load.isIntrinsic = true
  reads : ∀ v ∈ x.load.values, p.Clean v

/-- Instructions that stand together: `length` of them, from position `n` on. -/
inductive Group (p : Program) (n : Nat) : (length : Nat) → Prop where
  | plain {x : Instr} (found : p.instrs[n]? = some x) (plain : p.Plain x.operation)
      (notRaw : p.rawAt n = false) : Group p n 1
  | compared {zero : ValueId} {op : AluOp} {srcs : List AluSrc} {dest : Option ValueId}
      (first : p.instrs[n]? = some ⟨.loadConst 32 [0], some zero⟩)
      (second : p.instrs[n + 1]? = some ⟨.alu op srcs, dest⟩) (reads : ∀ s ∈ srcs, p.Clean s.value) :
      Group p n 2
  | tested {x : RawTest} (stands : x.At p n) : Group p n 3

/-- A region made of groups. -/
inductive Tidy (p : Program) : List Node → Prop where
  | nil : Tidy p []
  | group {n length : Nat} {rest : List Node} (first : Group p n length) (tail : Tidy p rest) :
      Tidy p ((instsBetween n (n + length)).map .instr ++ rest)
  | branch {condition : ValueId} {thenBody elseBody rest : List Node} (clean : p.Clean condition)
      (first : Tidy p thenBody) (second : Tidy p elseBody) (tail : Tidy p rest) :
      Tidy p (.branch condition thenBody elseBody :: rest)
  | loop {body rest : List Node} (inner : Tidy p body) (tail : Tidy p rest) : Tidy p (.loop body :: rest)

variable {p : Program} {n length : Nat} {nodes : List Node} {id : InstId}

theorem Tidy.append {a b : List Node} (first : Tidy p a) (second : Tidy p b) : Tidy p (a ++ b) := by
  induction first with
  | nil => exact second
  | group group tail ih =>
    rw [List.append_assoc]
    exact .group group ih
  | branch clean first second tail _ _ ih => exact .branch clean first second ih
  | loop inner tail _ ih => exact .loop inner ih

theorem Tidy.single (group : Group p n length) : Tidy p ((instsBetween n (n + length)).map .instr) := by
  have alone := Tidy.group group .nil
  rwa [List.append_nil] at alone

/-! ### What stands where -/

/-- The position belongs to a group. -/
def Placed (p : Program) (i : Nat) : Prop := ∃ n length, Group p n length ∧ n ≤ i ∧ i < n + length

theorem mem_instsBetween {a b : Nat} : id ∈ instsBetween a b ↔ ∃ i, a ≤ i ∧ i < b ∧ id = ⟨UInt32.ofNat i⟩ := by
  simp only [instsBetween, List.mem_map, List.mem_range'_1]
  constructor
  · rintro ⟨i, ⟨above, below⟩, rfl⟩
    exact ⟨i, above, by omega, rfl⟩
  · rintro ⟨i, above, below, rfl⟩
    exact ⟨i, ⟨above, by omega⟩, rfl⟩

@[simp]
theorem instrsOf_map_instr (ids : List InstId) : instrsOf (ids.map .instr) = ids := by
  induction ids with
  | nil => rfl
  | cons id ids ih => simp [instrsOf, Node.instrs, ih]

theorem Tidy.placed (h : Tidy p nodes) (member : id ∈ instrsOf nodes) : ∃ i, id = ⟨UInt32.ofNat i⟩ ∧ Placed p i := by
  induction h with
  | nil => simp [instrsOf] at member
  | @group n length rest group tail ih =>
    rw [instrsOf_append, instrsOf_map_instr, List.mem_append] at member
    rcases member with member | member
    · obtain ⟨i, above, below, rfl⟩ := mem_instsBetween.mp member
      exact ⟨i, rfl, n, length, group, above, below⟩
    · exact ih member
  | branch clean first second tail ihFirst ihSecond ih =>
    simp only [instrsOf, Node.instrs, List.mem_append] at member
    obtain (member | member) | member := member
    · exact ihFirst member
    · exact ihSecond member
    · exact ih member
  | loop inner tail ihInner ih =>
    simp only [instrsOf, Node.instrs, List.mem_append] at member
    rcases member with member | member
    · exact ihInner member
    · exact ih member

theorem Group.le_size (group : Group p n length) : n + length ≤ p.instrs.size := by
  cases group with
  | plain found => exact (Array.getElem?_eq_some_iff.mp found).1
  | compared _ second => exact (Array.getElem?_eq_some_iff.mp second).1
  | tested stands => exact (Array.getElem?_eq_some_iff.mp stands.test).1

namespace RawTest.At
variable {x y : RawTest} {n m : Nat}

theorem rawAt (h : x.At p n) : p.rawAt (n + 1) = true := by
  simp [Program.rawAt, h.zero, h.load, h.isIntrinsic, Operation.isConst]

theorem index (h : x.At p n) (fits : p.Fits) : (UInt32.ofNat (n + 1)).toNat = n + 1 := by
  obtain ⟨inside, -⟩ := Array.getElem?_eq_some_iff.mp h.load
  exact UInt32.toNat_ofNat_of_lt' (Nat.lt_trans inside fits.instrs)

theorem zero_clean (h : x.At p n) (fits : p.Fits) : p.Clean x.zero := by
  obtain ⟨inside, -⟩ := Array.getElem?_eq_some_iff.mp h.zero
  refine ⟨_, h.zeroDef, ?_⟩
  rw [UInt32.toNat_ofNat_of_lt' (Nat.lt_trans inside fits.instrs)]
  cases n with
  | zero => rfl
  | succ n => simp [Program.rawAt, h.zero, Operation.isIntrinsic]

end RawTest.At

theorem Group.raw {n length i : Nat} (group : Group p n length) (above : n ≤ i) (below : i < n + length)
    (found : p.instrs[i]? = some x) (raw : p.loadsRaw x.operation = true ∨ p.rawAt i = true) :
    length = 3 ∧ i = n + 1 ∧ ∃ y, RawTest.At y p n := by
  -- neither a constant nor a computation is a raw load
  have other : x.operation.isIntrinsic = true := by
    rcases raw with raw | raw
    · cases op : x.operation <;> simp_all [Program.loadsRaw, Operation.isIntrinsic]
    · cases i with
      | zero => simp [Program.rawAt] at raw
      | succ i =>
        rw [Program.rawAt, found, Bool.and_eq_true] at raw
        exact raw.2
  cases group with
  | plain there plain notRaw =>
    obtain rfl : n = i := by omega
    obtain rfl := Option.some.inj (there.symm.trans found)
    rw [plain.notRaw, notRaw] at raw
    simp at raw
  | compared first second reads =>
    obtain rfl | rfl : i = n ∨ i = n + 1 := by omega
    · obtain rfl := Option.some.inj (first.symm.trans found)
      cases other
    · obtain rfl := Option.some.inj (second.symm.trans found)
      cases other
  | @tested y stands =>
    obtain rfl | rfl | rfl : i = n ∨ i = n + 1 ∨ i = n + 2 := by omega
    · obtain rfl := Option.some.inj (stands.zero.symm.trans found)
      cases other
    · exact ⟨rfl, rfl, y, stands⟩
    · obtain rfl := Option.some.inj (stands.test.symm.trans found)
      cases other

theorem Placed.tested {i : Nat} (h : Placed p i) (found : p.instrs[i]? = some x)
    (raw : p.loadsRaw x.operation = true ∨ p.rawAt i = true) : ∃ n y, i = n + 1 ∧ RawTest.At y p n := by
  obtain ⟨n, length, group, above, below⟩ := h
  obtain ⟨-, here, y, stands⟩ := group.raw above below found raw
  exact ⟨n, y, here, stands⟩

theorem Placed.reads {i : Nat} (h : Placed p i) (fits : p.Fits) (found : p.instrs[i]? = some x)
    {v : ValueId} (read : v ∈ x.operation.values) : p.Clean v ∨ ∃ n y, i = n + 2 ∧ RawTest.At y p n ∧ v = y.raw := by
  obtain ⟨n, length, group, above, below⟩ := h
  cases group with
  | plain there plain notRaw =>
    obtain rfl : n = i := by omega
    obtain rfl := Option.some.inj (there.symm.trans found)
    exact .inl (plain.reads v read)
  | compared first second reads =>
    obtain rfl | rfl : i = n ∨ i = n + 1 := by omega
    · obtain rfl := Option.some.inj (first.symm.trans found)
      cases read
    · obtain rfl := Option.some.inj (second.symm.trans found)
      obtain ⟨s, member, rfl⟩ := List.mem_map.mp read
      exact .inl (reads s member)
  | @tested y stands =>
    obtain rfl | rfl | rfl : i = n ∨ i = n + 1 ∨ i = n + 2 := by omega
    · obtain rfl := Option.some.inj (stands.zero.symm.trans found)
      cases read
    · obtain rfl := Option.some.inj (stands.load.symm.trans found)
      exact .inl (stands.reads v read)
    · obtain rfl := Option.some.inj (stands.test.symm.trans found)
      simp only [Operation.values, List.map_cons, List.map_nil, List.mem_cons, List.not_mem_nil, or_false,
        AluSrc.broadcast] at read
      rcases read with rfl | rfl
      · exact .inr ⟨n, y, rfl, stands, rfl⟩
      · exact .inl (stands.zero_clean fits)

/-! ### Neighbours -/

/-- The region, or a region inside it. -/
inductive Within : List Node → List Node → Prop where
  | here (nodes : List Node) : Within nodes nodes
  | thenBody {r a b nodes : List Node} {c : ValueId} (node : .branch c a b ∈ nodes) (inner : Within r a) :
      Within r nodes
  | elseBody {r a b nodes : List Node} {c : ValueId} (node : .branch c a b ∈ nodes) (inner : Within r b) :
      Within r nodes
  | body {r a nodes : List Node} (node : .loop a ∈ nodes) (inner : Within r a) : Within r nodes

theorem Tidy.of_mem (h : Tidy p nodes) {node : Node} (member : node ∈ nodes) :
    (∀ {c a b}, node = .branch c a b → p.Clean c ∧ Tidy p a ∧ Tidy p b) ∧
      ∀ {a}, node = .loop a → Tidy p a := by
  induction h with
  | nil => cases member
  | group group tail ih =>
    rcases List.mem_append.mp member with member | member
    · obtain ⟨id, -, rfl⟩ := List.mem_map.mp member
      simp
    · exact ih member
  | branch clean first second tail _ _ ih =>
    rcases List.mem_cons.mp member with rfl | member
    · constructor
      · rintro _ _ _ ⟨⟩
        exact ⟨clean, first, second⟩
      · simp
    · exact ih member
  | loop inner tail _ ih =>
    rcases List.mem_cons.mp member with rfl | member
    · constructor
      · simp
      · rintro _ ⟨⟩
        exact inner
    · exact ih member

theorem Tidy.within {r : List Node} (h : Tidy p nodes) (inside : Within r nodes) : Tidy p r := by
  induction inside with
  | here => exact h
  | thenBody node _ ih => exact ih ((h.of_mem node).1 rfl).2.1
  | elseBody node _ ih => exact ih ((h.of_mem node).1 rfl).2.2
  | body node _ ih => exact ih ((h.of_mem node).2 rfl)

end ShaderSSA.Target
