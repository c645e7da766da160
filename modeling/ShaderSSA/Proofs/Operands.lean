import ShaderSSA.Proofs.Inspection

/-!
Components that computations read. A selector is checked where it comes from the source, and elsewhere it follows the
shape of the value. Either way it stays inside a value that was made before.
-/

namespace ShaderSSA

namespace Target

/-- The computation reads as many components as it makes, and each of them exists. So does every lane, unless the
operand is only moved. -/
def Program.ReadsWithin (p : Program) (op : AluOp) (width : UInt8) (src : AluSrc) : Prop :=
  ∃ d, p.value? src.value = some d ∧ (∀ c ∈ src.lanes.take width, c < d.width) ∧
    (op ≠ .imov → op ≠ .fmov → ∀ c ∈ src.lanes.toList, c < d.width)

namespace Fetches
variable {p q : Program} {op : AluOp} {width : UInt8} {src : AluSrc}

theorem mono (h : Fetches p op width src) (values : ∀ {v d}, p.value? v = some d → q.value? v = some d) :
    Fetches q op width src := by
  cases h with
  | first v => exact .first v
  | spread found => exact .spread (values found)
  | channel found inside => exact .channel (values found) inside
  | moved move found inside => exact .moved move (values found) inside

theorem within_of_all {d : ValueDef} (found : p.value? src.value = some d)
    (inside : ∀ c ∈ src.lanes.toList, c < d.width) : p.ReadsWithin op width src :=
  ⟨d, found, fun c member => inside c (List.mem_of_mem_take member), fun _ _ => inside⟩

theorem lt_of_mem_broadcast {v : ValueId} (wide : 0 < width) :
    ∀ c ∈ (AluSrc.broadcast v width).lanes.toList, c < width := by
  have bound := width.toNat_lt
  have positive : 0 < width.toNat := UInt8.lt_iff_toNat_lt.mp wide
  have lane : ∀ i, UInt8.ofNat (min i (width.toNat - 1)) < width := by
    intro i
    rw [UInt8.lt_iff_toNat_lt, UInt8.toNat_ofNat_of_lt' (show _ < 256 by omega)]
    omega
  simpa only [AluSrc.broadcast, Lanes.ofFn, Lanes.toList, List.forall_mem_cons, List.not_mem_nil, false_implies,
    implies_true, and_true] using ⟨lane 0, lane 1, lane 2, lane 3⟩

theorem within (h : Fetches p op width src) (widths : ∀ d ∈ p.values, 0 < d.width)
    (known : ∃ d, p.value? src.value = some d) : p.ReadsWithin op width src := by
  have wide : ∀ {v d}, p.value? v = some d → 0 < d.width := fun found => widths _ (Array.mem_of_getElem? found)
  cases h with
  | first v =>
    obtain ⟨d, found⟩ := known
    exact within_of_all found (by simpa [Lanes.all, Lanes.toList] using wide found)
  | spread found => exact within_of_all found (lt_of_mem_broadcast (wide found))
  | channel found inside => exact within_of_all found (by simpa [Lanes.all, Lanes.toList] using inside)
  | moved move found inside =>
    refine ⟨_, found, inside, fun notInteger notFloat => ?_⟩
    cases op <;> contradiction

end Fetches

/-- A computation has a value and reads its operands for that. -/
def Program.Operates (p : Program) (x : Instr) : Prop :=
  ∀ op, x.operation.opcode? = some op → ∃ v d, x.dest = some v ∧ p.value? v = some d ∧
    ∀ src ∈ x.operation.operands, Fetches p op d.width src

namespace Program.Operates
variable {p q : Program}

theorem mono {x : Instr} (h : p.Operates x) (values : ∀ {v d}, p.value? v = some d → q.value? v = some d) :
    q.Operates x := by
  intro op isOp
  obtain ⟨v, d, dest, found, reads⟩ := h op isOp
  exact ⟨v, d, dest, values found, fun src member => (reads src member).mono values⟩

theorem all_of_eq (h : ∀ x ∈ p.instrs, p.Operates x) (instrs : q.instrs = p.instrs) (values : q.values = p.values) :
    ∀ x ∈ q.instrs, q.Operates x := by
  rw [instrs]
  exact fun x member => (h x member).mono (by simp only [value?, values]; exact id)

end Program.Operates

end Target

namespace Lowering
open Source Target

variable {source : Source.Program}

def readingLedger (source : Source.Program) : Ledger source where
  fine := False
  holds s _ _ := ∀ x ∈ s.program.instrs, s.program.Operates x
  frame frames h := Program.Operates.all_of_eq h frames.instrs frames.values
  add creates _ _ h := Program.Operates.all_of_eq h creates.instrs creates.values
  root _ _ run _ h := by
    obtain ⟨-, rfl⟩ := rootChain_ok run
    exact Program.Operates.all_of_eq h rfl rfl
  constant creates run _ h := by
    obtain ⟨-, rfl⟩ := rootChain_ok run
    exact Program.Operates.all_of_eq h creates.instrs creates.values
  append run _ h := by
    obtain ⟨_, -, rfl⟩ := appendLink_ok run
    exact Program.Operates.all_of_eq h rfl rfl
  emit {s t takes o width dest makes done live} issue issued h := by
    intro x member
    rw [issued.instrs] at member
    obtain old | rfl := Array.mem_push.mp member
    · exact (h x old).mono issued.values
    · intro op isOp
      obtain ⟨v, d, isDest, found, rfl⟩ := issued.defines op isOp
      exact ⟨v, d, isDest, found, fun src there => (issue.reads op isOp src there).mono issued.values⟩

/-- Every component that a computation reads exists. -/
theorem lower_reads_within {capabilities : Capabilities} {p : Target.Program} (h : lower source capabilities = .ok p)
    (fits : p.Fits) : ∀ x ∈ p.instrs, ∀ op srcs, x.operation = .alu op srcs → ∃ v d, x.dest = some v ∧
      p.value? v = some d ∧ ∀ src ∈ srcs, p.ReadsWithin op d.width src := by
  obtain ⟨t, rfl, -, operates⟩ := lower_carries (readingLedger source) h fits False.elim
    fun registers _ x member => by simp [registers.instrs] at member
  have closed := lower_closed h fits
  intro x member op srcs is
  obtain ⟨v, d, dest, found, reads⟩ := operates x member op (by rw [is]; rfl)
  refine ⟨v, d, dest, found, fun src there => ?_⟩
  rw [is] at reads
  refine (reads src there).within (fun d known => (closed.widths d known).1) (closed.value_of_operand member ?_)
  rw [is]
  exact List.mem_append_left _ (List.mem_map_of_mem there)

namespace Reversal

def normal : Rvalue := .place (.var ⟨0⟩ (.vector .float 3))

def program : Source.Program where
  name := "reversal"
  layout := .fragment false .none false
  vars := #[
    { name := "normal", type := .vector .float 3, mode := .shaderIn },
    { name := "product", type := .scalar .float, mode := .shaderOut }]
  signatures := #[
    { name := "main", returnType := .void, parameters := [], isDefined := true,
      body := [.assign (.var ⟨1⟩ (.scalar .float))
        (.expression .dot (.scalar .float) [normal, .swizzle normal ⟨2, 1, 0, 7⟩ 3]) 1 none] }]
  statements := [.declare ⟨0⟩, .declare ⟨1⟩, .function "main" [⟨0⟩]]

end Reversal

/-- The product reads four lanes of its operands and makes one component. The move before it has a lane that no
component answers to, behind those that it reads. -/
theorem lower_reads_within_reversal : ∃ p, lower Reversal.program {} = .ok p ∧ p.Fits ∧
    p.instrs.map (·.operation.operands.map (·.lanes)) = #[[], [], [⟨2, 1, 0, 7⟩], [⟨0, 1, 2, 2⟩, ⟨0, 1, 2, 2⟩], []] ∧
    ∃ x ∈ p.instrs, ∃ srcs v d, x.operation = .alu .fdot3 srcs ∧ x.dest = some v ∧ p.value? v = some d ∧
      ∀ src ∈ srcs, p.ReadsWithin .fdot3 d.width src := by
  obtain ⟨p, lowered, fits, lanes, x, member, isFused⟩ : ∃ p, lower Reversal.program {} = .ok p ∧ p.Fits ∧
      p.instrs.map (·.operation.operands.map (·.lanes)) = #[[], [], [⟨2, 1, 0, 7⟩], [⟨0, 1, 2, 2⟩, ⟨0, 1, 2, 2⟩], []] ∧
      ∃ x ∈ p.instrs, x.operation.opcode? = some .fdot3 := lower_checked (by decide +kernel)
  obtain ⟨srcs, is⟩ : ∃ srcs, x.operation = .alu .fdot3 srcs := by
    cases operation : x.operation <;> simp_all [Operation.opcode?]
  obtain ⟨v, d, dest, found, reads⟩ := lower_reads_within lowered fits x member _ _ is
  exact ⟨p, lowered, fits, lanes, x, member, srcs, v, d, is, dest, found, reads⟩

end Lowering

end ShaderSSA
