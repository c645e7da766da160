import ShaderSSA.Proofs.Bookkeeping

/-!
Programs for targets without native integers. Their integer instructions are the tests of the booleans that
bodies load from buffer memory, one for each load.
-/

namespace ShaderSSA

namespace Source
open Lowering

namespace Program

theorem countTests_bodyProducts (source : Program) (f : Option Target.FuncId) (signature : Signature) :
    countTests (source.bodyProducts f signature) = stmtsTests source signature.body := by
  have params : ∀ ids : List VarId, countTests (ids.map .declared) = 0 := fun ids => by
    induction ids with
    | nil => rfl
    | cons id ids ih => simp [ih]
  have result : countTests (if signature.returnType.isVoid then [] else [.returned f]) = 0 := by split <;> rfl
  rw [bodyProducts, countTests_append, countTests_append, params, result, countTests_stmtsProducts, Nat.zero_add,
    Nat.zero_add]

theorem countTests_signatureProducts (source : Program) (ids : List SignatureId) :
    countTests (ids.flatMap source.signatureProducts) = source.totalTests ids := by
  induction ids with
  | nil => rfl
  | cons id ids ih =>
    rw [List.flatMap_cons, countTests_append, ih, totalTests, signatureProducts, tests]
    cases source.signature? id with
    | none => rfl
    | some signature =>
      dsimp only
      split
      · rw [countTests_bodyProducts]
      · rfl

theorem countTests_products (source : Program) : countTests source.products = source.totalTests source.listed := by
  rw [products, listed, ← countTests_signatureProducts]
  induction source.statements with
  | nil => rfl
  | cons stmt stmts ih =>
    rw [List.flatMap_cons, List.flatMap_cons, List.flatMap_append, countTests_append, countTests_append, ih]
    congr 1
    cases stmt <;> rfl

end Program

end Source

namespace Lowering
open Source Target Lower

variable {source : Source.Program} {op : AluOp}

/-- Without native integers, the integer opcode is used for tests only. -/
def integerLedger (source : Source.Program) (op : AluOp) (integer : op.isInteger = true) : Ledger source where
  fine := False
  holds s done _ := s.scope.nativeIntegers = false ∧
    s.program.uses op = if op = .ine then countTests done else 0
  frame frames h := by simpa [Program.uses, frames.native, frames.instrs] using h
  add {s t product done live} creates _ _ h := by
    have plain : countTests [product] = 0 := by
      obtain ⟨x, -, makes⟩ := creates.vars
      cases product <;> first | rfl | exact makes.elim
    rwa [countTests_append, plain, Nat.add_zero, creates.native, Program.uses, creates.instrs]
  root _ _ run _ h := by
    obtain ⟨-, rfl⟩ := rootChain_ok run
    exact h
  constant creates run _ h := by
    obtain ⟨-, rfl⟩ := rootChain_ok run
    simpa [Program.uses, creates.native, creates.instrs] using h
  append run _ h := by
    obtain ⟨_, -, rfl⟩ := appendLink_ok run
    exact h
  emit {s t takes o width dest makes done live} issue issued h := by
    refine ⟨by rw [issued.scope, h.1], ?_⟩
    rw [Program.uses, issued.instrs, Array.countP_push, ← Program.uses, h.2, countTests_append]
    obtain ⟨rfl, floats⟩ | ⟨rfl, isTest⟩ := issue.makes
    · have other : o.opcode? ≠ some op := fun same => by simp [floats h.1 op same] at integer
      simp [other]
    · by_cases same : op = .ine
      · simp [isTest, same]
      · simp [isTest, same, Ne.symm same]

/-- On a target without native integers, the integer instructions of a lowered program are the tests of the raw
booleans that the bodies of its listed signatures load, one for each. -/
theorem lower_integer_uses {capabilities : Capabilities} {p : Target.Program} (h : lower source capabilities = .ok p)
    (floats : capabilities.nativeIntegers = false) (fits : p.Fits) (integer : op.isInteger = true) :
    p.uses op = if op = .ine then source.totalTests source.listed else 0 := by
  obtain ⟨t, rfl, -, -, uses⟩ := lower_carries (integerLedger source op integer) h fits False.elim
    fun registers native => ⟨native.trans floats, by simp [Program.uses, registers.instrs]⟩
  rw [uses, source.countTests_products]

/-- A program that reads nothing from buffer memory uses no integers, though it computes with them. -/
theorem lower_integer_uses_sample : ∃ p, lower Sample.program { nativeIntegers := false } = .ok p ∧ p.Fits ∧
    ∀ op : AluOp, op.isInteger = true → p.uses op = 0 := by
  obtain ⟨p, lowered, fits⟩ : ∃ p, lower Sample.program { nativeIntegers := false } = .ok p ∧ p.Fits :=
    lower_checked (by decide +kernel)
  refine ⟨p, lowered, fits, fun op integer => ?_⟩
  have none : Sample.program.totalTests Sample.program.listed = 0 := by decide
  rw [lower_integer_uses lowered rfl fits integer, none]
  exact ite_self 0

/-- Read through a selector, a boolean of a uniform block is tested with an integer opcode. -/
theorem lower_tests_integers : ∃ p,
    lower (Flag.assigning (.swizzle Flag.flag (.all 0) 1)) { nativeIntegers := false } = .ok p ∧
      ∃ x ∈ p.instrs, ∃ srcs, x.operation = .alu .ine srcs := by
  obtain ⟨p, lowered, tested⟩ : ∃ p,
      lower (Flag.assigning (.swizzle Flag.flag (.all 0) 1)) { nativeIntegers := false } = .ok p ∧
      (p.instrs[2]?.any fun x => x.operation.opcode? = some .ine) = true := lower_checked (by decide +kernel)
  simp only [Option.any_eq_true] at tested
  obtain ⟨x, found, isTest⟩ := tested
  refine ⟨p, lowered, x, Array.mem_of_getElem? found, ?_⟩
  cases operation : x.operation <;> simp_all [Operation.opcode?]

end Lowering

end ShaderSSA
