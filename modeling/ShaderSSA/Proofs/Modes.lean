import ShaderSSA.Proofs.Integers
import ShaderSSA.Proofs.Twins

/-!
The two modes. With and without native integers a source is lowered to programs of the same shape, unless it
converts to booleans (`lower_shape_eq`).
-/

namespace ShaderSSA

namespace Source

/-- The operator does not convert to booleans. -/
def isPlain (op : ExprOp) (type : ShaderType) : Bool := !(op = .convert && type.baseType? = some .bool)

/-- No signature has an expression that converts to booleans. -/
def Program.isPlain (p : Program) : Bool :=
  p.signatures.all fun s => stmtsEvery (fun _ => true) Source.isPlain s.body

theorem Program.isPlain.bodyOf {p : Program} (plain : p.isPlain = true) (id : SignatureId) :
    stmtsEvery (fun _ => true) Source.isPlain (p.bodyOf id) = true := by
  rw [Program.isPlain, Array.all_eq_true'] at plain
  cases found : p.signature? id with
  | none =>
    rw [Program.bodyOf, found, Option.map_none, Option.getD_none, stmtsEvery]
  | some signature =>
    rw [Program.bodyOf, found, Option.map_some, Option.getD_some, Signature.lowered]
    split
    · exact plain signature (Array.mem_of_getElem? found)
    · rw [stmtsEvery]

end Source

namespace Target

variable {h : Pairing}

def Operation.shape : Operation → Operation
  | .alu _ srcs => .alu .imov srcs
  | op => op

/-- A program without the opcodes of computations, the bit sizes of values, and what constants are made of. -/
def Program.shape (p : Program) : Program :=
  { p with
    vars := p.vars.map fun x => { x with initializer := x.initializer.map Constant.shape }
    instrs := p.instrs.map fun i => { i with operation := i.operation.shape }
    values := p.values.map fun d => { d with bitSize := 0 } }

theorem Operation.Alike.shape_eq (exact : h.Exact) {a b : Operation} (alike : a.Alike h b) : a.shape = b.shape := by
  obtain rfl | ⟨op, op', srcs, rfl, rfl, -⟩ := alike.eq_or_alu exact
  · rfl
  · rfl

theorem Instr.Alike.shape_eq (exact : h.Exact) {a b : Instr} (alike : a.Alike h b) :
    { a with operation := a.operation.shape } = { b with operation := b.operation.shape } := by
  rw [Instr.mk.injEq]
  exact ⟨alike.operation.shape_eq exact, eq_of_rel exact.value alike.dest⟩

theorem ValueDef.Alike.shape_eq (exact : h.Exact) {a b : ValueDef} (alike : a.Alike h b) :
    { a with bitSize := 0 } = { b with bitSize := 0 } := by
  rw [ValueDef.mk.injEq]
  exact ⟨alike.width, rfl, exact.inst alike.producer⟩

theorem Variable.Alike.shape_eq {a b : Variable} (alike : a.Alike h b) :
    { a with initializer := a.initializer.map Constant.shape } =
      { b with initializer := b.initializer.map Constant.shape } := by
  rw [alike.nesting]
  have same := congrArg (fun x : Variable => { x with initializer := b.initializer.map Constant.shape }) alike.rest
  exact same

/-! ### The same positions -/

def Track.same (m n : Nat) : Track m n where
  rel := Eq
  left := 0
  right := 0
  unique := by rintro _ _ _ _ rfl rfl; rfl
  step _ _ := rfl
  handle _ _ := rfl

theorem Track.Agree.map_eq {m n : Nat} {α β : Type} {R : α → α → Prop} {xs ys : Array α}
    (agree : (Track.same m n).Agree R xs ys) {f : α → β} (same : ∀ {x y}, R x y → f x = f y) : xs.map f = ys.map f := by
  apply Array.ext_getElem?
  intro i
  have entry := agree.entries (rfl : i = i)
  rw [Array.getElem?_map, Array.getElem?_map]
  generalize xs[i]? = x, ys[i]? = y at entry
  cases entry with
  | none => rfl
  | some alike => rw [Option.map_some, Option.map_some, same alike]

end Target

namespace Lowering
open Source Target Lower

/-- The two programs hold everything at the same place. -/
def Tracks.same (mode : Prop) (p q : Target.Program) : Tracks p q where
  sameMode := mode
  insts := .same ..
  values := .same ..
  vars := .same ..
  links := .same ..
  function _ := True
  fresh _ := trivial
  shared _ := True
  visible _ := True
  infos := Eq
  discards := by rintro _ _ rfl; rfl

namespace Tracks
variable {mode : Prop} {p q : Target.Program}

theorem same_atStart : (same mode p q).AtStart := ⟨⟨rfl, rfl⟩, ⟨rfl, rfl⟩, ⟨rfl, rfl⟩, ⟨rfl, rfl⟩⟩

theorem same_exact : (same mode p q).pairing.Exact where
  inst h := congrArg InstId.mk (UInt32.toNat_inj.mp h)
  value h := congrArg ValueId.mk (UInt32.toNat_inj.mp h)
  var h := congrArg Target.VarId.mk (UInt32.toNat_inj.mp h)
  link h := congrArg LinkId.mk (UInt32.toNat_inj.mp h)

end Tracks

section
variable {mode : Prop} {p q : Target.Program} {s t : State}

theorem Twins.functions_eq (twins : Twins (.same mode p q) s t) : s.program.functions = t.program.functions := by
  apply Array.ext_getElem?
  intro i
  exact eq_of_rel (Function.Alike.eq Tracks.same_exact) (twins.functions trivial)

theorem Twins.globals_eq (twins : Twins (.same mode p q) s t) : s.program.globals = t.program.globals :=
  Array.toList_inj.mp (eq_of_forall₂ Tracks.same_exact.var twins.globals)

theorem Twins.links_eq (twins : Twins (.same mode p q) s t) : s.program.links = t.program.links := by
  have same := twins.links.map_eq (f := id) (Link.Alike.eq Tracks.same_exact)
  rwa [Array.map_id, Array.map_id] at same

theorem Twins.shape_eq (twins : Twins (.same mode p q) s t) (limits : s.program.instrLimit = t.program.instrLimit) :
    s.program.shape = t.program.shape := by
  have exact := @Tracks.same_exact mode p q
  rw [Program.shape, Program.shape, twins.instrs.map_eq (Instr.Alike.shape_eq exact),
    twins.values.map_eq fun alike => alike.1.shape_eq exact, twins.vars.map_eq Variable.Alike.shape_eq, limits,
    twins.functions_eq, twins.globals_eq, twins.links_eq, show s.program.info = t.program.info from twins.infos]

end

/-! ### Summaries -/

theorem countVariables_shape (p : Target.Program) (info : Info) (ids : List Target.VarId) :
    countVariables p.shape info ids = countVariables p info ids := by
  have found : ∀ id, p.shape.getVariable id = (p.getVariable id).map fun x =>
      { x with initializer := x.initializer.map Constant.shape } := by
    intro id
    simp only [Target.Program.getVariable, Target.Program.var?, Program.shape, Array.getElem?_map]
    cases p.vars[id.index.toNat]? <;> rfl
  induction ids generalizing info with
  | nil => rfl
  | cons id ids ih =>
    rw [countVariables, countVariables, found]
    cases p.getVariable id with
    | error e => rfl
    | ok x =>
      change (countVariable info x >>= fun info => countVariables p.shape info ids) =
        countVariable info x >>= fun info => countVariables p info ids
      simp only [ih]

theorem summarize_shape (p : Target.Program) : summarize p.shape = summarize p := by
  rw [summarize, summarize, countVariables_shape]
  rfl

/-- With and without native integers, a source that does not convert to booleans is lowered to programs that agree in
all but the opcodes of computations, the bit sizes of values, and the bit sizes and bit patterns of constants. -/
theorem lower_shape_eq {source : Source.Program} {limit : Option UInt32} {p q : Target.Program}
    (plain : source.isPlain = true) (h : lower source { nativeIntegers := true, maxInstructions := limit } = .ok p)
    (h' : lower source { nativeIntegers := false, maxInstructions := limit } = .ok q) : p.shape = q.shape := by
  obtain ⟨s, t, info, registered, lowered, summary, rfl⟩ := lower_summarized h
  obtain ⟨s', t', info', registered', lowered', summary', rfl⟩ := lower_summarized h'
  have covers : (Tracks.same False t.program t'.program).Covers (fun _ => true) isPlain := by
    refine ⟨fun _ => trivial, fun {type} plain => .inr ?_⟩
    simpa [isPlain] using plain
  have every : ∀ id, .signature id ∈ source.statements.flatMap itemsOf → source.bodyOf id = source.bodyOf id ∧
      (Tracks.same False t.program t'.program).Covered (source.bodyOf id) := fun id _ =>
    ⟨rfl, _, _, covers, Program.isPlain.bodyOf plain id⟩
  have twins := Twins.program Tracks.same_atStart (.refl source) rfl False.elim (by rfl) every
    (fun _ _ _ _ => trivial) registered registered' (.ofAll lowered) (.ofAll lowered') (.refl _) (.refl _)
  have path : Path .program _ t :=
    ((stepwise_registerAll ..).path registered).trans ((stepwise_lowerAll ..).path lowered)
  have path' : Path .program _ t' :=
    ((stepwise_registerAll ..).path registered').trans ((stepwise_lowerAll ..).path lowered')
  have shapes := twins.shape_eq (path.steady.limit.trans path'.steady.limit.symm)
  -- what is counted does not depend on what the shapes leave out
  have infos : info = info' := by
    rw [← summarize_shape, shapes, summarize_shape, summary'] at summary
    exact (Except.ok.inj summary).symm
  rw [infos]
  exact congrArg (fun r : Target.Program => { r with info := info' }) shapes

/-- The modes compare, select and add with other opcodes. -/
theorem lower_shape_eq_palette : Palette.program.isPlain = true ∧ ∃ p q,
    lower Palette.program { nativeIntegers := true } = .ok p ∧
    lower Palette.program { nativeIntegers := false } = .ok q ∧ p.shape = q.shape ∧ p.instrs ≠ q.instrs := by
  have plain : Palette.program.isPlain = true := by decide +kernel
  obtain ⟨p, lowered, added⟩ : ∃ p, lower Palette.program { nativeIntegers := true } = .ok p ∧ p.uses .iadd = 1 :=
    lower_checked (by decide +kernel)
  obtain ⟨q, lowered', other⟩ : ∃ q, lower Palette.program { nativeIntegers := false } = .ok q ∧ q.uses .iadd = 0 :=
    lower_checked (by decide +kernel)
  refine ⟨plain, p, q, lowered, lowered', lower_shape_eq plain lowered lowered', fun same => ?_⟩
  rw [Target.Program.uses, same, ← Target.Program.uses, other] at added
  cases added

end Lowering

end ShaderSSA
