import ShaderSSA.Proofs.Accounts

/-!
Booleans that are copied out of buffer memory. A value with a location of its own is copied as a whole, and
such a copy tests nothing: it takes a raw boolean along. The copies that do so are those that the statements
ask for.
-/

namespace ShaderSSA

namespace Target

variable {p : Program} {x : Instr}

/-! ### Copies in a target program -/

namespace Program

/-- The operation copies a raw boolean out of buffer memory. -/
def leaks (p : Program) : Operation → Bool
  | .intrinsic .copyDeref [.location dst, .location src] _ =>
    p.holdsRaw src && (p.storage? dst).any fun storage => !storage.isBuffer
  | _ => false

end Program

theorem Operation.effect?_of_leaks {op : Operation} (leaks : p.leaks op = true) (result : Option VarId)
    (chains : List (List LinkKind)) : ∃ returned, op.effect? result chains = some (.copy returned) := by
  unfold Program.leaks at leaks
  split at leaks
  · exact ⟨_, rfl⟩
  · cases leaks

/-- Whether one of the instructions copies a raw boolean out of buffer memory. -/
def leakAccount : Account where
  Amount := Bool
  nothing := false
  join := (· || ·)
  nothing_join _ := rfl
  counts p ids leaks := (∃ id ∈ ids, ∃ x, p.instr? id = some x ∧ p.leaks x.operation = true) ↔ leaks = true
  nil _ := by simp
  append first rest := by simp only [List.mem_append, or_and_right, exists_or, Bool.or_eq_true, first, rest]
  tells
    | .copy _ => true
    | _ => false
  silent {p id x result chains} there silent := by
    simp only [List.mem_singleton, exists_eq_left, Bool.false_eq_true, iff_false]
    rintro ⟨y, found, leaks⟩
    obtain rfl := Option.some.inj (there.symm.trans found)
    obtain ⟨returned, copy⟩ := Operation.effect?_of_leaks leaks result chains
    exact absurd (silent _ copy) (by simp)

end Target

/-! ### Copies in a source program -/

namespace Source
open Target

/-- The variable is kept in buffer memory. -/
def VarDecl.inBuffer (decl : VarDecl) : Bool :=
  match decl.mode with
  | .shaderStorage => true
  | .uniform => decl.interfaceBlock.isSome
  | _ => false

namespace Program

/-- The place is in buffer memory. -/
def inBuffer (source : Program) (p : Place) : Bool := (source.var? p.root).any VarDecl.inBuffer

/-- The value is a boolean in buffer memory. -/
def holdsRaw (source : Program) : Rvalue → Bool
  | .place p => source.inBuffer p && p.type.isBoolean
  | _ => false

end Program

mutual

/-- The statement copies a raw boolean out of buffer memory. -/
def Stmt.leaks (source : Program) : Stmt → Bool
  | .loop body => stmtsLeak source body
  | .branch _ thenBody elseBody => stmtsLeak source thenBody || stmtsLeak source elseBody
  | .ret (some value) => source.holdsRaw value
  | .assign target value mask _ =>
    assignment target value mask = .copy false && source.holdsRaw value && !source.inBuffer target
  | .declare _ | .function .. | .discard _ | .jump _ | .ret none | .call _ | .emitVertex _ | .endPrimitive _
  | .barrier => false

def stmtsLeak (source : Program) : List Stmt → Bool
  | [] => false
  | s :: ss => s.leaks source || stmtsLeak source ss

end

/-- The body of the signature copies a raw boolean out of buffer memory. -/
def Program.leaks (source : Program) (id : SignatureId) : Bool :=
  (source.signature? id).any fun signature =>
    !signature.isIntrinsic && signature.isDefined && stmtsLeak source signature.body

end Source

namespace Lowering
open Source Target Lower

variable {env : Env} {result : Option Target.VarId} {source : Source.Program} {s u t : State}
  {nodes : List Node} {known : List Known} {live : List Live} {effects : List Skeleton} {v : Target.VarId}
  {value : Rvalue} {condition : Option Rvalue} {native : Bool}

/-! ### Variables are where their declarations say -/

/-- Bound variables are in buffer memory if their declarations say so. -/
def State.Faithful (source : Source.Program) (s : State) : Prop :=
  ∀ ⦃id : Source.VarId⦄ ⦃v⦄, s.scope.vars[id.index.toNat]? = some (some v) → ∃ decl x,
    source.var? id = some decl ∧ s.program.var? v = some x ∧ x.storage.isBuffer = decl.inBuffer

theorem storageOf_isBuffer (decl : VarDecl) (owner : Option FuncId) :
    (storageOf decl owner).isBuffer = decl.inBuffer := by
  unfold storageOf VarDecl.inBuffer
  cases decl.mode <;> cases owner <;> cases decl.interfaceBlock <;> rfl

theorem StandsFor.isBuffer_eq {x : Variable} {decl : VarDecl} {owner : Option FuncId} (h : StandsFor x decl owner) :
    x.storage.isBuffer = decl.inBuffer := by
  rw [h.storage, storageOf_isBuffer]

theorem State.Calling.faithful (h : s.Calling source native) : s.Faithful source := by
  intro id v bound
  obtain ⟨decl, x, declared, there, owner, stands⟩ := h.stands bound
  exact ⟨decl, x, declared, there, stands.isBuffer_eq⟩

theorem State.Faithful.inBuffer_eq (h : s.Faithful source) {p : Place} {path : List Segment}
    (read : p.path s.env = some path) : s.env.inBuffer path = source.inBuffer p := by
  obtain ⟨v, rest, rfl, bound⟩ := path_root p read
  obtain ⟨decl, x, declared, there, same⟩ := h bound
  rw [Target.Program.var?] at there
  simp [Env.inBuffer, State.env, there, same, Program.inBuffer, declared]

theorem State.Inside.inBuffer_returned (inside : s.Inside result) (is : result = some v) :
    s.env.inBuffer [.var v] = false := by
  obtain ⟨x, there, storage⟩ := inside.returned is
  rw [Target.Program.var?] at there
  simp [Env.inBuffer, State.env, there, storage, StorageClass.isBuffer]

/-! ### Copies -/

theorem Code.copy_leaks {c d : Live} (h : Code env result s u nodes known live []) (dst : c ∈ live) (src : d ∈ live)
    (e : Emits u t (.intrinsic .copyDeref [.location c.head, .location d.head] {}) none) :
    Amounts leakAccount s t (env.inBuffer d.path && d.last.type.isBoolean && !env.inBuffer c.path) := by
  refine h.amounts_trans (fun q kept fits => ?_) e.keeps
  obtain ⟨facts, threaded, there⟩ := e.later h.toDraft (kept.mono fun _ _ => trivial) fits
  obtain ⟨storage, found, memory⟩ := facts.storage fits dst (threaded c dst)
  have here : q.instr? ⟨UInt32.ofNat u.program.instrs.size⟩ = _ := there
  have raw := facts.holdsRaw_eq fits src (threaded d src)
  rw [e.size, instsBetween_succ]
  simp [leakAccount, here, Target.Program.leaks, raw, found, memory]

theorem guardedCopy_emits (h : Code env result s u nodes known live []) (ready : u.Ready env) {dst src : LinkId}
    (run : Runs (guarded source condition (copyLocation dst src)) u () t) (fits : t.program.Fits) :
    ∃ w nodes known, Code env result s w nodes known live [] ∧
      Emits w t (.intrinsic .copyDeref [.location dst, .location src] {}) none := by
  cases condition with
  | none =>
    obtain rfl := emitEffect_ok run
    exact ⟨u, nodes, known, h, emits_effect ..⟩
  | some r =>
    simp only [guarded, runs_bind, runs_inRegion, runs_modifyRegion] at run
    obtain ⟨v, w, valueRun, _, _, ⟨x, emitted, rfl, rfl⟩, rfl⟩ := run
    have before : w.program.Fits := emitted.fits_before (by simp) fits
    obtain rfl := emitEffect_ok emitted
    obtain ⟨_, tree, -, valueCode⟩ := evaluate_code source r ready valueRun before
    have both := h.trans valueCode
    rw [List.append_nil] at both
    exact ⟨w, _, _, both, rfl, rfl, rfl, id⟩

theorem locationChain_raw (ready : u.Ready s.env) (faithful : s.Faithful source) {r : Rvalue} {chain : Chain}
    (run : Runs (locationChain source r) u chain t) (fits : t.program.Fits) :
    ∃ nodes d, d.head = chain.head ∧ Code s.env result u t nodes [] [d] [] ∧
      (s.env.inBuffer d.path && d.last.type.isBoolean) = source.holdsRaw r := by
  unfold locationChain at run
  split at run
  · rename_i p
    obtain ⟨nodes, d, path, names, code⟩ := placeChain_code source p ready run fits
    refine ⟨nodes, d, names.head, code, ?_⟩
    rw [faithful.inBuffer_eq path, names.type, Source.Program.holdsRaw]
  · obtain ⟨k, d, -, path, names, code⟩ := constantChain_code ready run fits
    exact ⟨[], d, names.head, code, by rw [path]; rfl⟩
  · exact (runs_abort run).elim

theorem assign_leaks (inside : s.Inside result) (faithful : s.Faithful source) {target : Place} {mask : UInt8}
    (run : Runs (assign source target value mask condition) s () t) (fits : t.program.Fits) :
    Amounts leakAccount s t ((Stmt.assign target value mask condition).leaks source) := by
  obtain ⟨_, code⟩ : ∃ nodes, Code s.env result s t nodes [] [] _ := assign_code inside run fits
  obtain ⟨dst, u, dstRun, ⟨copied, src, w, srcRun, run⟩ | ⟨stored, -⟩⟩ := assign_ok run
  · have ready := inside.ready
    have later : w.program.Fits := run.fits_before (by simp) fits
    obtain ⟨_, c, path, names, dstCode⟩ :=
      placeChain_code source target ready dstRun (srcRun.fits_before (by simp) later)
    have ready' := ready.step dstRun (by simp) dstCode
    obtain ⟨_, d, head, srcCode, raw⟩ := locationChain_raw ready' faithful srcRun later
    have both : Code s.env result s w _ _ _ _ := dstCode.trans srcCode
    rw [← names.head, ← head] at run
    obtain ⟨x, _, _, code, emitted⟩ := guardedCopy_emits both (ready'.step srcRun (by simp) srcCode) run fits
    have leaks := code.copy_leaks (by simp) (by simp) emitted
    rw [raw, faithful.inBuffer_eq path] at leaks
    simpa [Stmt.leaks, copied] using leaks
  · have silent : (Stmt.assign target value mask condition).leaks source = false := by simp [Stmt.leaks, stored]
    rw [stored] at code
    rw [silent]
    exact code.amounts (by cases condition <;> simp [Account.Quiet, effectsOf, Skeleton.effects, leakAccount])

theorem storeReturn_leaks (inside : s.Inside result) (faithful : s.Faithful source)
    (run : Runs (storeReturn source value) s () t) (fits : t.program.Fits) :
    Amounts leakAccount s t (source.holdsRaw value) := by
  by_cases stored : value.isStored = true
  · have ready := inside.ready
    simp only [storeReturn, runs_bind, runs_program, runs_check, if_pos stored] at run
    obtain ⟨v, s, varRun, _, _, ⟨rfl, rfl⟩, x, _, ⟨-, rfl⟩, dst, u, dstRun, src, w, srcRun, run⟩ := run
    obtain ⟨rfl, isReturn⟩ := returnVariable_ok varRun
    have is := inside.returns.symm.trans isReturn
    have later := run.fits_before (by simp) fits
    obtain ⟨c, dstHead, path, -, dstCode⟩ := returnChain_code ready inside.apart is dstRun
    obtain ⟨_, d, srcHead, srcCode, raw⟩ :=
      locationChain_raw (ready.step dstRun (by simp) dstCode) faithful srcRun later
    rw [← dstHead, ← srcHead] at run
    obtain rfl := emitEffect_ok run
    have leaks := (dstCode.trans srcCode).copy_leaks (c := c) (d := d) (by simp) (by simp) (emits_effect ..)
    rwa [raw, path, inside.inBuffer_returned is, Bool.not_false, Bool.and_true] at leaks
  · obtain ⟨_, code⟩ : ∃ nodes, Code s.env result s t nodes [] [] _ := storeReturn_code inside run fits
    have silent : source.holdsRaw value = false := by
      cases value <;> simp_all [Rvalue.isStored, Source.Program.holdsRaw]
    rw [if_neg stored] at code
    rw [silent]
    exact code.amounts (by simp [Account.Quiet, effectsOf, Skeleton.effects, leakAccount])

theorem calling_quiet {functions : SignatureId → Option FuncId} {call : Call} {effects : List Effect}
    (h : calling source functions call = some effects) : leakAccount.Quiet (effects.map .effect) := by
  rw [Account.Quiet, effectsOf_map]
  simp only [calling, Option.bind_eq_bind, Option.bind_eq_some_iff] at h
  obtain ⟨signature, -, h⟩ := h
  split at h
  · simp only [Option.bind_eq_some_iff, Option.pure_def, Option.some.injEq] at h
    obtain ⟨_, -, rfl⟩ := h
    simp [leakAccount]
  · simp only [Option.bind_eq_some_iff, Option.pure_def, Option.some.injEq] at h
    obtain ⟨_, -, rfl⟩ := h
    split <;> simp [leakAccount]

theorem return_leaks (inside : s.Inside result) (faithful : s.Faithful source)
    (run : Runs (lowerStmt source (.ret (some value))) s () t) (fits : t.program.Fits) :
    Amounts leakAccount s t (source.holdsRaw value) := by
  simp only [lowerStmt, runs_bind] at run
  obtain ⟨_, u, storeRun, run⟩ := run
  obtain ⟨_, code⟩ : ∃ nodes, Code s.env result u t nodes _ _ _ := Code.refl.jump run
  have left : Amounts leakAccount u t false :=
    code.amounts (by simp [Account.Quiet, effectsOf, Skeleton.effects, leakAccount])
  have stored := storeReturn_leaks inside faithful storeRun (run.fits_before (by simp) fits)
  have both := stored.trans left (storeRun.noLarger (by simp)).instrs code.keeps
  rwa [show leakAccount.join (source.holdsRaw value) false = source.holdsRaw value from Bool.or_false _] at both

theorem leaks_explain : Explains source native leakAccount (Stmt.leaks source) (stmtsLeak source) where
  nil := by rw [stmtsLeak]; rfl
  cons _ _ := by rw [stmtsLeak]; rfl
  loop _ := by rw [Stmt.leaks]
  branch _ _ _ := by rw [Stmt.leaks]; rfl
  declare _ := by rw [Stmt.leaks]; rfl
  simple {stmt _ _ _} simple inside calling run fits := by
    cases stmt with
    | declare id | function name ids | loop body | branch condition thenBody elseBody => cases simple
    | assign target value mask condition =>
      simp only [lowerStmt] at run
      exact assign_leaks inside calling.faithful run fits
    | ret value =>
      rw [Stmt.leaks.eq_def]
      cases value with
      | none =>
        exact quiet_amounts inside run fits
          (by simp [Stmt.skeleton?, returning, Account.Quiet, effectsOf, Skeleton.effects, leakAccount])
      | some value => exact return_leaks inside calling.faithful run fits
    | call call =>
      rw [Stmt.leaks]
      refine quiet_amounts inside run fits fun {effects} read => ?_
      simp only [Stmt.skeleton?, Option.map_eq_some_iff] at read
      obtain ⟨_, read, rfl⟩ := read
      exact calling_quiet read
    | jump jump =>
      rw [Stmt.leaks]
      exact quiet_amounts inside run fits
        (by cases jump <;> simp [Stmt.skeleton?, Account.Quiet, effectsOf, Skeleton.effects, leakAccount])
    | discard condition | emitVertex stream | endPrimitive stream | barrier =>
      rw [Stmt.leaks]
      exact quiet_amounts inside run fits
        (by simp [Stmt.skeleton?, Account.Quiet, effectsOf, Skeleton.effects, leakAccount])

/-! ### Whole programs -/

/-- The signatures in `done` are lowered, and what they took out of buffer memory is what they say. -/
structure Accounted (source : Source.Program) (native : Bool) (start : State) (done : List SignatureId) (s : State) :
    Prop where
  filled : Filled source done s
  calling : s.Calling source native
  grown : start.program.instrs.size ≤ s.program.instrs.size
  leaks : Amounts leakAccount start s (done.any source.leaks)

namespace Accounted
variable {start : State} {done : List SignatureId}

theorem declare (h : Accounted source native start done s) {x : Source.VarId} (run : Runs (declare source x) s v t)
    (fits : t.program.Fits) : Accounted source native start done t := by
  have declares := declare_declares run
  refine ⟨h.filled.declare run, h.calling.declare run fits, by rw [declares.instrs]; exact h.grown,
    fun q kept small => ?_⟩
  rw [declares.instrs]
  exact h.leaks (declares.keeps.trans kept fun _ => id) small

theorem lowerSignature (h : Accounted source native start done s) {x : SignatureId}
    (run : Runs (lowerSignature source x) s () t) (fits : t.program.Fits) :
    Accounted source native start (done ++ [x]) t := by
  have filled := h.filled.lowerSignature run fits
  obtain ⟨signature, found, outcome⟩ := lowerSignature_ok run
  have stated : source.leaks x =
      (!signature.isIntrinsic && signature.isDefined && stmtsLeak source signature.body) := by
    rw [Source.Program.leaks, found, Option.any_some]
  have both : (done ++ [x]).any source.leaks = (done.any source.leaks || source.leaks x) := by simp
  rw [stated] at both
  obtain ⟨builtin, rfl⟩ | ⟨user, f, -, ⟨declared, log, rfl⟩ | ⟨defined, body⟩⟩ := outcome
  · simp only [builtin, Bool.not_true, Bool.false_and, Bool.or_false] at both
    exact ⟨filled, h.calling, h.grown, both ▸ h.leaks⟩
  · simp only [declared, Bool.and_false, Bool.false_and, Bool.or_false] at both
    exact ⟨filled, ⟨h.calling.callees, h.calling.native, h.calling.stands⟩, h.grown, both ▸ h.leaks⟩
  · simp only [user, defined, Bool.not_false, Bool.true_and] at both
    obtain ⟨calling, leaks⟩ := leaks_explain.lowerBody h.filled.bound h.calling body fits
    obtain ⟨code, lowers⟩ := lowerBody_code h.filled.bound body fits
    have grown := Program.Keeps.size_le lowers.keeps.instrs
    exact ⟨filled, calling, Nat.le_trans h.grown grown, both ▸ h.leaks.trans leaks h.grown lowers.keeps⟩

end Accounted

/-- A lowered program copies a raw boolean out of buffer memory exactly if the body of a listed signature
assigns or returns one as a whole. -/
theorem lower_leaks_iff {capabilities : Capabilities} {p : Target.Program} (h : lower source capabilities = .ok p)
    (fits : p.Fits) :
    (∃ x ∈ p.instrs, p.leaks x.operation = true) ↔ ∃ id ∈ source.listed, source.leaks id = true := by
  obtain ⟨s, t, info, registered, lowered, rfl⟩ := lower_ok h
  have small : t.program.Fits := ⟨fits.instrs, fits.values, fits.vars, fits.links, fits.functions⟩
  have registers := registerAll_registers (initial_registers source capabilities) registered
  have path := (stepwise_registerAll source source.statements).path registered
  have start : Accounted source capabilities.nativeIntegers s [] s :=
    ⟨registers.filled, ⟨funext registers.callees, path.steady.native, fun _ _ found => absurd found registers.unbound⟩,
      Nat.le_refl _, .refl s⟩
  have done : Accounted source capabilities.nativeIntegers s source.listed t :=
    lowerAll_invariant (fun before run fits => before.declare run fits)
      (fun before run fits => before.lowerSignature run fits) start lowered small
  have leaks := done.leaks (q := { t.program with info }) ⟨id, id, id, fun _ => id⟩ fits
  rw [← List.any_eq_true]
  refine Iff.trans ?_ leaks
  rw [registers.instrs]
  constructor
  · rintro ⟨x, member, leaks⟩
    obtain ⟨i, found⟩ := Array.mem_iff_getElem?.mp member
    obtain ⟨inside, -⟩ := Array.getElem?_eq_some_iff.mp found
    refine ⟨⟨UInt32.ofNat i⟩, mem_instsBetween.mpr ⟨i, Nat.zero_le i, inside, rfl⟩, x, ?_, leaks⟩
    rw [Program.instr?, UInt32.toNat_ofNat_of_lt' (Nat.lt_trans inside fits.instrs), found]
  · rintro ⟨id, -, x, found, leaks⟩
    exact ⟨x, Array.mem_of_getElem? found, leaks⟩

namespace Flag

def flag : Rvalue := .place (.var ⟨0⟩ (.scalar .bool))

/-- Assign a value to an output, where a boolean in a uniform block is in scope. -/
def assigning (value : Rvalue) : Source.Program where
  name := "raw"
  layout := .fragment false .none false
  vars := #[
    { name := "flag", type := .scalar .bool, mode := .uniform, interfaceBlock := some "Blk" },
    { name := "seen", type := .scalar .bool, mode := .shaderOut }]
  signatures := #[
    { name := "main", returnType := .void, parameters := [], isDefined := true,
      body := [.assign (.var ⟨1⟩ (.scalar .bool)) value 1 none] }]
  statements := [.declare ⟨0⟩, .declare ⟨1⟩, .function "main" [⟨0⟩]]

end Flag

/-- Read through a selector, the boolean is loaded and tested, and no copy takes it along. -/
theorem lower_leaks_iff_selected : ∃ p, lower (Flag.assigning (.swizzle Flag.flag (.all 0) 1)) {} = .ok p ∧ p.Fits ∧
    ∀ x ∈ p.instrs, p.leaks x.operation = false := by
  obtain ⟨p, lowered, fits⟩ : ∃ p, lower (Flag.assigning (.swizzle Flag.flag (.all 0) 1)) {} = .ok p ∧ p.Fits :=
    lower_checked (by decide +kernel)
  have silent : ¬ ∃ id ∈ (Flag.assigning (.swizzle Flag.flag (.all 0) 1)).listed,
      (Flag.assigning (.swizzle Flag.flag (.all 0) 1)).leaks id = true := by
    decide
  refine ⟨p, lowered, fits, fun x member => ?_⟩
  cases leaks : p.leaks x.operation with
  | false => rfl
  | true => exact absurd ((lower_leaks_iff lowered fits).mp ⟨x, member, leaks⟩) silent

/-- Assigned as it is, the boolean is copied out of the block without a test. -/
theorem lower_copies_raw : ∃ p, lower (Flag.assigning Flag.flag) {} = .ok p ∧
    ∃ x ∈ p.instrs, p.leaks x.operation = true := by
  have checked : (lower (Flag.assigning Flag.flag) {}).toOption.any (fun p =>
      p.instrs[0]?.any fun x => p.leaks x.operation) = true := by
    decide +kernel
  cases result : lower (Flag.assigning Flag.flag) {} with
  | error e => simp [result, Except.toOption] at checked
  | ok p =>
    simp only [result, Except.toOption, Option.any_some, Option.any_eq_true] at checked
    obtain ⟨x, found, leaks⟩ := checked
    exact ⟨p, rfl, x, Array.mem_of_getElem? found, leaks⟩

end Lowering

end ShaderSSA
