import ShaderSSA.Proofs.Calls

/-!
Statements leave the skeleton that is read from them, and read only values that are visible.
-/

namespace ShaderSSA.Lowering
open Source Target Lower

def State.returnVar? (s : State) : Option Target.VarId :=
  s.scope.current.bind fun f => (s.program.code? f.index.toNat).bind Prod.fst

/-- The state is inside a function that returns its value in `result`, a variable without a name. -/
structure State.Inside (s : State) (result : Option Target.VarId) : Prop where
  bound : s.Bound
  unbound : ∀ {i : Nat} {v}, s.scope.vars[i]? = some (some v) → result ≠ some v
  returned : ∀ {v}, result = some v → ∃ x, s.program.var? v = some x ∧ x.storage = .functionLocal
  returns : s.returnVar? = result

variable {env : Env} {result : Option Target.VarId} {source : Source.Program} {s u t : State} {nodes : List Node}
  {known : List Known} {live : List Live} {effects : List Skeleton} {a : Unit} {condition : Option Rvalue}
  {mask : UInt8} {target : Place} {v : Target.VarId} {value : Rvalue} {op : IntrinsicOp}

/-! ### Inside a function -/

theorem Path.returnVar?_eq (path : Path .statement s t) : t.returnVar? = s.returnVar? := by
  rw [State.returnVar?, State.returnVar?, path.code?_eq (by simp), path.scope_frame]

theorem Path.callees_eq (path : Path .statement s t) : t.callees = s.callees := by
  funext id
  rw [State.callees, State.callees, path.scope_frame]

namespace State.Inside

theorem ready (inside : s.Inside result) : s.Ready s.env := State.Bound.ready inside.bound

theorem listed (inside : s.Inside result) {v : Target.VarId} (is : result = some v) :
    v.index.toNat < s.program.vars.size := by
  obtain ⟨x, there, -⟩ := inside.returned is
  exact (Array.getElem?_eq_some_iff.mp there).1

theorem apart (inside : s.Inside result) : s.env.Apart result where
  unbound := inside.unbound
  listed := fun is => by simpa [State.env] using inside.listed is

theorem along (inside : s.Inside result) (path : Path .statement s t)
    (unbound : ∀ {i : Nat} {v}, t.scope.vars[i]? = some (some v) → result ≠ some v) : t.Inside result where
  bound := path.bound inside.bound
  unbound := unbound
  returned := by
    intro v is
    obtain ⟨x, there, storage⟩ := inside.returned is
    exact ⟨x, path.keeps.vars there, storage⟩
  returns := path.returnVar?_eq.trans inside.returns

theorem inRegion (inside : s.Inside result) (region : Region) : State.Inside { s with region } result :=
  ⟨inside.bound, inside.unbound, inside.returned, inside.returns⟩

theorem step (inside : s.Inside result) {α : Type} {m : Lower α} {a : α} (run : Runs m s a t)
    (plain : Stepwise .value m) : t.Inside result := by
  have path := plain.path run
  refine inside.along path.of_value ?_
  rw [path.scope_eq]
  exact inside.unbound

end State.Inside

/-! ### Single statements -/

theorem declare_code (inside : s.Inside result) {id : Source.VarId} (run : Runs (declare source id) s v t)
    (fits : t.program.Fits) : Code env result s t [] [] [] [] ∧ t.Inside result := by
  have path := (stepwise_declare source id).path run
  obtain ⟨-, _, p, scope, log, -, -, added, named, rfl⟩ := declare_ok run
  obtain ⟨rfl, -⟩ := Program.addVariable_ok added
  obtain ⟨owner, vars, instrs, values, links⟩ := Program.addVariable_vars added
  refine ⟨.still instrs values links rfl (by rw [vars]; exact getElem?_push_of_some), inside.along path ?_⟩
  obtain ⟨within, rfl⟩ := bindVariable_ok named
  have small : p.vars.size < UInt32.size := fits.vars
  rw [vars, Array.size_push] at small
  intro i v found is
  simp only [Array.getElem?_setIfInBounds, within, if_true] at found
  split at found
  · obtain rfl := Option.some.inj (Option.some.inj found)
    have earlier := inside.listed is
    rw [UInt32.toNat_ofNat_of_lt' (Nat.lt_of_succ_lt small)] at earlier
    exact Nat.lt_irrefl _ earlier
  · exact inside.unbound found is

theorem guarded_code (h : Code env result s u nodes known live []) (ready : u.Ready env) {emission : Lower Unit}
    (args : List Known) (chains : List Live) {e : Effect}
    (emits : ∀ {u t : State}, Runs emission u () t → ∃ op, t = u.withEffect op ∧
      Operands op args chains known live ∧ op.isPlain = true ∧ leaves result op chains = [.effect e])
    (run : Runs (guarded source condition emission) u () t) (fits : t.program.Fits) :
    ∃ nodes', Code env result s t nodes' [] []
      [if condition.isSome then .branch [.effect e] [] else .effect e] := by
  cases condition with
  | none =>
    simp only [guarded] at run
    obtain ⟨op, rfl, ops, plain, left⟩ := emits run
    have code := (h.effect ops plain).weaken (List.nil_subset _) (List.Subset.refl _)
    rw [left] at code
    exact ⟨_, code⟩
  | some c =>
    simp only [guarded, runs_bind, runs_inRegion, runs_modifyRegion] at run
    obtain ⟨v, w, valueRun, _, _, ⟨x, emitted, rfl, rfl⟩, rfl⟩ := run
    obtain ⟨op, rfl, ops, plain, left⟩ := emits emitted
    have step : Step .value { w with region := {} } (State.withEffect { w with region := {} } op) := .effect op
    have before : w.program.Fits := Program.Fits.of_noLarger fits step.noLarger
    obtain ⟨_, tree, -, valueCode⟩ := evaluate_code source c ready valueRun before
    have both := h.trans valueCode
    have here : (v, tree) ∈ known ++ [(v, tree)] := by simp
    have reads := ops.mono (List.subset_append_left known [(v, tree)]) (List.subset_append_left live [])
    rw [Option.isSome_some, if_pos rfl, ← left]
    exact ⟨_, both.guard here reads ⟨rfl, rfl, rfl, id⟩ plain rfl⟩

theorem guardedStore_code {c : Live} {k : Known} (h : Code env result s u nodes [k] [c] []) (ready : u.Ready env)
    (apart : env.Apart result) (path : target.path env = some c.path)
    (run : Runs (guarded source condition (storeLocation c.head k.1 mask)) u () t) (fits : t.program.Fits) :
    ∃ nodes', Code env result s t nodes' [] []
      [if condition.isSome then .branch [.effect (.store false)] [] else .effect (.store false)] := by
  have before : u.program.Fits := run.fits_before (by simp) fits
  rw [← h.returned_eq_false before apart List.mem_cons_self path]
  refine guarded_code h ready [k] [c] (fun emitted => ?_) run fits
  obtain ⟨indices, rfl⟩ := storeLocation_ok emitted
  exact ⟨_, rfl, operands_store List.mem_cons_self List.mem_cons_self indices, rfl, leaves_store⟩

theorem assignment_eq {full : UInt8} (isFull : fullMask target.type.rows = .ok full) (value : Rvalue) (mask : UInt8) :
    assignment target value mask =
      if value.isStored && (mask = full || mask = 0) then .copy false else .store false := by
  simp only [assignment, isFull, Except.toOption, Option.some.injEq, eq_comm (a := full), Bool.or_comm]

theorem assign_ok (run : Runs (assign source target value mask condition) s () t) :
    ∃ dst w, Runs (placeChain source target) s dst w ∧
      ((assignment target value mask = .copy false ∧ ∃ src u, Runs (locationChain source value) w src u ∧
          Runs (guarded source condition (copyLocation dst.head src.head)) u () t) ∨
        (assignment target value mask = .store false ∧ ∃ v u v' x written, Runs (evaluate source value) w v u ∧
          (v' = v ∧ x = u ∨ ∃ lanes, Runs (reorder v lanes target.type.rows) u v' x) ∧
          Runs (guarded source condition (storeLocation dst.head v' written)) x () t)) := by
  simp only [assign, runs_bind, runs_check] at run
  obtain ⟨full, s, ⟨isFull, rfl⟩, run⟩ := run
  rw [assignment_eq isFull]
  split at run
  · rename_i copied
    simp only [runs_bind] at run
    obtain ⟨dst, w, dstRun, src, u, srcRun, run⟩ := run
    rw [if_pos copied]
    exact ⟨dst, w, dstRun, .inl ⟨rfl, src, u, srcRun, run⟩⟩
  · rename_i stored
    simp only [runs_bind] at run
    obtain ⟨dst, w, dstRun, v, u, valueRun, run⟩ := run
    generalize (if mask = 0 then full else mask) = written at run
    rw [if_neg stored]
    refine ⟨dst, w, dstRun, .inr ⟨rfl, ?_⟩⟩
    split at run
    · obtain ⟨_, _, same, run⟩ := runs_bind.mp run
      obtain ⟨rfl, rfl⟩ := runs_pure.mp same
      exact ⟨_, _, _, _, _, valueRun, .inl ⟨rfl, rfl⟩, run⟩
    · obtain ⟨v', x, orderRun, run⟩ := runs_bind.mp run
      exact ⟨v, u, v', x, _, valueRun, .inr ⟨_, orderRun⟩, run⟩

/-- An assignment copies or stores, in the branch of its condition. -/
theorem assign_code (inside : s.Inside result) (run : Runs (assign source target value mask condition) s () t)
    (fits : t.program.Fits) :
    ∃ nodes, Code env result s t nodes [] []
      [if condition.isSome then .branch [.effect (assignment target value mask)] []
        else .effect (assignment target value mask)] := by
  have ready := inside.ready
  obtain ⟨dst, u, dstRun, ⟨copied, src, w, srcRun, run⟩ | ⟨stored, v, w, v', x, written, valueRun, order, run⟩⟩ :=
    assign_ok run
  · have later : w.program.Fits := run.fits_before (by simp) fits
    obtain ⟨_, c, path, names, dstCode⟩ :=
      placeChain_code source target ready dstRun (srcRun.fits_before (by simp) later)
    have ready' := ready.step dstRun (by simp) dstCode
    obtain ⟨_, d, head, srcCode⟩ := locationChain_code ready' srcRun later
    have both : Code s.env result s w _ _ _ _ := dstCode.trans srcCode
    rw [← names.head, ← head] at run
    obtain ⟨nodes, code⟩ := guarded_code both (ready'.step srcRun (by simp) srcCode) [] [c, d]
      (fun emitted => ⟨_, emitEffect_ok emitted, operands_copy (by simp) (by simp) {}, rfl, leaves_copy⟩)
      run fits
    rw [both.returned_eq_false later inside.apart (by simp) path] at code
    rw [copied]
    exact ⟨nodes, code.closed env⟩
  · have last : x.program.Fits := run.fits_before (by simp) fits
    have later : w.program.Fits := by
      obtain ⟨-, rfl⟩ | ⟨lanes, orderRun⟩ := order
      · exact last
      · exact orderRun.fits_before (by simp) last
    obtain ⟨_, c, path, names, dstCode⟩ :=
      placeChain_code source target ready dstRun (valueRun.fits_before (by simp) later)
    have ready' := ready.step dstRun (by simp) dstCode
    obtain ⟨_, tree, -, valueCode⟩ := evaluate_code source value ready' valueRun later
    have ready'' := ready'.step valueRun (by simp) valueCode
    rw [stored]
    rw [← names.head] at run
    obtain ⟨rfl, rfl⟩ | ⟨lanes, orderRun⟩ := order
    · have both : Code s.env result s x _ _ _ _ := dstCode.trans valueCode
      obtain ⟨nodes, code⟩ := guardedStore_code both ready'' inside.apart path run fits
      exact ⟨nodes, code.closed env⟩
    · obtain ⟨_, orderCode⟩ := reorder_code valueCode orderRun later ready'' List.mem_cons_self
      have ready₃ := ready'.along (((evaluates_evaluate _ _).stepwise.path valueRun).trans
        ((evaluates_reorder _ _ _).stepwise.path orderRun)) orderCode.keeps
      obtain ⟨nodes, code⟩ := guardedStore_code (dstCode.trans orderCode) ready₃ inside.apart path run fits
      exact ⟨nodes, code.closed env⟩

theorem returnVariable_ok (run : Runs returnVariable s v t) : t = s ∧ s.returnVar? = some v := by
  simp only [returnVariable, runs_bind, runs_scope] at run
  obtain ⟨_, _, ⟨rfl, rfl⟩, run⟩ := run
  split at run
  · exact (runs_abort run).elim
  rename_i f current
  simp only [runs_bind, runs_program, runs_check] at run
  obtain ⟨_, _, ⟨rfl, rfl⟩, function, _, ⟨found, rfl⟩, run⟩ := run
  split at run
  · rename_i w body
    obtain ⟨rfl, rfl⟩ := runs_pure.mp run
    refine ⟨rfl, ?_⟩
    simp only [Program.getFunction] at found
    split at found
    · rename_i g there
      obtain rfl := Except.ok.inj found
      rw [Program.function?] at there
      cases written : g.body <;> simp_all [State.returnVar?, Program.code?]
    · cases found
  · exact (runs_abort run).elim

theorem returnChain_code (ready : s.Ready env) (apart : env.Apart result) (is : result = some v) {type : ShaderType}
    {chain : Chain} (run : Runs (rootChain v type) s chain t) :
    ∃ c : Live, c.head = chain.head ∧ c.path = [.var v] ∧ returned result c = true ∧
      Code env result s t [] [] [c] [] := by
  obtain ⟨rfl, rfl⟩ := rootChain_ok run
  have rooted := ready.rooted (apart.listed is)
  refine ⟨⟨⟨s.program.links.size, .var v, type⟩, [], [.var v]⟩, rfl, rfl, ?_, .root rooted type⟩
  simp [returned, is, Live.kinds, Live.spots]

theorem storeReturn_code (inside : s.Inside result) (run : Runs (storeReturn source value) s a t)
    (fits : t.program.Fits) :
    ∃ nodes, Code env result s t nodes [] []
      [.effect (if value.isStored then .copy true else .store true)] := by
  have ready := inside.ready
  simp only [storeReturn, runs_bind, runs_program, runs_check] at run
  obtain ⟨v, s, varRun, _, _, ⟨rfl, rfl⟩, x, _, ⟨-, rfl⟩, run⟩ := run
  obtain ⟨rfl, isReturn⟩ := returnVariable_ok varRun
  have is := inside.returns.symm.trans isReturn
  split at run
  · rename_i stored
    simp only [runs_bind] at run
    obtain ⟨dst, u, dstRun, src, w, srcRun, run⟩ := run
    have later := run.fits_before (by simp) fits
    obtain ⟨c, dstHead, -, isReturned, dstCode⟩ := returnChain_code ready inside.apart is dstRun
    obtain ⟨_, d, srcHead, srcCode⟩ := locationChain_code (ready.step dstRun (by simp) dstCode) srcRun later
    rw [← dstHead, ← srcHead] at run
    obtain ⟨nodes, code⟩ := copyLocation_code (dstCode.trans srcCode) (by simp) (by simp) run
    rw [isReturned] at code
    rw [if_pos stored]
    exact ⟨nodes, code.closed env⟩
  · rename_i computed
    simp only [runs_bind, runs_valueDef, runs_check] at run
    obtain ⟨k, u, valueRun, dst, w, dstRun, d, _, ⟨-, rfl⟩, mask, _, ⟨-, rfl⟩, run⟩ := run
    have later := run.fits_before (by simp) fits
    have before := dstRun.fits_before (by simp) later
    obtain ⟨_, tree, -, valueCode⟩ := evaluate_code source value ready valueRun before
    obtain ⟨c, head, -, isReturned, dstCode⟩ :=
      returnChain_code (ready.step valueRun (by simp) valueCode) inside.apart is dstRun
    rw [← head] at run
    obtain ⟨nodes, code⟩ := storeLocation_code (valueCode.trans dstCode) (by simp) List.mem_cons_self run
    rw [isReturned] at code
    rw [if_neg computed]
    exact ⟨nodes, code.closed env⟩

/-! ### Statements -/

theorem Code.act (h : Code env result s u nodes known live effects) (acts : Acts op) {args : List Known}
    (among : args ⊆ known) {indices : Indices}
    (run : Runs (emitEffect (.intrinsic op (srcsOf [] args) indices)) u a t) :
    ∃ nodes', Code env result s t nodes' [] [] (effects ++ [.effect (.intrinsic op indices.stream)]) := by
  obtain rfl := emitEffect_ok run
  have ops : Operands (.intrinsic op (srcsOf [] args) indices) args [] known live :=
    operands_intrinsic [] args (List.nil_subset _) among
  have code := (h.effect ops acts.isPlain).weaken (List.nil_subset _) (List.Subset.refl _)
  rw [acts.leaves_eq] at code
  exact ⟨_, code⟩

theorem Code.jump (h : Code env result s u nodes known live effects) {kind : JumpKind}
    (run : Runs (emitEffect (.jump kind)) u a t) :
    ∃ nodes', Code env result s t nodes' [] [] (effects ++ [.effect (.jump kind)]) := by
  obtain rfl := emitEffect_ok run
  have ops : Operands (.jump kind) [] [] known live := ⟨rfl, rfl, List.nil_subset _, List.nil_subset _⟩
  exact ⟨_, (h.effect ops rfl).weaken (List.nil_subset _) (List.Subset.refl _)⟩

theorem emitStream_code (acts : Acts op) {kind : String} {stream : Rvalue}
    (run : Runs (emitStream op kind stream) s a t) :
    ∃ nodes, Code env result s t nodes [] [] [.effect (.intrinsic op stream.word?)] := by
  unfold emitStream at run
  split at run
  · rename_i word is
    rw [is]
    exact Code.refl.act acts (List.Subset.refl []) run
  · exact (runs_abort run).elim

theorem discard_code (inside : s.Inside result) (run : Runs (lowerStmt source (.discard condition)) s a t)
    (fits : t.program.Fits) :
    ∃ nodes, Code env result s t nodes [] []
      [.effect (.intrinsic (if condition.isSome then .discardIf else .discard) none)] ∧ t.Inside result := by
  -- the note that the program discards changes neither code nor variables
  have noted : ∀ {u : State} {info : Info},
      Code env result u { u with program := { u.program with info } } [] [] [] [] :=
    .still rfl rfl rfl rfl id
  simp only [lowerStmt] at run
  cases condition with
  | none =>
    simp only [runs_bind, runs_program, runs_setProgram] at run
    obtain ⟨_, u, emitted, _, _, ⟨rfl, rfl⟩, rfl⟩ := run
    obtain ⟨_, code⟩ : ∃ nodes, Code env result s _ nodes [] [] [.effect (.intrinsic .discard none)] :=
      Code.refl.act (by decide) (List.Subset.refl []) emitted
    have after := inside.step emitted (by simp)
    exact ⟨_, code.trans noted, after.bound, after.unbound, after.returned, after.returns⟩
  | some c =>
    simp only [runs_bind, runs_program, runs_setProgram] at run
    obtain ⟨v, w, valueRun, _, _, emitted, _, u, ⟨rfl, rfl⟩, rfl⟩ := run
    have small : u.program.Fits := ⟨fits.instrs, fits.values, fits.vars, fits.links, fits.functions⟩
    obtain ⟨_, tree, -, valueCode⟩ :=
      evaluate_code source c inside.ready valueRun (emitted.fits_before (by simp) small)
    obtain ⟨_, code⟩ := valueCode.act (by decide) (List.Subset.refl _) emitted
    have after := (inside.step valueRun (by simp)).step emitted (by simp)
    exact ⟨_, (code.closed env).trans noted, after.bound, after.unbound, after.returned, after.returns⟩

theorem return_code (inside : s.Inside result) {value : Option Rvalue}
    (run : Runs (lowerStmt source (.ret value)) s a t) (fits : t.program.Fits) :
    ∃ nodes, Code env result s t nodes [] [] ((returning value).map .effect) ∧ t.Inside result := by
  simp only [lowerStmt] at run
  cases value with
  | none =>
    obtain ⟨nodes, code⟩ := Code.refl.jump run
    exact ⟨nodes, code, inside.step run (by simp)⟩
  | some r =>
    simp only [runs_bind] at run
    obtain ⟨_, u, storeRun, run⟩ := run
    obtain ⟨_, stored⟩ := storeReturn_code inside storeRun (run.fits_before (by simp) fits)
    obtain ⟨nodes, code⟩ := stored.jump run
    exact ⟨nodes, code, (inside.step storeRun (by simp)).step run (by simp)⟩

mutual

theorem lowerStmt_code (source : Source.Program) : ∀ (stmt : Stmt) {s t : State}, s.Inside result →
    Runs (lowerStmt source stmt) s () t → t.program.Fits →
    ∃ nodes effects, stmt.skeleton? source s.callees = some effects ∧
      Code env result s t nodes [] [] effects ∧ t.Inside result
  | .declare id, s, t, inside, run, fits => by
    simp only [lowerStmt, runs_bind, runs_pure] at run
    obtain ⟨v, _, run, -, rfl⟩ := run
    obtain ⟨code, after⟩ := declare_code inside run fits
    exact ⟨[], [], rfl, code, after⟩
  | .function name ids, s, t, inside, run, fits => by
    simp only [lowerStmt] at run
    exact (runs_abort run).elim
  | .loop body, s, t, inside, run, fits => by
    obtain ⟨u, inner, rfl⟩ := lowerStmt_loop run
    obtain ⟨nodes, effects, read, code, after⟩ := lowerStmts_code source body (inside.inRegion {}) inner fits
    rw [State.callees_region] at read
    exact ⟨_, _, by simp [Stmt.skeleton?, read], code.loop, after.inRegion _⟩
  | .branch condition thenBody elseBody, s, t, inside, run, fits => by
    obtain ⟨c, u, v, w, valueRun, thenRun, elseRun, rfl⟩ := lowerStmt_branch run
    have afterElse : v.program.Fits := elseRun.fits_before (stepwise_lowerStmts source elseBody) fits
    have afterThen : u.program.Fits := thenRun.fits_before (stepwise_lowerStmts source thenBody) afterElse
    obtain ⟨_, tree, -, valueCode⟩ := evaluate_code source condition inside.ready valueRun afterThen
    have chosen := inside.step valueRun (by simp)
    obtain ⟨_, x, thenRead, thenCode, between⟩ :=
      lowerStmts_code source thenBody (chosen.inRegion {}) thenRun afterElse
    obtain ⟨_, y, elseRead, elseCode, after⟩ :=
      lowerStmts_code source elseBody (between.inRegion {}) elseRun fits
    have code := valueCode.branch List.mem_cons_self (thenCode.closed s.env) (elseCode.closed s.env)
    -- what signatures stand for is the same in both arms
    have first := ((evaluates_evaluate source condition).stepwise.path valueRun).callees_eq
    have second := ((stepwise_lowerStmts source thenBody).path thenRun).callees_eq
    simp only [State.callees_region] at thenRead elseRead second
    rw [first] at thenRead
    rw [second, first] at elseRead
    exact ⟨_, _, by simp [Stmt.skeleton?, thenRead, elseRead], code.closed env, after.inRegion _⟩
  | .discard condition, s, t, inside, run, fits => by
    obtain ⟨nodes, code, after⟩ := discard_code inside run fits
    exact ⟨nodes, _, rfl, code, after⟩
  | .jump jump, s, t, inside, run, fits => by
    simp only [lowerStmt] at run
    obtain ⟨nodes, code⟩ := Code.refl.jump run
    refine ⟨nodes, _, ?_, code, inside.step run (by simp)⟩
    cases jump <;> rfl
  | .ret value, s, t, inside, run, fits => by
    obtain ⟨nodes, code, after⟩ := return_code inside run fits
    exact ⟨nodes, _, rfl, code, after⟩
  | .call call, s, t, inside, run, fits => by
    simp only [lowerStmt] at run
    obtain ⟨nodes, effects, read, code⟩ := lowerCall_code inside.ready inside.apart run fits
    exact ⟨nodes, effects.map .effect, by rw [Stmt.skeleton?, read, Option.map_some], code.closed env,
      inside.step run (by simp)⟩
  | .assign target value mask condition, s, t, inside, run, fits => by
    simp only [lowerStmt] at run
    obtain ⟨nodes, code⟩ := assign_code inside run fits
    exact ⟨nodes, _, rfl, code, inside.step run (by simp)⟩
  | .emitVertex stream, s, t, inside, run, fits | .endPrimitive stream, s, t, inside, run, fits => by
    simp only [lowerStmt] at run
    obtain ⟨nodes, code⟩ := emitStream_code (by decide) run
    exact ⟨nodes, _, rfl, code, inside.step run (by simp)⟩
  | .barrier, s, t, inside, run, fits => by
    simp only [lowerStmt] at run
    obtain ⟨nodes, code⟩ := Code.refl.act (by decide) (List.Subset.refl []) run
    exact ⟨nodes, _, rfl, code, inside.step run (by simp)⟩

theorem lowerStmts_code (source : Source.Program) : ∀ (stmts : List Stmt) {s t : State}, s.Inside result →
    Runs (lowerStmts source stmts) s () t → t.program.Fits →
    ∃ nodes effects, stmtsSkeleton? source s.callees stmts = some effects ∧
      Code env result s t nodes [] [] effects ∧ t.Inside result
  | [], s, t, inside, run, fits => by
    obtain rfl := lowerStmts_nil run
    exact ⟨[], [], rfl, .refl, inside⟩
  | stmt :: stmts, s, t, inside, run, fits => by
    obtain ⟨u, first, rest⟩ := lowerStmts_cons run
    obtain ⟨_, x, firstRead, firstCode, between⟩ :=
      lowerStmt_code source stmt inside first (rest.fits_before (stepwise_lowerStmts source stmts) fits)
    obtain ⟨_, y, restRead, restCode, after⟩ := lowerStmts_code source stmts between rest fits
    rw [((composes_lowerStmt false source stmt).stepwise.path first).callees_eq] at restRead
    exact ⟨_, x ++ y, by simp [stmtsSkeleton?, firstRead, restRead], firstCode.trans restCode, after⟩

end

end ShaderSSA.Lowering
