import ShaderSSA.Proofs.Progress
import ShaderSSA.Proofs.Resources

/-!
Success. Well-formed statements, bodies and programs are lowered without failure, as long as every arena
has room for its handles.
-/

namespace ShaderSSA.Lowering
open Source Target Lower

variable {source : Source.Program} {seen : List Source.VarId} {returning : Bool} {s u t : State}
  {code : Option Target.VarId × List Node} {condition : Option Rvalue} {d : ValueDef} {decl : VarDecl}
  {done ids : List SignatureId} {f : FuncId} {head : LinkId} {id : SignatureId} {mask width : UInt8}
  {signature : Signature} {stmts : List Stmt} {v : ValueId}

/-! ### Assignments -/

theorem fullMask_ok (narrow : width ≤ 4) : ∃ full, fullMask width = .ok full := by
  have small : width < 16 := by
    rw [UInt8.le_iff_toNat_le] at narrow
    rw [UInt8.lt_iff_toNat_lt]
    exact Nat.lt_of_le_of_lt narrow (by decide)
  exact ⟨_, by rw [fullMask, if_pos small]⟩

theorem packedLane_lt {n : Nat} (enough : channels mask width ≤ n) (some : 0 < n) (i : Nat) :
    (packedLane mask width i).toNat < n := by
  simp only [packedLane]
  split
  · rename_i written
    simp only [Bool.and_eq_true, decide_eq_true_eq] at written
    have earlier : (List.range (i + 1)).countP (fun j => decide (j < width.toNat) && mask.toNat.testBit j) ≤
        channels mask width := by
      have counted : channels mask width =
          (List.range width.toNat).countP fun j => decide (j < width.toNat) && mask.toNat.testBit j := by
        refine List.countP_congr fun j member => ?_
        simp [List.mem_range.mp member]
      rw [counted]
      exact (List.range_sublist.mpr written.1).countP_le
    rw [List.range_succ, List.countP_append] at earlier
    simp only [List.countP_singleton, written, decide_true, Bool.and_self, if_true] at earlier
    rw [UInt8.toNat_ofNat']
    exact Nat.lt_of_le_of_lt (Nat.mod_le _ _) (by omega)
  · exact some

theorem packedLanes_lt {d : UInt8} (enough : channels mask width ≤ d.toNat) (some : 1 ≤ d) :
    ∀ c ∈ (packedLanes mask width).take width, c < d := by
  intro c member
  have one : 0 < d.toNat := by
    rw [UInt8.le_iff_toNat_le] at some
    exact some
  have four : c ∈ [0, 1, 2, 3].map (packedLane mask width) := List.mem_of_mem_take member
  obtain ⟨i, -, rfl⟩ := List.mem_map.mp four
  exact UInt8.lt_iff_toNat_lt.mpr (packedLane_lt enough one i)

theorem locationChain_safe (working : s.Working source seen returning) {r : Rvalue} (h : r.located seen = true) :
    Safe (locationChain source r) s := by
  cases r with
  | place p => exact placeChain_safe p working.toEnclosed h
  | constant l => exact constantChain_safe working.toEnclosed h
  | expression op type operands | swizzle value lanes width | texture texture => cases h

theorem storeLocation_safe (able : s.Able source seen) (found : s.program.value? v = some d) :
    Safe (storeLocation head v mask) s :=
  safe_valueDef found (emitEffect_safe able _)

theorem guarded_safe (working : s.Working source seen returning) (h : condition.all (·.evaluable seen) = true)
    {emission : Lower Unit} (safe : ∀ {u}, Path .statement s u → Safe emission u) :
    Safe (guarded source condition emission) s := by
  cases condition with
  | none => exact safe .refl
  | some c =>
    refine safe_bind (evaluate_safe c working.toEnclosed h) fun run => ?_
    have path : Path .statement s _ := (evaluates_evaluate source c).stepwise.path run
    exact safe_bind (safe_inRegion (safe (path.tail (.region {})))) fun _ => safe_modifyRegion

theorem Path.value?_eq {layer : Layer} (path : Path layer s t) (found : s.program.value? v = some d) :
    t.program.value? v = some d :=
  path.keeps.values found

theorem reorder_found {w : ValueId} (found : s.program.value? v = some d) {lanes : Lanes}
    (run : Runs (reorder v lanes width) s w t) (fits : t.program.Fits) : ∃ d, t.program.value? w = some d := by
  obtain ⟨_, -, ⟨-, rfl, rfl⟩ | ⟨-, -, run⟩⟩ := reorder_ok run
  · exact ⟨d, found⟩
  · obtain ⟨rfl, rfl, -⟩ := emitValue_ok run
    exact ⟨_, value?_nextValue fits.values id⟩

theorem guardedStore_safe (working : s.Working source seen returning) (h : condition.all (·.evaluable seen) = true)
    (found : s.program.value? v = some d) : Safe (guarded source condition (storeLocation head v mask)) s :=
  guarded_safe working h fun path => storeLocation_safe (working.along path).toAble (path.value?_eq found)

theorem packedStore_safe (working : s.Working source seen returning) (h : condition.all (·.evaluable seen) = true)
    (low : 1 ≤ width) (high : width ≤ 4)
    (shape : ∃ d, s.program.value? v = some d ∧ 1 ≤ d.width ∧ channels mask width ≤ d.width.toNat) :
    Safe (do
      let x ← reorder v (packedLanes mask width) width
      guarded source condition (storeLocation head x mask)) s := by
  obtain ⟨d, found, one, enough⟩ := shape
  refine safe_bind (reorder_safe working.toAble found low high (packedLanes_lt enough one)) fun run => ?_
  refine safe_of_fits (by simp) fun small => ?_
  obtain ⟨d, found⟩ := reorder_found found run small
  exact guardedStore_safe (working.step run (by simp)) h found

theorem assign_safe (working : s.Working source seen returning) {target : Place} {value : Rvalue}
    (h : (Stmt.assign target value mask condition).isWellFormed source returning seen = true) :
    Safe (assign source target value mask condition) s := by
  simp only [Stmt.isWellFormed, Bool.and_eq_true, decide_eq_true_eq] at h
  obtain ⟨⟨⟨narrow, reached⟩, assigned⟩, conditioned⟩ := h
  obtain ⟨full, isFull⟩ := fullMask_ok narrow
  have whole : writesAll target mask = (decide (mask = full) || decide (mask = 0)) := by
    simp [writesAll, isFull, Except.toOption, Bool.or_comm, eq_comm]
  rw [assignable, whole] at assigned
  refine safe_check isFull ?_
  split
  · rename_i copied
    rw [if_pos copied] at assigned
    refine safe_bind (placeChain_safe target working.toEnclosed reached) fun dstRun => ?_
    refine safe_bind (locationChain_safe (working.step dstRun (by simp)) assigned) fun srcRun => ?_
    have later := (working.step dstRun (by simp)).step srcRun (by simp)
    exact guarded_safe later conditioned fun path => emitEffect_safe (later.along path).toAble _
  · rename_i stored
    rw [if_neg stored] at assigned
    simp only [Bool.and_eq_true, Bool.or_eq_true, decide_eq_true_eq] at assigned
    obtain ⟨evaluable, spread⟩ := assigned
    refine safe_bind (placeChain_safe target working.toEnclosed reached) fun dstRun => ?_
    have before := working.step dstRun (by simp)
    refine safe_bind (evaluate_safe value before.toEnclosed evaluable) fun {v w} valueRun => ?_
    have later := before.step valueRun (by simp)
    have shaped := evaluate_shape evaluable before.bound valueRun
    by_cases all : (if mask = 0 then full else mask) = full
    · rw [if_pos all, pure_bind]
      refine safe_of_fits (by simp) fun small => ?_
      obtain ⟨d, found, -⟩ := shaped small
      exact guardedStore_safe later conditioned found
    · have some : mask ≠ 0 := fun zero => all (if_pos zero)
      rw [if_neg all]
      rw [if_neg some] at all ⊢
      refine safe_of_fits (stepwise_bind (by simp) fun _ => (by simp)) fun small => ?_
      obtain ⟨d, found, shape⟩ := shaped small
      obtain ⟨low, enough⟩ := spread.resolve_left (by simp [all, some])
      obtain ⟨base, rows, type, one, -⟩ := ShaderType.isValue_iff.mp (evaluable_isValue evaluable)
      exact packedStore_safe later conditioned low narrow ⟨d, found, by rw [shape, type]; exact one, by rwa [shape]⟩

/-! ### Returns and calls -/

theorem returnVariable_safe (working : s.Working source seen true) : Safe returnVariable s := by
  obtain ⟨v, found, -⟩ := working.returns rfl
  obtain ⟨f, current, -⟩ := working.inside
  simp only [State.returnVar?, current, Option.bind_some, Program.code?, Option.bind_eq_some_iff,
    Option.map_eq_some_iff] at found
  obtain ⟨_, ⟨b, ⟨g, there, body⟩, rfl⟩, isResult⟩ := found
  have function : s.program.getFunction f = .ok g := by
    simp [Program.getFunction, Program.function?, there]
  have returned : b.returnVar = some v := isResult
  refine safe_scope ?_
  rw [current]
  refine safe_program (safe_check function ?_)
  rw [body, Option.bind_some, returned]
  exact safe_pure v

theorem storeReturn_safe (working : s.Working source seen true) {value : Rvalue}
    (h : (if value.isStored then value.located seen else value.evaluable seen) = true) :
    Safe (storeReturn source value) s := by
  refine safe_bind (returnVariable_safe working) fun {var u} varRun => ?_
  obtain ⟨rfl, isResult⟩ := returnVariable_ok varRun
  obtain ⟨v, isVar, listed⟩ := working.returns rfl
  obtain rfl : var = v := Option.some.inj (isResult.symm.trans isVar)
  refine safe_program (safe_check (a := u.program.vars[var.index.toNat]) ?_ ?_)
  · simp [Target.Program.getVariable, Target.Program.var?, Array.getElem?_eq_getElem listed]
  split
  · rename_i stored
    rw [if_pos stored] at h
    refine safe_bind (safe_rootChain _ _) fun dstRun => ?_
    refine safe_bind (locationChain_safe (working.step dstRun (by simp)) h) fun srcRun => ?_
    exact emitEffect_safe ((working.step dstRun (by simp)).step srcRun (by simp)).toAble _
  · rename_i evaluated
    rw [if_neg evaluated] at h
    refine safe_bind (evaluate_safe value working.toEnclosed h) fun valueRun => ?_
    refine safe_bind (safe_rootChain _ _) fun dstRun => ?_
    refine safe_of_fits (stepwise_bind (by simp) fun _ => stepwise_bind (by simp) (by simp)) fun small => ?_
    have later := (working.step valueRun (by simp)).step dstRun (by simp)
    -- the value is as wide as its type, so its mask can be made
    obtain ⟨d, found, width⟩ := evaluate_shape h working.bound valueRun (dstRun.fits_before (by simp) small)
    obtain ⟨base, rows, type, -, high⟩ := ShaderType.isValue_iff.mp (evaluable_isValue h)
    have path : Path .statement _ _ := (stepwise_rootChain ..).path dstRun
    have narrow : d.width ≤ 4 := by rwa [width, type]
    obtain ⟨full, isFull⟩ := fullMask_ok narrow
    refine safe_valueDef (path.value?_eq found) (safe_check isFull ?_)
    exact storeLocation_safe later.toAble (path.value?_eq found)

theorem locations_safe {rs : List Rvalue} (working : s.Working source seen returning)
    (h : ∀ r ∈ rs, r.located seen = true) : Safe (locations source rs) s := by
  induction rs generalizing s with
  | nil => exact safe_pure []
  | cons r rs ih =>
    refine safe_bind (locationChain_safe working (h r List.mem_cons_self)) fun run => ?_
    refine safe_bind (ih (working.step run (by simp)) ?_) fun _ => safe_pure _
    exact fun r member => h r (List.mem_cons_of_mem _ member)

theorem functionOf?_of_listed (listed : id ∈ source.listed) (user : source.isUser id = true) :
    ∃ f, source.functionOf? id = some f := by
  obtain ⟨i, there⟩ := List.mem_iff_getElem?.mp (List.mem_filter.mpr ⟨listed, user⟩)
  cases last : lastPlace? (source.listed.filter source.isUser) id with
  | some i => exact ⟨⟨UInt32.ofNat i⟩, by rw [Program.functionOf?, last, Option.map_some]⟩
  | none =>
    simp only [lastPlace?, Option.map_eq_none_iff, List.find?_eq_none, List.mem_reverse] at last
    exact absurd (decide_eq_true rfl) (last (id, i) (List.mem_zipIdx_iff_getElem?.mpr there))

theorem resolveFunction_of_listed (callees : s.callees = source.functionOf?) (listed : id ∈ source.listed)
    (user : source.isUser id = true) : ∃ f, s.scope.resolveFunction source id = .ok f := by
  obtain ⟨f, function⟩ := functionOf?_of_listed listed user
  rw [← callees] at function
  have joined : s.scope.functions[id.index.toNat]?.join = some f := function
  exact ⟨f, by simp [Scope.resolveFunction, joined]⟩

theorem lowerCall_safe (working : s.Working source seen returning) {call : Source.Call}
    (h : (Stmt.call call).isWellFormed source returning seen = true) : Safe (lowerCall source call) s := by
  simp only [Stmt.isWellFormed, Bool.and_eq_true, List.contains_iff_mem, List.all_eq_true] at h
  obtain ⟨⟨⟨listed, user⟩, params⟩, target⟩ := h
  obtain ⟨f, resolved⟩ := resolveFunction_of_listed working.callees listed user
  simp only [Program.isUser, Option.any_eq_true, Bool.not_eq_true', Signature.isIntrinsic,
    Option.isSome_eq_false_iff, Option.isNone_iff_eq_none] at user
  obtain ⟨signature, found, builtin⟩ := user
  refine safe_check (getSignature_ok.mpr found) ?_
  rw [builtin]
  refine safe_scope (safe_check resolved (safe_bind (locations_safe working params) fun headRun => ?_))
  have later := working.step headRun (by simp)
  cases place : call.result with
  | none => exact emitEffect_safe later.toAble _
  | some p =>
    rw [place] at target
    simp only [pure_bind]
    refine safe_bind (placeChain_safe p later.toEnclosed target) fun chainRun => ?_
    exact emitEffect_safe (later.step chainRun (by simp)).toAble _

/-! ### Statements -/

theorem emitStream_safe (able : s.Able source seen) {op : IntrinsicOp} {kind : String} {stream : Rvalue}
    (h : stream.word?.isSome = true) : Safe (emitStream op kind stream) s := by
  obtain ⟨word, read⟩ := Option.isSome_iff_exists.mp h
  rw [emitStream, read]
  exact emitEffect_safe able _

theorem declare_safe (able : s.Able source seen) {id : Source.VarId} (found : source.var? id = some decl)
    (shaped : decl.initializer.all Literal.isShaped = true)
    (owned : (storageOf decl s.scope.current).isFunctionOwned = true →
      ∃ f, s.scope.current = some f ∧ ∃ code, s.program.code? f.index.toNat = some code) :
    Safe (declare source id) s := by
  obtain ⟨initializer, constant⟩ : ∃ c, initializerOf s.scope.nativeIntegers decl.initializer = .ok c := by
    cases literal : decl.initializer with
    | none => exact ⟨none, rfl⟩
    | some l =>
      rw [literal] at shaped
      obtain ⟨c, ok⟩ := constantOf_ok s.scope.nativeIntegers shaped
      exact ⟨some c, by simp [initializerOf, ok]⟩
  refine safe_check (getVariable_ok.mpr found) (safe_scope (safe_nativeIntegers (safe_check constant ?_)))
  refine safe_bind (addVariable_safe owned) fun {var u} addRun => safe_scope ?_
  obtain ⟨p, -, rfl⟩ := addVariable_ok addRun
  obtain ⟨inside, -⟩ := Array.getElem?_eq_some_iff.mp found
  rw [← able.room] at inside
  obtain ⟨c, bound⟩ : ∃ c, s.scope.bindVariable id var = .ok c := by simp [Scope.bindVariable, inside]
  refine safe_check bound fun t failed => ?_
  simp only [fails_bind, fails_setScope, fails_report, fails_pure, and_false, exists_false, or_false] at failed

theorem declare_binds {id : Source.VarId} {v : Target.VarId} (run : Runs (declare source id) s v t) :
    t.scope.vars[id.index.toNat]? = some (some v) := by
  obtain ⟨_, _, p, scope, log, -, -, -, named, rfl⟩ := declare_ok run
  obtain ⟨inside, rfl⟩ := bindVariable_ok named
  simp [inside]

/-- The source variables are bound. -/
def State.Knows (s : State) (ids : List Source.VarId) : Prop :=
  ∀ id ∈ ids, ∃ v, s.scope.vars[id.index.toNat]? = some (some v)

theorem State.Knows.along {layer : Layer} {ids : List Source.VarId} (path : Path layer s t) (knows : s.Knows ids) :
    t.Knows ids := fun id member =>
  (knows id member).elim fun _ found => path.steady.known found

theorem State.Knows.declare {ids : List Source.VarId} {id : Source.VarId} {v : Target.VarId} (knows : s.Knows ids)
    (run : Runs (declare source id) s v t) : t.Knows (ids ++ [id]) := fun x member => by
  rcases List.mem_append.mp member with before | here
  · exact knows.along ((stepwise_declare source id).path run : Path .statement s t) x before
  · obtain rfl := List.mem_singleton.mp here
    exact ⟨v, declare_binds run⟩

theorem knows_collects : Collects source fun ids s => s.Knows ids := ⟨State.Knows.along, State.Knows.declare⟩

theorem lowerStmt_binds {stmt : Stmt} (run : Runs (lowerStmt source stmt) s () t) : t.Knows stmt.declared := by
  have start : s.Knows [] := nofun
  exact knows_collects.lowerStmt stmt start run

theorem lowerStmts_binds {stmts : List Stmt} (run : Runs (lowerStmts source stmts) s () t) :
    t.Knows (stmtsDeclared stmts) :=
  knows_collects.declared nofun run

theorem State.Working.inRegion (working : s.Working source seen returning) (region : Region) :
    State.Working source seen returning { s with region } :=
  working.along (.single (.region region))

mutual

theorem lowerStmt_safe : ∀ (stmt : Stmt) {seen : List Source.VarId} {s : State}, s.Working source seen returning →
    stmt.isWellFormed source returning seen = true → Safe (lowerStmt source stmt) s
  | .declare id, seen, s, working, h => by
    simp only [Stmt.isWellFormed, Program.declares, Option.any_eq_true, Bool.true_and] at h
    obtain ⟨decl, found, shaped⟩ := h
    rw [lowerStmt]
    exact safe_bind (declare_safe working.toAble found shaped fun _ => working.inside) fun _ => safe_pure ()
  | .function name ids, _, _, _, h => by simp [Stmt.isWellFormed] at h
  | .loop body, seen, s, working, h => by
    simp only [Stmt.isWellFormed] at h
    rw [lowerStmt]
    exact safe_bind (safe_inRegion (lowerStmts_safe body (working.inRegion {}) h)) fun _ => safe_modifyRegion
  | .branch condition thenBody elseBody, seen, s, working, h => by
    simp only [Stmt.isWellFormed, Bool.and_eq_true] at h
    obtain ⟨⟨conditioned, first⟩, second⟩ := h
    rw [lowerStmt]
    refine safe_bind (evaluate_safe condition working.toEnclosed conditioned) fun valueRun => ?_
    have later := (working.step valueRun (by simp)).inRegion {}
    refine safe_bind (safe_inRegion (lowerStmts_safe thenBody later first)) fun ran => ?_
    obtain ⟨w, thenRun, rfl, rfl⟩ := runs_inRegion.mp ran
    have after := (later.along ((stepwise_lowerStmts source thenBody).path thenRun)).more
      (lowerStmts_binds thenRun)
    exact safe_bind (safe_inRegion (lowerStmts_safe elseBody (after.inRegion {}) second)) fun _ => safe_modifyRegion
  | .discard none, seen, s, working, h => by
    rw [lowerStmt]
    exact safe_bind (emitEffect_safe working.toAble _) fun _ t failed => by simp [fails_bind] at failed
  | .discard (some c), seen, s, working, h => by
    simp only [Stmt.isWellFormed, Option.all_some] at h
    rw [lowerStmt]
    refine safe_bind (evaluate_safe c working.toEnclosed h) fun run => ?_
    exact safe_bind (emitEffect_safe (working.step run (by simp)).toAble _) fun _ t failed => by
      simp [fails_bind] at failed
  | .ret (some value), seen, s, working, h => by
    simp only [Stmt.isWellFormed, Bool.and_eq_true] at h
    obtain ⟨rfl, stored⟩ := h
    rw [lowerStmt]
    exact safe_bind (storeReturn_safe working stored) fun run => emitEffect_safe (working.step run (by simp)).toAble _
  | .call call, seen, s, working, h => by
    rw [lowerStmt]
    exact lowerCall_safe working h
  | .assign target value mask condition, seen, s, working, h => by
    rw [lowerStmt]
    exact assign_safe working h
  | .emitVertex stream, seen, s, working, h | .endPrimitive stream, seen, s, working, h => by
    rw [lowerStmt]
    exact emitStream_safe working.toAble h
  | .jump _, seen, s, working, h | .ret none, seen, s, working, h | .barrier, seen, s, working, h => by
    rw [lowerStmt]
    exact emitEffect_safe working.toAble _

theorem lowerStmts_safe : ∀ (stmts : List Stmt) {seen : List Source.VarId} {s : State},
    s.Working source seen returning → stmtsWellFormed source returning seen stmts = true →
    Safe (lowerStmts source stmts) s
  | [], _, s, _, _ => by
    rw [lowerStmts]
    exact safe_pure ()
  | stmt :: stmts, seen, s, working, h => by
    simp only [stmtsWellFormed, Bool.and_eq_true] at h
    rw [lowerStmts]
    refine safe_bind (lowerStmt_safe stmt working h.1) fun run => ?_
    have after := (working.along ((composes_lowerStmt false source stmt).stepwise.path run)).more (lowerStmt_binds run)
    exact lowerStmts_safe stmts after h.2

end

/-! ### Bodies -/

theorem storageOf_param (h : decl.mode.isParameter = true) (owner : Option FuncId) : storageOf decl owner = .param := by
  cases mode : decl.mode <;> simp_all [VarMode.isParameter, storageOf]

theorem modifyBody_safe {change : Body → Body} (body : s.program.code? f.index.toNat = some code) :
    Safe (modifyBody f change) s := by
  intro t failed
  obtain ⟨-, e, missing⟩ := modifyBody_fails failed
  obtain ⟨b, read⟩ := getBody_of_code? body
  cases read.symm.trans (Program.modifyBody_error missing)

theorem declareParams_safe {ids : List Source.VarId} (able : s.Able source seen) (current : s.scope.current = some f)
    (body : s.program.code? f.index.toNat = some code) (h : ∀ id ∈ ids, source.declares VarMode.isParameter id = true) :
    Safe (declareParams source signature f ids) s := by
  induction ids generalizing s with
  | nil => exact safe_pure ()
  | cons id ids ih =>
    have first := h id List.mem_cons_self
    simp only [Program.declares, Option.any_eq_true, Bool.and_eq_true] at first
    obtain ⟨decl, found, mode, shaped⟩ := first
    refine safe_bind (declare_safe able found shaped fun _ => ⟨f, current, code, body⟩) fun {v u} declared => ?_
    have kept := declare_declares declared
    refine (?_ : Stepwise .program _).safe fun small => safe_program ?_
    · repeat' first
        | exact stepwise_declareParams _ _ _ _
        | exact stepwise_modifyBody _ _
        | refine stepwise_read (fun _ _ => rfl) fun p => ?_
        | with_reducible apply stepwise_bind
        | intro _
        | split
        | simp
    -- what has been declared is there, and a parameter
    obtain ⟨other, x, again, there, stands⟩ := declare_stands declared small
    obtain rfl := Option.some.inj (found.symm.trans again)
    refine safe_check (a := x) (by simp [Target.Program.getVariable, there]) ?_
    rw [if_neg (by simp [stands.storage, storageOf_param mode])]
    refine safe_bind (modifyBody_safe (by rw [kept.code?, body])) fun changed => ?_
    have listed := modifyBody_declares changed (fun _ => rfl) fun _ => rfl
    exact ih ((able.step declared (by simp)).along ((stepwise_modifyBody ..).path changed))
      (by rw [listed.current, kept.current, current]) (by rw [listed.code?, kept.code?, body])
      fun x member => h x (List.mem_cons_of_mem _ member)

theorem declareReturn_safe {type : ShaderType} (body : s.program.code? f.index.toNat = some code) :
    Safe (declareReturn f type) s := by
  unfold declareReturn
  split
  · exact safe_pure ()
  refine safe_bind (addVariable_safe fun _ => ⟨f, rfl, code, body⟩) fun addRun => ?_
  obtain ⟨p, added, rfl⟩ := addVariable_ok addRun
  exact modifyBody_safe (by rw [(addVariable_declares added).code?, body])

theorem declareParams_binds {ids : List Source.VarId} (run : Runs (declareParams source signature f ids) s () t) :
    ∀ id ∈ ids, ∃ v, t.scope.vars[id.index.toNat]? = some (some v) := by
  induction ids generalizing s with
  | nil => simp
  | cons id ids ih =>
    obtain ⟨v, u, -, w, declared, -, -, changed, rest⟩ := declareParams_cons run
    intro x member
    rcases List.mem_cons.mp member with rfl | member
    · have path : Path .program _ t :=
        ((stepwise_modifyBody ..).path changed).trans ((stepwise_declareParams ..).path rest)
      exact path.steady.known (declare_binds declared)
    · exact ih rest x member

/-- The body of a well-formed signature. -/
theorem lowerBody_safe (able : s.Able source seen) (callees : s.callees = source.functionOf?)
    (outside : s.scope.current = none) (listed : f.index.toNat < s.program.functions.size)
    (params : ∀ id ∈ signature.parameters, source.declares VarMode.isParameter id = true)
    (stmts : stmtsWellFormed source (!signature.returnType.isVoid) (seen ++ signature.parameters)
      signature.body = true) : Safe (lowerBody source signature f) s := by
  intro t stopped fits
  obtain ⟨-, e, missing⟩ | ⟨p, emptied, failed⟩ := lowerBody_fails stopped
  · simp [Program.setBody, Program.getFunction, Program.function?, Array.getElem?_eq_getElem listed] at missing
  have entered := enter_path emptied
  have empty : p.code? f.index.toNat = some (none, []) := by
    rw [Program.setBody_code? emptied, if_pos rfl]
    rfl
  obtain ⟨-, nested⟩ | failed | ⟨u, paramsRun, failed⟩ := failed
  · simp [outside] at nested
  · exact declareParams_safe (able.along entered) rfl empty params t failed fits
  have declared := declareParams_declares paramsRun
  obtain failed | ⟨v, returnRun, failed⟩ := failed
  · exact declareReturn_safe (by rw [declared.code?, empty]) t failed fits
  have headed : Path .program u v := (stepwise_declareReturn ..).path returnRun
  have bound : ∀ id ∈ signature.parameters, ∃ x, v.scope.vars[id.index.toNat]? = some (some x) := by
    intro id member
    obtain ⟨x, found⟩ := declareParams_binds paramsRun id member
    exact headed.steady.known found
  have begun : v.program.Fits →
      v.Working source (seen ++ signature.parameters) (!signature.returnType.isVoid) ∧
        ∃ code, v.program.code? f.index.toNat = some code := by
    intro small
    obtain ⟨result, filled, inside, -, current, isResult⟩ :=
      head_code able.bound ⟨p, u, emptied, paramsRun, returnRun⟩ small
    have start : v.Working source seen (!signature.returnType.isVoid) :=
      { able.along (entered.trans (((stepwise_declareParams ..).path paramsRun).trans headed)) with
        callees := filled.callees.trans callees
        inside := ⟨f, current, _, filled.here⟩
        returns := by
          intro isReturning
          obtain ⟨x, is⟩ := Option.isSome_iff_exists.mp (isResult.trans isReturning)
          exact ⟨x, inside.returns.trans is, inside.listed is⟩ }
    exact ⟨start.more bound, _, filled.here⟩
  obtain ⟨w, failed, rfl⟩ | ⟨w, log, stmtsRun, rfl, e, missing⟩ := failed
  · have path := (stepwise_lowerStmts source signature.body).failed failed
    exact lowerStmts_safe signature.body ((begun (path.fits fits)).1.inRegion {}) stmts w failed fits
  · have path := (stepwise_lowerStmts source signature.body).path stmtsRun
    obtain ⟨-, code, found⟩ := begun (path.fits fits)
    obtain ⟨b, read⟩ := getBody_of_code? ((congrFun (path.code?_eq (by simp)) _).trans found)
    cases read.symm.trans (Program.modifyBody_error missing)

/-! ### The top level -/

/-- Between statements of the top level: some variables have been declared, some signatures lowered. -/
structure State.Top (source : Source.Program) (seen : List Source.VarId) (done : List SignatureId) (s : State) : Prop
    extends s.Able source seen where
  outside : s.scope.current = none
  filled : Filled source done s

theorem lowerSignature_safe (top : s.Top source seen done) (listed : id ∈ source.listed)
    (h : (source.signature? id).any (Signature.isWellFormed source seen) = true) :
    Safe (lowerSignature source id) s := by
  simp only [Option.any_eq_true] at h
  obtain ⟨signature, found, wellFormed⟩ := h
  intro t failed fits
  obtain ⟨rfl, missing | ⟨other, e, again, user, unresolved⟩⟩ | ⟨other, f, again, user, defined, function, failed⟩ :=
    lowerSignature_fails failed
  · cases found.symm.trans missing
  · have own : source.isUser id = true := by simp [Program.isUser, again, user]
    obtain ⟨f, resolved⟩ := resolveFunction_of_listed top.filled.callees listed own
    cases resolved.symm.trans unresolved
  · obtain rfl := Option.some.inj (found.symm.trans again)
    simp only [Signature.isWellFormed, user, defined, Bool.not_true, Bool.false_or, Bool.and_eq_true,
      List.all_eq_true] at wellFormed
    have small := ((stepwise_lowerBody ..).failed failed).fits fits
    have placed := top.filled.placed small (Option.join_eq_some_iff.mpr function)
    obtain ⟨inside, -⟩ := List.getElem?_eq_some_iff.mp placed
    rw [← top.filled.size] at inside
    exact lowerBody_safe top.toAble top.filled.callees top.outside inside wellFormed.1 wellFormed.2 t failed fits

theorem lowerBody_binds (run : Runs (lowerBody source signature f) s () t) :
    ∀ id ∈ signature.parameters ++ stmtsDeclared signature.body,
      ∃ v, t.scope.vars[id.index.toNat]? = some (some v) := by
  obtain ⟨v, w, q, log, ⟨p, u, -, params, returned⟩, stmts, -, rfl⟩ := lowerBody_ok run
  intro id member
  rcases List.mem_append.mp member with param | declared
  · obtain ⟨x, found⟩ := declareParams_binds params id param
    obtain ⟨y, again⟩ := ((stepwise_declareReturn ..).path returned).steady.known found
    exact ((stepwise_lowerStmts source signature.body).path stmts).steady.known again
  · exact lowerStmts_binds stmts id declared

namespace State.Top
variable {done : List SignatureId}

theorem declare (top : s.Top source seen done) {id : Source.VarId} {v : Target.VarId}
    (run : Runs (declare source id) s v t) : t.Top source (seen ++ [id]) done where
  toAble := (top.toAble.step run (by simp)).more fun x member => by
    obtain rfl := List.mem_singleton.mp member
    exact ⟨v, declare_binds run⟩
  outside := (declare_declares run).current.trans top.outside
  filled := top.filled.declare run

theorem lowerSignature (top : s.Top source seen done) (run : Runs (lowerSignature source id) s () t)
    (fits : t.program.Fits) : t.Top source (seen ++ source.declaredBy id) (done ++ [id]) := by
  have filled := top.filled.lowerSignature run fits
  have outside := lowerSignature_outside top.outside run
  obtain ⟨signature, found, ⟨builtin, rfl⟩ | ⟨user, f, -, ⟨declared, log, rfl⟩ | ⟨defined, body⟩⟩⟩ :=
    lowerSignature_ok run
  · have none : source.declaredBy id = [] := by simp [Program.declaredBy, found, Signature.declared, builtin]
    rw [none, List.append_nil]
    exact ⟨top.toAble, outside, filled⟩
  · have none : source.declaredBy id = [] := by simp [Program.declaredBy, found, Signature.declared, declared]
    rw [none, List.append_nil]
    have noted : Path .value s { s with log } := .single (.log log)
    exact ⟨top.toAble.along noted, outside, filled⟩
  · have all : source.declaredBy id = signature.parameters ++ stmtsDeclared signature.body := by
      simp [Program.declaredBy, found, Signature.declared, user, defined]
    rw [all]
    exact ⟨(top.toAble.along ((stepwise_lowerBody ..).path body)).more (lowerBody_binds body), outside, filled⟩

theorem lowerSignatures (top : s.Top source seen done) (run : Runs (lowerSignatures source ids) s () t)
    (fits : t.program.Fits) : t.Top source (seen ++ ids.flatMap source.declaredBy) (done ++ ids) := by
  induction ids generalizing s seen done with
  | nil =>
    obtain ⟨-, rfl⟩ := runs_pure.mp run
    simpa using top
  | cons id ids ih =>
    simp only [Lowering.lowerSignatures, runs_bind] at run
    obtain ⟨_, u, first, rest⟩ := run
    have small := ((stepwise_lowerSignatures source ids).path rest).fits fits
    have both := ih (top.lowerSignature first small) rest
    rwa [List.append_assoc, List.append_assoc] at both

end State.Top

theorem lowerSignatures_safe (top : s.Top source seen done) (listed : ids ⊆ source.listed)
    (h : source.signaturesWellFormed seen ids = true) : Safe (lowerSignatures source ids) s := by
  induction ids generalizing s seen done with
  | nil => exact safe_pure ()
  | cons id ids ih =>
    simp only [Program.signaturesWellFormed, Bool.and_eq_true] at h
    refine safe_bind (lowerSignature_safe top (listed List.mem_cons_self) h.1) fun run => ?_
    refine (stepwise_lowerSignatures source ids).safe fun small => ?_
    exact ih (top.lowerSignature run small) (fun x member => listed (List.mem_cons_of_mem _ member)) h.2

theorem storageOf_global (h : decl.mode.isFunctionOwned = false) : (storageOf decl none).isFunctionOwned = false := by
  rw [storageOf_isFunctionOwned]
  cases mode : decl.mode <;> simp_all [VarDecl.isGlobal, VarMode.isFunctionOwned, VarMode.isParameter]

theorem lowerAll_safe (top : s.Top source seen done) (listed : stmts.flatMap Stmt.signatures ⊆ source.listed)
    (h : source.topWellFormed seen stmts = true) : Safe (lowerAll source stmts) s := by
  fun_induction lowerAll source stmts generalizing s seen done with
  | case1 => exact safe_pure ()
  | case2 id rest ih =>
    simp only [Program.topWellFormed, Program.declares, Bool.and_eq_true, Option.any_eq_true,
      Bool.not_eq_true'] at h
    obtain ⟨⟨decl, found, mode, shaped⟩, later⟩ := h
    refine safe_bind (declare_safe top.toAble found shaped fun owned => ?_) fun run => ih (top.declare run) listed later
    rw [top.outside, storageOf_global mode] at owned
    cases owned
  | case3 name ids rest ih =>
    simp only [Program.topWellFormed, Bool.and_eq_true] at h
    rw [List.flatMap_cons] at listed
    have first := lowerSignatures_safe top (fun x member => listed (List.mem_append_left _ member)) h.1
    refine safe_bind first fun run => ?_
    refine (stepwise_lowerAll ..).safe fun small => ?_
    exact ih (top.lowerSignatures run small) (fun x member => listed (List.mem_append_right _ member)) h.2
  | case4 stmt rest notDeclare notFunction =>
    exfalso
    cases stmt with
    | declare id => exact notDeclare id rfl
    | function name ids => exact notFunction name ids rfl
    | _ => simp [Program.topWellFormed] at h

/-! ### Registration -/

theorem registerSignature_room (run : Runs (registerSignature source id) s () t) :
    t.scope.functions.size = s.scope.functions.size := by
  obtain ⟨signature, -, ⟨-, rfl⟩ | ⟨-, scope, log, named, rfl⟩⟩ := registerSignature_ok run
  · rfl
  · obtain ⟨-, rfl⟩ := bindFunction_ok named
    exact Array.size_setIfInBounds

theorem registerSignatures_safe (room : s.scope.functions.size = source.signatures.size)
    (h : ∀ id ∈ ids, (source.signature? id).isSome = true) : Safe (registerSignatures source ids) s := by
  induction ids generalizing s with
  | nil => exact safe_pure ()
  | cons id ids ih =>
    refine safe_bind (fun t failed => ?_) fun run => ih ((registerSignature_room run).trans room) ?_
    · obtain ⟨signature, found⟩ := Option.isSome_iff_exists.mp (h id List.mem_cons_self)
      obtain ⟨-, missing⟩ | ⟨_, -, -, outside⟩ := registerSignature_fails failed
      · cases found.symm.trans missing
      · obtain ⟨inside, -⟩ := Array.getElem?_eq_some_iff.mp found
        rw [room] at outside
        exact absurd inside (Nat.not_lt.mpr outside)
    · exact fun x member => h x (List.mem_cons_of_mem _ member)

theorem signature?_of_signaturesWellFormed (h : source.signaturesWellFormed seen ids = true) :
    ∀ id ∈ ids, (source.signature? id).isSome = true := by
  induction ids generalizing seen with
  | nil => simp
  | cons id ids ih =>
    simp only [Program.signaturesWellFormed, Bool.and_eq_true, Option.any_eq_true] at h
    obtain ⟨⟨signature, found, -⟩, rest⟩ := h
    simp only [List.mem_cons, forall_eq_or_imp]
    exact ⟨by rw [found]; rfl, ih rest⟩

theorem signature?_of_topWellFormed (h : source.topWellFormed seen stmts = true) :
    ∀ id ∈ stmts.flatMap Stmt.signatures, (source.signature? id).isSome = true := by
  fun_induction Program.topWellFormed source seen stmts with
  | case1 => simp
  | case2 seen id rest ih => exact ih (Bool.and_eq_true _ _ ▸ h : _ ∧ _).2
  | case3 seen name ids rest ih =>
    rw [Bool.and_eq_true] at h
    simp only [List.flatMap_cons, List.mem_append]
    rintro id (here | later)
    · exact signature?_of_signaturesWellFormed h.1 id here
    · exact ih h.2 id later
  | case4 => cases h

/-! ### Programs -/

theorem lowerProgram_safe {capabilities : Capabilities} (native : capabilities.nativeIntegers = true)
    (unlimited : capabilities.maxInstructions = none) (h : source.isWellFormed = true) :
    Safe (lowerProgram source) (.initial source capabilities) := by
  simp only [Program.isWellFormed, Bool.and_eq_true] at h
  obtain ⟨wellFormed, countable⟩ := h
  have able : (State.initial source capabilities).Able source [] :=
    ⟨initial_bound source capabilities, native, unlimited, Array.size_replicate, by simp⟩
  have registration : Safe (registerAll source source.statements) (.initial source capabilities) := by
    rw [registerAll_eq]
    exact registerSignatures_safe Array.size_replicate (signature?_of_topWellFormed wellFormed)
  refine safe_bind registration fun {_ u} registered => ?_
  have path : Path .program _ u := (stepwise_registerAll source source.statements).path registered
  have registers := registerAll_registers (initial_registers source capabilities) registered
  have top : u.Top source [] [] := ⟨able.along path, registers.idle, registers.filled⟩
  refine safe_bind (lowerAll_safe top (List.Subset.refl _) wellFormed) fun {_ w} lowered => ?_
  intro t failed fits
  simp only [finish, fails_bind, fails_program, runs_program, fails_check, runs_check, fails_setProgram, fails_report,
    and_false, exists_false, or_false, false_or] at failed
  obtain ⟨_, _, ⟨rfl, rfl⟩, ⟨e, missing⟩, rfl⟩ := failed
  have start : u.Lists [] := by
    rw [State.Lists, registers.globals]
    exact .nil
  have whole : Path .program _ _ := path.trans ((stepwise_lowerAll ..).path lowered)
  obtain ⟨info, summary⟩ := summarize_ok (start.lowerAll top.outside lowered fits) countable fun r => by
    rw [whole.steady.info]
    cases r <;> rfl
  cases summary.symm.trans missing

/-- The program that lowering leaves, also where it fails. -/
def leftBy (source : Source.Program) (capabilities : Capabilities) : Target.Program :=
  (outcome (lowerProgram source) (.initial source capabilities)).2.program

/-- A well-formed program is lowered, if integers are native, instructions are not limited and every
handle fits its arena. -/
theorem lower_succeeds {capabilities : Capabilities} (native : capabilities.nativeIntegers = true)
    (unlimited : capabilities.maxInstructions = none) (wellFormed : source.isWellFormed = true)
    (fits : (leftBy source capabilities).Fits) :
    lower source capabilities = .ok (leftBy source capabilities) := by
  have safe := lowerProgram_safe native unlimited wellFormed
  rw [lower_eq]
  rw [leftBy] at fits ⊢
  rcases result : outcome (lowerProgram source) (.initial source capabilities) with ⟨e | _, t⟩
  · rw [result] at fits
    exact absurd fits (safe t ⟨e, result⟩)
  · rfl

/-! ### A program to lower -/

namespace Palette

def colour : ShaderType := .struct "Colour" [("rgba", .vector .float 4), ("used", .scalar .bool)]

def colours : Place := .var ⟨0⟩ (.array colour 3)

def index : Place := .var ⟨2⟩ (.scalar .int)

def result : Place := .var ⟨3⟩ (.vector .float 4)

def step : Place := .var ⟨4⟩ (.scalar .int)

def used (index : Rvalue) : Rvalue := .place (.field (.element colours index colour) 1 (.scalar .bool))

def program : Source.Program where
  name := "palette"
  layout := .fragment false .none false
  vars := #[
    { name := "colours", type := .array colour 3, mode := .uniform, interfaceBlock := some "Palette" },
    { name := "pictures", type := .array (.sampler ⟨.dim2D, false, false, .float⟩) 2, mode := .uniform },
    { name := "index", type := .scalar .int, mode := .functionIn },
    { name := "result", type := .vector .float 4, mode := .shaderOut },
    { name := "step", type := .scalar .int, mode := .auto, initializer := some (.int 0) }]
  signatures := #[
    { name := "shade", returnType := .vector .float 4, parameters := [⟨2⟩], isDefined := true,
      body := [
        .branch (used (.place index))
          [.ret (some (.place (.field (.element colours (.place index) colour) 0 (.vector .float 4))))] [],
        .ret (some (.expression .neg (.vector .float 4) [.place result]))] },
    { name := "main", returnType := .void, parameters := [], isDefined := true,
      body := [
        .declare ⟨4⟩,
        .loop [
          .branch (.expression .gequal (.scalar .bool) [.place step, .constant (.int 3)]) [.jump .breakLoop] [],
          .call { callee := ⟨0⟩, parameters := [.place step], result := some result },
          .assign result (.swizzle (.place result) ⟨1, 0, 0, 0⟩ 2) 5 (some (used (.constant (.int 0)))),
          .assign step (.expression .add (.scalar .int) [.place step, .constant (.int 1)]) 1 none],
        .discard (some (used (.constant (.int 2)))),
        .ret none] }]
  statements := [
    .declare ⟨0⟩, .declare ⟨1⟩, .declare ⟨3⟩, .function "shade" [⟨0⟩], .function "main" [⟨1⟩]]

end Palette

theorem lower_succeeds_palette : Palette.program.isWellFormed = true ∧ (leftBy Palette.program {}).Fits ∧
    lower Palette.program {} = .ok (leftBy Palette.program {}) := by
  have wellFormed : Palette.program.isWellFormed = true := by decide +kernel
  have fits : (leftBy Palette.program {}).Fits := by decide +kernel
  exact ⟨wellFormed, fits, lower_succeeds rfl rfl wellFormed fits⟩

end ShaderSSA.Lowering
