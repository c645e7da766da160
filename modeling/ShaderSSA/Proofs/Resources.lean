import Mathlib.Data.List.Forall2
import ShaderSSA.Proofs.WellFormed

/-!
The globals of a lowered program are those that the source declares, in the order of its traversal, so
their resources can be counted in the source.
-/

namespace ShaderSSA.Lowering
open Source Target Lower

variable {source : Source.Program} {s u t : State} {decls : List VarDecl} {f : FuncId} {info : Info} {decl : VarDecl}
  {id : SignatureId} {ids : List SignatureId} {owner : Option FuncId} {signature : Signature} {type : ShaderType}
  {x : Variable} {stmts : List Stmt}

/-- The global variables stand for the declarations, in order. -/
def State.Lists (s : State) (decls : List VarDecl) : Prop :=
  List.Forall₂ (fun v decl => ∃ x owner, s.program.var? v = some x ∧ StandsFor x decl owner)
    s.program.globals.toList decls

theorem storageOf_isFunctionOwned (decl : VarDecl) (owner : Option FuncId) :
    (storageOf decl owner).isFunctionOwned = !decl.isGlobal owner.isSome := by
  cases mode : decl.mode with
  | auto | temporary => cases owner <;> simp [storageOf, VarDecl.isGlobal, mode, StorageClass.isFunctionOwned]
  | uniform =>
    simp only [storageOf, VarDecl.isGlobal, mode]
    split <;> rfl
  | _ => simp [storageOf, VarDecl.isGlobal, mode, StorageClass.isFunctionOwned]

namespace State.Lists

theorem along (lists : s.Lists decls) {layer : Layer} (path : Path layer s t)
    (globals : t.program.globals = s.program.globals) : t.Lists decls := by
  rw [State.Lists, globals]
  refine lists.imp ?_
  rintro v decl ⟨x, owner, found, stands⟩
  exact ⟨x, owner, path.keeps.vars found, stands⟩

theorem declare (lists : s.Lists decls) {id : Source.VarId} {v : Target.VarId}
    (run : Runs (declare source id) s v t) (fits : t.program.Fits) :
    t.Lists (decls ++ source.globalsAmong s.scope.current.isSome [id]) := by
  have path : Path .statement s t := (stepwise_declare source id).path run
  obtain ⟨decl, x, found, there, stands⟩ := declare_stands run fits
  have owned := storageOf_isFunctionOwned decl s.scope.current
  have globals : t.program.globals =
      if (storageOf decl s.scope.current).isFunctionOwned then s.program.globals else s.program.globals.push v := by
    obtain ⟨other, y, p, scope, log, again, same, added, -, rfl⟩ := declare_ok run
    obtain rfl := Option.some.inj (found.symm.trans again)
    rw [← same.storage]
    exact Program.addVariable_globals added
  have among : source.globalsAmong s.scope.current.isSome [id] =
      if decl.isGlobal s.scope.current.isSome then [decl] else [] := by
    cases kind : decl.isGlobal s.scope.current.isSome <;> simp [Program.globalsAmong, found, kind]
  rw [among]
  cases kind : decl.isGlobal s.scope.current.isSome with
  | false =>
    rw [owned, kind] at globals
    simpa using lists.along path globals
  | true =>
    rw [owned, kind] at globals
    rw [State.Lists, globals]
    simp only [Bool.not_true, Bool.false_eq_true, if_false, if_true, Array.toList_push]
    refine List.rel_append (lists.imp ?_) (.cons ⟨x, _, there, stands⟩ .nil)
    rintro w decl ⟨y, owner, found, stands⟩
    exact ⟨y, owner, path.keeps.vars found, stands⟩

end State.Lists

theorem globalsAmong_append (inside : Bool) (ids more : List Source.VarId) :
    source.globalsAmong inside (ids ++ more) = source.globalsAmong inside ids ++ source.globalsAmong inside more := by
  simp [Program.globalsAmong]

/-! ### Statements -/

/-- Values keep the property of the variables that have been declared, and declarations add theirs. -/
structure Collects (source : Source.Program) (P : List Source.VarId → State → Prop) : Prop where
  along : ∀ {done s t}, Path .value s t → P done s → P done t
  declare : ∀ {done s t id v}, P done s → Runs (Lowering.declare source id) s v t → P (done ++ [id]) t

namespace Collects
variable {P : List Source.VarId → State → Prop}

mutual

theorem lowerStmt (collects : Collects source P) : ∀ (stmt : Stmt) {done s t}, P done s →
    Runs (Lowering.lowerStmt source stmt) s () t → P (done ++ stmt.declared) t
  | .declare id, done, s, t, start, run => by
    simp only [Lowering.lowerStmt, runs_bind, runs_pure] at run
    obtain ⟨v, _, run, -, rfl⟩ := run
    exact collects.declare start run
  | .function name ids, _, _, _, _, run => by
    simp only [Lowering.lowerStmt] at run
    exact (runs_abort run).elim
  | .loop body, done, s, t, start, run => by
    obtain ⟨u, inner, rfl⟩ := lowerStmt_loop run
    have after := collects.lowerStmts body (collects.along (.single (.region {})) start) inner
    exact collects.along (.single (.region _)) after
  | .branch condition thenBody elseBody, done, s, t, start, run => by
    obtain ⟨c, u, v, w, valueRun, thenRun, elseRun, rfl⟩ := lowerStmt_branch run
    have evaluated := collects.along ((evaluates_evaluate source condition).stepwise.path valueRun) start
    have first := collects.lowerStmts thenBody (collects.along (.single (.region {})) evaluated) thenRun
    have both := collects.lowerStmts elseBody (collects.along (.single (.region {})) first) elseRun
    rw [List.append_assoc] at both
    exact collects.along (.single (.region _)) both
  | .discard _, _, _, _, start, run | .ret _, _, _, _, start, run => by
    simpa [Stmt.declared] using collects.along (Stepwise.path (by simp) run) start
  | .jump _, _, _, _, start, run | .call _, _, _, _, start, run | .assign .., _, _, _, start, run
  | .emitVertex _, _, _, _, start, run | .endPrimitive _, _, _, _, start, run | .barrier, _, _, _, start, run => by
    simp only [Lowering.lowerStmt] at run
    simpa [Stmt.declared] using collects.along (Stepwise.path (by simp) run) start

theorem lowerStmts (collects : Collects source P) : ∀ (stmts : List Stmt) {done s t}, P done s →
    Runs (Lowering.lowerStmts source stmts) s () t → P (done ++ stmtsDeclared stmts) t
  | [], _, _, _, start, run => by
    obtain rfl := lowerStmts_nil run
    simpa [stmtsDeclared] using start
  | stmt :: stmts, _, _, _, start, run => by
    obtain ⟨u, first, rest⟩ := lowerStmts_cons run
    have both := collects.lowerStmts stmts (collects.lowerStmt stmt start first) rest
    rwa [List.append_assoc] at both

end

theorem declared (collects : Collects source P) (start : P [] s)
    (run : Runs (Lowering.lowerStmts source stmts) s () t) : P (stmtsDeclared stmts) t :=
  collects.lowerStmts stmts start run

end Collects

theorem lowerStmts_lists (lists : s.Lists decls) (inside : s.scope.current.isSome = true)
    (run : Runs (lowerStmts source stmts) s () t) (fits : t.program.Fits) :
    t.Lists (decls ++ source.globalsAmong true (stmtsDeclared stmts)) := by
  have collects : Collects source fun done s => s.program.Fits →
      s.Lists (decls ++ source.globalsAmong true done) ∧ s.scope.current.isSome = true := by
    refine ⟨fun path before fits => ?_, fun before run fits => ?_⟩
    · obtain ⟨lists, inside⟩ := before (path.fits fits)
      exact ⟨lists.along path path.globals_eq, by rwa [path.scope_eq]⟩
    · have path : Path .statement _ _ := (stepwise_declare source _).path run
      obtain ⟨lists, inside⟩ := before (path.fits fits)
      have made := lists.declare run fits
      rw [inside, List.append_assoc, ← globalsAmong_append] at made
      exact ⟨made, by rwa [path.scope_frame]⟩
  exact (collects.declared (fun _ => ⟨by simpa [Program.globalsAmong] using lists, inside⟩) run fits).1

/-! ### Bodies and the top level -/

theorem lowerSignature_outside (outside : s.scope.current = none) (run : Runs (lowerSignature source id) s () t) :
    t.scope.current = none := by
  obtain ⟨signature, -, ⟨-, rfl⟩ | ⟨-, f, -, ⟨-, log, rfl⟩ | ⟨-, body⟩⟩⟩ := lowerSignature_ok run
  · exact outside
  · exact outside
  · obtain ⟨v, w, q, log, -, -, -, rfl⟩ := lowerBody_ok body
    rfl

namespace State.Lists

theorem modifyBody (lists : s.Lists decls) {change : Body → Body} {a : Unit} (run : Runs (modifyBody f change) s a t) :
    t.Lists decls := by
  have path := (stepwise_modifyBody f change).path run
  obtain ⟨p, changed, rfl⟩ := modifyBody_ok run
  obtain ⟨g, b, -, -, rfl⟩ := Program.modifyBody_ok changed
  exact lists.along path rfl

theorem declareParams (lists : s.Lists decls) {ids : List Source.VarId} (inside : s.scope.current.isSome = true)
    (run : Runs (declareParams source signature f ids) s () t) (fits : t.program.Fits) :
    t.Lists (decls ++ source.globalsAmong true ids) := by
  induction ids generalizing s decls with
  | nil =>
    obtain ⟨-, rfl⟩ := runs_pure.mp run
    simpa [Program.globalsAmong] using lists
  | cons id ids ih =>
    obtain ⟨v, u, -, w, declared, -, -, changed, rest⟩ := declareParams_cons run
    have later := ((stepwise_declareParams ..).path rest).fits fits
    have small := ((stepwise_modifyBody ..).path changed).fits later
    have kept := (declare_declares declared).trans (modifyBody_declares changed (fun _ => rfl) fun _ => rfl)
    have first := (lists.declare declared small).modifyBody changed
    rw [inside] at first
    have both := ih first (by rwa [kept.current]) rest
    rwa [List.append_assoc, ← globalsAmong_append] at both

theorem declareReturn (lists : s.Lists decls) (run : Runs (declareReturn f type) s () t) : t.Lists decls := by
  obtain ⟨-, rfl⟩ | ⟨-, v, u, addRun, changed⟩ := declareReturn_ok run
  · exact lists
  · have path := (stepwise_addVariable ..).path addRun
    obtain ⟨p, added, rfl⟩ := addVariable_ok addRun
    exact (lists.along path (Program.addVariable_globals added)).modifyBody changed

theorem lowerBody (lists : s.Lists decls) (run : Runs (lowerBody source signature f) s () t) (fits : t.program.Fits) :
    t.Lists (decls ++ source.globalsAmong true (signature.parameters ++ stmtsDeclared signature.body)) := by
  obtain ⟨v, w, q, log, ⟨⟨p, u, emptied, params, returned⟩, headed⟩, ⟨stmts, small⟩, changed, rfl⟩ :=
    lowerBody_fitting run fits
  obtain ⟨b, -, written⟩ := Program.modifyBody_setBody changed
  have before : u.program.Fits := ((stepwise_declareReturn ..).path returned).fits headed
  have current : v.scope.current.isSome = true := by
    rw [declareReturn_scope returned, (declareParams_declares params).current]
    rfl
  have entered : State.Lists { s with program := p, scope := { s.scope with current := some f } } decls := by
    obtain ⟨g, -, rfl⟩ := Program.setBody_ok emptied
    exact lists
  have head := (entered.declareParams rfl params before).declareReturn returned
  have body := lowerStmts_lists (s := { v with region := {} }) head current stmts small
  rw [List.append_assoc, ← globalsAmong_append] at body
  obtain ⟨g, -, rfl⟩ := Program.setBody_ok written
  exact body

theorem lowerSignature (lists : s.Lists decls) (run : Runs (lowerSignature source id) s () t) (fits : t.program.Fits) :
    t.Lists (decls ++ source.globalsAmong true (source.declaredBy id)) := by
  obtain ⟨signature, found, ⟨builtin, rfl⟩ | ⟨user, f, -, ⟨declared, log, rfl⟩ | ⟨defined, body⟩⟩⟩ :=
    lowerSignature_ok run
  · simpa [Program.declaredBy, found, Signature.declared, builtin, Program.globalsAmong] using lists
  · have same : State.Lists { s with log } decls := lists
    simpa [Program.declaredBy, found, Signature.declared, declared, Program.globalsAmong] using same
  · have all : source.declaredBy id = signature.parameters ++ stmtsDeclared signature.body := by
      simp [Program.declaredBy, found, Signature.declared, user, defined]
    rw [all]
    exact lists.lowerBody body fits

theorem lowerAll (lists : s.Lists decls) (outside : s.scope.current = none)
    (run : Runs (lowerAll source stmts) s () t) (fits : t.program.Fits) :
    t.Lists (decls ++ stmts.flatMap source.globalsOf) := by
  have collected := @lowerAll_collects source s t VarDecl (fun decls s => s.Lists decls ∧ s.scope.current = none)
    source.globalsOf (fun id => source.globalsAmong true (source.declaredBy id)) (fun name ids => ?_)
    (fun before run fits => ?_) (fun before run fits => ?_) decls stmts ⟨lists, outside⟩ run fits
  · exact collected.1
  · simp [Program.globalsOf, Program.globalsAmong, List.filterMap_flatMap, List.filter_flatMap]
  · have first := before.1.declare run fits
    rw [before.2] at first
    exact ⟨first, (declare_declares run).current.trans before.2⟩
  · exact ⟨before.1.lowerSignature run fits, lowerSignature_outside before.2 run⟩

end State.Lists

/-! ### Counting -/

def counted (info : Info) : Resource → UInt32
  | .texture => info.textures
  | .image => info.images
  | .counter => info.atomicCounters
  | .uniformBuffer => info.uniformBuffers
  | .storageBuffer => info.storageBuffers

def setCount (info : Info) (n : UInt32) : Resource → Info
  | .texture => { info with textures := n }
  | .image => { info with images := n }
  | .counter => { info with atomicCounters := n }
  | .uniformBuffer => { info with uniformBuffers := n }
  | .storageBuffer => { info with storageBuffers := n }

theorem counted_setCount (info : Info) (n : UInt32) (r x : Resource) :
    counted (setCount info n r) x = if r = x then n else counted info x := by
  cases r <;> cases x <;> rfl

def countMore (info : Info) (n : UInt32) : Option Resource → Except Fault Info
  | none => .ok info
  | some r => do return setCount info (← addCount (counted info r) n) r

theorem countMore_ok {n : UInt32} {r? : Option Resource}
    (small : ∀ r, r? = some r → (counted info r).toNat + n.toNat < UInt32.size) :
    ∃ after, countMore info n r? = .ok after ∧ ∀ x, (counted after x).toNat =
      (counted info x).toNat + if r? = some x then n.toNat else 0 := by
  cases r? with
  | none => exact ⟨info, rfl, fun r => by simp⟩
  | some r =>
    have one := small r rfl
    refine ⟨setCount info (counted info r + n) r, ?_, fun x => ?_⟩
    · simp [countMore, addCount, one]
    · rw [counted_setCount]
      by_cases same : r = x
      · subst same
        rw [if_pos rfl, if_pos rfl, UInt32.toNat_add, Nat.mod_eq_of_lt one]
      · rw [if_neg same, if_neg (by simpa using same), Nat.add_zero]

theorem countHandles_eq (info : Info) (decl : VarDecl) (n : UInt32) :
    countHandles info decl.type n = countMore info n decl.handle? := by
  rw [countHandles, VarDecl.handle?]
  cases decl.type.withoutArray <;> rfl

theorem countBuffers_eq (info : Info) (stands : StandsFor x decl owner) (n : UInt32) :
    countBuffers info x n = countMore info (bufferCount x n) decl.buffer? := by
  rw [countBuffers, stands.storage, storageOf, VarDecl.buffer?]
  cases decl.mode with
  | auto | temporary => cases owner <;> rfl
  | uniform => cases decl.interfaceBlock <;> rfl
  | _ => rfl

theorem countVariable_ok (stands : StandsFor x decl owner) (flat : decl.type.flattenedLength?.isSome = true)
    (small : ∀ r, (counted info r).toNat + decl.uses r < UInt32.size) :
    ∃ after, countVariable info x = .ok after ∧ ∀ r, (counted after r).toNat =
      (counted info r).toNat + decl.uses r := by
  obtain ⟨n, length⟩ := Option.isSome_iff_exists.mp flat
  have leaves : decl.leaves = n.toNat := by
    rw [VarDecl.leaves, length]
    rfl
  have buffers : decl.buffers = (bufferCount x n).toNat := by
    rw [VarDecl.buffers, bufferCount, stands.type, stands.interfaceBlock]
    split
    · exact leaves
    · rfl
  obtain ⟨between, first, counts⟩ : ∃ between, countMore info n decl.handle? = .ok between ∧ _ :=
    countMore_ok fun r is => by
      have bound := small r
      rw [VarDecl.uses, if_pos is, leaves] at bound
      omega
  obtain ⟨after, second, counts'⟩ : ∃ after, countMore between (bufferCount x n) decl.buffer? = .ok after ∧ _ :=
    countMore_ok fun r is => by
      have bound := small r
      rw [VarDecl.uses, if_pos is, leaves, buffers] at bound
      rw [counts r]
      omega
  refine ⟨noteDistances after x.builtin n, ?_, fun r => ?_⟩
  · rw [countVariable, stands.type, length]
    simp [countHandles_eq, countBuffers_eq between stands, first, second]
  · have same : counted (noteDistances after x.builtin n) r = counted after r := by
      unfold noteDistances
      split <;> cases r <;> rfl
    rw [same, counts' r, counts r, VarDecl.uses, leaves, buffers, Nat.add_assoc]

theorem countVariables_ok {p : Target.Program} {ids : List Target.VarId}
    (lists : List.Forall₂ (fun v decl => ∃ x owner, p.var? v = some x ∧ StandsFor x decl owner) ids decls)
    (flat : ∀ decl ∈ decls, decl.type.flattenedLength?.isSome = true)
    (small : ∀ r, (counted info r).toNat + (decls.map fun d => d.uses r).sum < UInt32.size) :
    ∃ after, countVariables p info ids = .ok after := by
  induction lists generalizing info with
  | nil => exact ⟨info, rfl⟩
  | @cons v decl ids decls first rest ih =>
    obtain ⟨x, owner, found, stands⟩ := first
    simp only [List.map_cons, List.sum_cons] at small
    have one : ∀ r, (counted info r).toNat + decl.uses r < UInt32.size := fun r => by
      have bound := small r
      omega
    obtain ⟨between, counts, sums⟩ := countVariable_ok stands (flat decl List.mem_cons_self) one
    have others : ∀ r, (counted between r).toNat + (decls.map fun d => d.uses r).sum < UInt32.size := fun r => by
      have bound := small r
      rw [sums r]
      omega
    obtain ⟨after, done⟩ := ih (fun d member => flat d (List.mem_cons_of_mem _ member)) others
    refine ⟨after, ?_⟩
    simp [countVariables, Target.Program.getVariable, found, counts, done]

theorem summarize_ok (lists : s.Lists source.globals) (countable : source.countable = true)
    (zero : ∀ r, counted s.program.info r = 0) : ∃ info, summarize s.program = .ok info := by
  simp only [Program.countable, Bool.and_eq_true, List.all_eq_true, decide_eq_true_eq] at countable
  obtain ⟨flat, sums⟩ := countable
  obtain ⟨info, counts⟩ := countVariables_ok lists flat fun r => by
    rw [zero r, UInt32.toNat_zero, Nat.zero_add]
    exact sums r (by cases r <;> simp)
  refine ⟨{ info with entryPoint := entryPoint? s.program.functions.toList }, ?_⟩
  simp [summarize, counts]

end ShaderSSA.Lowering
