import ShaderSSA.Proofs.Bindings

/-!
Accounts of emitted instructions. An account says what instructions of a program amount to, where only those
with certain effects amount to anything. If every statement without a body of its own amounts to what the
source says of it, so does a whole body.
-/

namespace ShaderSSA

namespace Target

mutual

def Skeleton.effects : Skeleton → List Effect
  | .effect e => [e]
  | .branch thenBody elseBody => effectsOf thenBody ++ effectsOf elseBody
  | .loop body => effectsOf body

/-- All effects of a skeleton, in order. -/
def effectsOf : List Skeleton → List Effect
  | [] => []
  | s :: ss => s.effects ++ effectsOf ss

end

theorem effectsOf_append (a b : List Skeleton) : effectsOf (a ++ b) = effectsOf a ++ effectsOf b := by
  induction a with
  | nil => rfl
  | cons s a ih => simp [effectsOf, ih]

theorem effectsOf_map (effects : List Effect) : effectsOf (effects.map .effect) = effects := by
  induction effects with
  | nil => rfl
  | cons e effects ih => simp [effectsOf, Skeleton.effects, ih]

/-- What lists of instructions amount to. -/
structure Account where
  Amount : Type
  nothing : Amount
  join : Amount → Amount → Amount
  nothing_join : ∀ x, join nothing x = x
  counts : Program → List InstId → Amount → Prop
  nil : ∀ p, counts p [] nothing
  append : ∀ {p a b x y}, counts p a x → counts p b y → counts p (a ++ b) (join x y)
  /-- The effects that may amount to something. -/
  tells : Effect → Bool
  silent : ∀ {p id x} {result : Option VarId} {chains : List (List LinkKind)}, p.instr? id = some x →
    (∀ e ∈ x.operation.effect? result chains, tells e = false) → counts p [id] nothing

/-- Nothing in the skeleton amounts to anything. -/
def Account.Quiet (A : Account) (effects : List Skeleton) : Prop := ∀ e ∈ effectsOf effects, A.tells e = false

namespace Account
variable {A : Account} {p : Program} {result : Option VarId}

theorem quiet_append {a b : List Skeleton} : A.Quiet (a ++ b) ↔ A.Quiet a ∧ A.Quiet b := by
  simp only [Quiet, effectsOf_append, List.mem_append, or_imp, forall_and]

theorem append_nothing {a b : List InstId} (first : A.counts p a A.nothing) (rest : A.counts p b A.nothing) :
    A.counts p (a ++ b) A.nothing :=
  A.nothing_join A.nothing ▸ A.append first rest

theorem Quiet.counts : ∀ {nodes : List Node} {effects : List Skeleton}, A.Quiet effects →
    skeleton? p result nodes = some effects → A.counts p (instrsOf nodes) A.nothing
  | [], effects, quiet, read => A.nil p
  | .instr id :: rest, effects, quiet, read => by
    simp only [skeleton?, Node.skeleton?, Option.bind_eq_bind, Option.pure_def, Option.bind_eq_some_iff,
      Option.some.injEq] at read
    obtain ⟨_, ⟨x, there, chains, -, rfl⟩, tail, readRest, rfl⟩ := read
    rw [quiet_append] at quiet
    have hushed : ∀ e ∈ x.operation.effect? result chains, A.tells e = false :=
      fun e member => quiet.1 e (by rw [effectsOf_map]; exact Option.mem_toList.mpr member)
    exact append_nothing (A.silent there hushed) (quiet.2.counts readRest)
  | .branch c a b :: rest, effects, quiet, read => by
    simp only [skeleton?, Node.skeleton?, Option.bind_eq_bind, Option.pure_def, Option.bind_eq_some_iff,
      Option.some.injEq] at read
    obtain ⟨_, ⟨x, readThen, y, readElse, rfl⟩, tail, readRest, rfl⟩ := read
    rw [quiet_append] at quiet
    simp only [Quiet, effectsOf, Skeleton.effects, List.append_nil, List.mem_append] at quiet
    have thenQuiet : A.Quiet x := fun e member => quiet.1 e (.inl member)
    have elseQuiet : A.Quiet y := fun e member => quiet.1 e (.inr member)
    have restQuiet : A.Quiet tail := quiet.2
    exact append_nothing (append_nothing (thenQuiet.counts readThen) (elseQuiet.counts readElse))
      (restQuiet.counts readRest)
  | .loop body :: rest, effects, quiet, read => by
    simp only [skeleton?, Node.skeleton?, Option.bind_eq_bind, Option.pure_def, Option.bind_eq_some_iff,
      Option.some.injEq] at read
    obtain ⟨_, ⟨x, readBody, rfl⟩, tail, readRest, rfl⟩ := read
    rw [quiet_append] at quiet
    have bodyQuiet : A.Quiet x := by simpa only [Quiet, effectsOf, Skeleton.effects, List.append_nil] using quiet.1
    exact append_nothing (bodyQuiet.counts readBody) (quiet.2.counts readRest)

end Account

end Target

/-- The statement is lowered without other statements, and declares nothing. -/
def Source.Stmt.isSimple : Source.Stmt → Bool
  | .declare _ | .function .. | .loop _ | .branch .. => false
  | _ => true

namespace Lowering
open Source Target Lower

variable {A : Account} {env : Env} {result : Option Target.VarId} {source : Source.Program} {s u t : State}
  {nodes : List Node} {known : List Known} {live : List Live} {effects : List Skeleton} {native : Bool} {x y : A.Amount}
  {stmt : Stmt}

/-- Functions are called by the last place at which their signatures are listed. -/
structure State.Calling (source : Source.Program) (native : Bool) (s : State) : Prop where
  callees : s.callees = source.functionOf?
  native : s.scope.nativeIntegers = native
  stands : s.Binds source fun decl x => ∃ owner, StandsFor x decl owner

namespace State.Calling

theorem step (h : s.Calling source native) {α : Type} {m : Lower α} {a : α} (run : Runs m s a t)
    (plain : Stepwise .value m) : t.Calling source native := by
  have path : Path .statement s t := (plain.path run).of_value
  exact ⟨path.callees_eq.trans h.callees, by rw [path.steady.native, h.native], h.stands.step run plain⟩

theorem declare (h : s.Calling source native) {id : Source.VarId} {v : Target.VarId}
    (run : Runs (declare source id) s v t) (fits : t.program.Fits) : t.Calling source native := by
  have path : Path .statement s t := (stepwise_declare source id).path run
  exact ⟨path.callees_eq.trans h.callees, by rw [path.steady.native, h.native],
    h.stands.declare (fun stands => ⟨_, stands⟩) run fits⟩

theorem inRegion (h : s.Calling source native) (region : Region) : State.Calling source native { s with region } :=
  ⟨h.callees, h.native, h.stands⟩

end State.Calling

/-- In every program behind them, the instructions between the two states amount to `x`. -/
def Amounts (A : Account) (s t : State) (x : A.Amount) : Prop :=
  ∀ ⦃q⦄, t.program.Extends q → q.Fits → A.counts q (instsBetween s.program.instrs.size t.program.instrs.size) x

theorem Amounts.refl (s : State) : Amounts A s s A.nothing := by
  intro q _ _
  rw [instsBetween_self]
  exact A.nil q

theorem Amounts.trans (h : Amounts A s u x) (h' : Amounts A u t y)
    (grown : s.program.instrs.size ≤ u.program.instrs.size) (keeps : u.program.Extends t.program) :
    Amounts A s t (A.join x y) := by
  intro q kept fits
  rw [← instsBetween_append grown (Program.Keeps.size_le keeps.instrs)]
  exact A.append (h (keeps.trans kept fun _ => id) fits) (h' kept fits)

theorem Code.amounts (h : Code env result s t nodes known live effects) (quiet : A.Quiet effects) :
    Amounts A s t A.nothing := by
  intro q kept fits
  rw [← h.numbered]
  exact quiet.counts (h.facts (kept.mono fun _ _ => trivial) fits).skeleton

/-- Code that computes goes before what amounts to something. -/
theorem Code.amounts_trans (h : Code env result s u nodes known live []) (h' : Amounts A u t x)
    (keeps : u.program.Extends t.program) : Amounts A s t x := by
  have before : Amounts A s u A.nothing := h.amounts (by simp [Account.Quiet, effectsOf])
  exact A.nothing_join x ▸ before.trans h' (Program.Keeps.size_le h.keeps.instrs) keeps

theorem quiet_amounts (inside : s.Inside result) (run : Runs (lowerStmt source stmt) s () t)
    (fits : t.program.Fits) (quiet : ∀ {effects}, stmt.skeleton? source s.callees = some effects → A.Quiet effects) :
    Amounts A s t A.nothing := by
  obtain ⟨_, effects, read, code, -⟩ := @lowerStmt_code s.env result source stmt s t inside run fits
  exact code.amounts (quiet read)

/-- What statements amount to follows from what those without a body do. -/
structure Explains (source : Source.Program) (native : Bool) (A : Account) (one : Stmt → A.Amount)
    (all : List Stmt → A.Amount) : Prop where
  nil : all [] = A.nothing
  cons : ∀ stmt stmts, all (stmt :: stmts) = A.join (one stmt) (all stmts)
  loop : ∀ body, one (.loop body) = all body
  branch : ∀ condition thenBody elseBody,
    one (.branch condition thenBody elseBody) = A.join (all thenBody) (all elseBody)
  declare : ∀ id, one (.declare id) = A.nothing
  simple : ∀ {stmt result s t}, stmt.isSimple = true → s.Inside result → s.Calling source native →
    Runs (lowerStmt source stmt) s () t → t.program.Fits → Amounts A s t (one stmt)

theorem stepwise_simple (simple : stmt.isSimple = true) : Stepwise .value (lowerStmt source stmt) := by
  cases stmt with
  | declare id | function name ids | loop body | branch condition thenBody elseBody => cases simple
  | discard condition => exact (composes_discard source condition).stepwise
  | ret value => exact (composes_ret source value).stepwise
  | jump jump | call call | assign target value mask condition | emitVertex stream | endPrimitive stream | barrier =>
    simp [lowerStmt]

section
variable {one : Stmt → A.Amount} {all : List Stmt → A.Amount}

theorem Explains.lowerSimple (explains : Explains source native A one all)
    (simple : stmt.isSimple = true) (inside : s.Inside result) (calling : s.Calling source native)
    (run : Runs (lowerStmt source stmt) s () t) (fits : t.program.Fits) :
    t.Calling source native ∧ Amounts A s t (one stmt) :=
  ⟨calling.step run (stepwise_simple simple), explains.simple simple inside calling run fits⟩

mutual

theorem Explains.lowerStmt (explains : Explains source native A one all) : ∀ (stmt : Stmt) {s t : State},
    s.Inside result → s.Calling source native → Runs (lowerStmt source stmt) s () t → t.program.Fits →
    t.Calling source native ∧ Amounts A s t (one stmt)
  | .declare id, s, t, inside, calling, run, fits => by
    have still : Amounts A s t A.nothing :=
      quiet_amounts inside run fits (by simp [Stmt.skeleton?, Account.Quiet, effectsOf])
    simp only [Lowering.lowerStmt, runs_bind, runs_pure] at run
    obtain ⟨v, _, run, -, rfl⟩ := run
    exact ⟨calling.declare run fits, explains.declare id ▸ still⟩
  | .function name ids, s, t, inside, calling, run, fits => by
    simp only [Lowering.lowerStmt] at run
    exact (runs_abort run).elim
  | .loop body, s, t, inside, calling, run, fits => by
    obtain ⟨u, inner, rfl⟩ := lowerStmt_loop run
    obtain ⟨after, makes⟩ := explains.lowerStmts body (inside.inRegion {}) (calling.inRegion {}) inner fits
    exact ⟨after.inRegion _, explains.loop body ▸ makes⟩
  | .branch condition thenBody elseBody, s, t, inside, calling, run, fits => by
    obtain ⟨c, u, v, w, valueRun, thenRun, elseRun, rfl⟩ := lowerStmt_branch run
    have afterElse : v.program.Fits := elseRun.fits_before (stepwise_lowerStmts source elseBody) fits
    have afterThen : u.program.Fits := thenRun.fits_before (stepwise_lowerStmts source thenBody) afterElse
    obtain ⟨_, _, -, valueCode⟩ : ∃ nodes tree, _ ∧ Code s.env result s u nodes [(c, tree)] [] [] :=
      evaluate_code source condition inside.ready valueRun afterThen
    have chosen := inside.step valueRun (by simp)
    obtain ⟨_, _, -, thenCode, between⟩ :=
      @lowerStmts_code s.env result source thenBody _ _ (chosen.inRegion {}) thenRun afterElse
    obtain ⟨_, _, -, elseCode, -⟩ :=
      @lowerStmts_code s.env result source elseBody _ _ (between.inRegion {}) elseRun fits
    obtain ⟨middle, thenMakes⟩ := explains.lowerStmts thenBody (chosen.inRegion {})
      ((calling.step valueRun (by simp)).inRegion {}) thenRun afterElse
    obtain ⟨after, elseMakes⟩ :=
      explains.lowerStmts elseBody (between.inRegion {}) (middle.inRegion {}) elseRun fits
    have thenMakes : Amounts A u v (all thenBody) := thenMakes
    have both : Amounts A u w _ :=
      thenMakes.trans elseMakes (Program.Keeps.size_le thenCode.keeps.instrs) elseCode.keeps
    rw [explains.branch]
    exact ⟨after.inRegion _, valueCode.amounts_trans both (thenCode.keeps.trans elseCode.keeps fun _ => id)⟩
  | .discard _, s, t, inside, calling, run, fits | .jump _, s, t, inside, calling, run, fits
  | .ret _, s, t, inside, calling, run, fits | .call _, s, t, inside, calling, run, fits
  | .assign .., s, t, inside, calling, run, fits | .emitVertex _, s, t, inside, calling, run, fits
  | .endPrimitive _, s, t, inside, calling, run, fits | .barrier, s, t, inside, calling, run, fits =>
    explains.lowerSimple rfl inside calling run fits

theorem Explains.lowerStmts (explains : Explains source native A one all) : ∀ (stmts : List Stmt) {s t : State},
    s.Inside result → s.Calling source native → Runs (lowerStmts source stmts) s () t → t.program.Fits →
    t.Calling source native ∧ Amounts A s t (all stmts)
  | [], s, t, inside, calling, run, fits => by
    obtain rfl := lowerStmts_nil run
    exact ⟨calling, explains.nil ▸ .refl _⟩
  | stmt :: stmts, s, t, inside, calling, run, fits => by
    obtain ⟨u, first, rest⟩ := lowerStmts_cons run
    have before := rest.fits_before (stepwise_lowerStmts source stmts) fits
    obtain ⟨_, _, -, firstCode, between⟩ := @lowerStmt_code s.env result source stmt _ _ inside first before
    obtain ⟨_, _, -, restCode, -⟩ := @lowerStmts_code s.env result source stmts _ _ between rest fits
    obtain ⟨middle, firstMakes⟩ := explains.lowerStmt stmt inside calling first before
    obtain ⟨after, restMakes⟩ := explains.lowerStmts stmts between middle rest fits
    rw [explains.cons]
    exact ⟨after, firstMakes.trans restMakes (Program.Keeps.size_le firstCode.keeps.instrs) restCode.keeps⟩

end

/-- A body amounts to what its statements do. -/
theorem Explains.lowerBody (explains : Explains source native A one all) {signature : Signature} {f : FuncId}
    (bound : s.Bound) (calling : s.Calling source native) (run : Runs (lowerBody source signature f) s () t)
    (fits : t.program.Fits) : t.Calling source native ∧ Amounts A s t (all signature.body) := by
  obtain ⟨v, w, q, log, ⟨head, before⟩, ⟨stmts, small⟩, changed, rfl⟩ := lowerBody_fitting run fits
  obtain ⟨b, -, written⟩ := Program.modifyBody_code? changed
  obtain ⟨g, -, rfl⟩ := Program.setBody_ok written
  obtain ⟨result, filled, inside, code, -, -⟩ := head_code bound head before
  have begun : Code s.env result s v [] [] [] [] := code
  have started : v.Calling source native :=
    ⟨filled.callees.trans calling.callees, by rw [head.path.steady.native, calling.native],
      calling.stands.head (fun stands => ⟨_, stands⟩) head before⟩
  obtain ⟨after, makes⟩ := explains.lowerStmts signature.body (inside.inRegion {}) (started.inRegion {}) stmts small
  obtain ⟨_, _, -, code, -⟩ :=
    @lowerStmts_code s.env result source signature.body _ _ (inside.inRegion {}) stmts small
  have makes : Amounts A s w (all signature.body) := begun.amounts_trans makes code.keeps
  exact ⟨⟨after.callees, after.native, after.stands⟩,
    fun q kept small => makes ⟨kept.instrs, kept.values, kept.vars, kept.links⟩ small⟩

end

end Lowering

end ShaderSSA
