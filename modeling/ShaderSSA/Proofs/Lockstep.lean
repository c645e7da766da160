import ShaderSSA.Proofs.Run
import ShaderSSA.Proofs.Updates

/-!
Runs under a cap. A computation keeps in lockstep with itself if a cap on the number of instructions
changes nothing as long as the run stays within the cap, and makes it fail for want of room as soon as the
run goes beyond. What lowering is put together from keeps in lockstep, and so does what is put together.
-/

namespace ShaderSSA

namespace Target.Program

def limited (p : Program) (limit : Option UInt32) : Program := { p with instrLimit := limit }

theorem setBody_limited (p : Program) (limit : Option UInt32) (id : FuncId) (body : Option Body) :
    (p.limited limit).setBody id body = (p.setBody id body).map (·.limited limit) := by
  simp only [setBody, getFunction, function?, limited, pure_def]
  cases p.functions[id.index.toNat]? <;> rfl

theorem modifyBody_limited (p : Program) (limit : Option UInt32) (id : FuncId) (change : Body → Body) :
    (p.limited limit).modifyBody id change = (p.modifyBody id change).map (·.limited limit) := by
  have same : (p.limited limit).getBody id = p.getBody id := rfl
  simp only [modifyBody, same]
  cases p.getBody id with
  | error e => rfl
  | ok b => exact setBody_limited ..

theorem addVariable_limited (p : Program) (limit : Option UInt32) (var : Variable) (owner : Option FuncId) :
    (p.limited limit).addVariable var owner =
      ((p.addVariable var owner).1, (p.addVariable var owner).2.limited limit) := by
  have changed := fun owner id change =>
    modifyBody_limited { p with vars := p.vars.push { var with owner } } limit id change
  simp only [limited] at changed ⊢
  simp only [addVariable, changed]
  split
  · cases owner with
    | none => rfl
    | some f =>
      dsimp only
      split
      · generalize modifyBody _ f _ = result
        cases result <;> rfl
      · rfl
  · rfl

end Target.Program

namespace Lowering
open Target Lower

variable {s t : State}

def State.capped (s : State) (k : UInt32) : State := { s with program := s.program.limited (some k) }

def State.emitted (s : State) : Nat := s.program.instrs.size

/-- A run of `m` without a cap never wants for room, and is repeated under every cap that it stays within. -/
structure Repeats {α : Type} (m : Lower α) : Prop where
  uncapped : ∀ {s r t}, outcome m s = (r, t) → s.program.instrLimit = none →
    t.program.instrLimit = none ∧ s.emitted ≤ t.emitted ∧ ∀ e, r ≠ .error (.exhausted e)
  within : ∀ {s r t} {k : UInt32}, outcome m s = (r, t) → s.program.instrLimit = none →
    t.emitted ≤ k.toNat → outcome m (s.capped k) = (r, t.capped k)

/-- Under any other cap `m` wants for room, and reports so at `site`. -/
structure Lockstep (site : Option Location) {α : Type} (m : Lower α) : Prop extends Repeats m where
  beyond : ∀ {s r t} {k : UInt32}, outcome m s = (r, t) → s.program.instrLimit = none →
    s.emitted ≤ k.toNat → k.toNat < t.emitted →
    ∃ u, outcome m (s.capped k) = (.error (.exhausted ⟨"instructions", site⟩), u)

section
variable {α β : Type} {site : Option Location} {k : UInt32} {m x : Lower α} {f : α → Lower β}

theorem lockstep_of_silent (quiet : ∀ s, (outcome m s).2.program.instrs = s.program.instrs ∧
      (outcome m s).2.program.instrLimit = s.program.instrLimit ∧ ∀ e, (outcome m s).1 ≠ .error (.exhausted e))
    (same : ∀ s k, outcome m (s.capped k) = ((outcome m s).1, (outcome m s).2.capped k)) : Lockstep site m := by
  refine ⟨⟨?_, ?_⟩, ?_⟩
  · intro s r t run free
    obtain ⟨instrs, limit, recoverable⟩ := quiet s
    rw [run] at instrs limit recoverable
    exact ⟨limit.trans free, Nat.le_of_eq (congrArg Array.size instrs).symm, recoverable⟩
  · intro s r t k run free inside
    rw [same, run]
  · intro s r t k run free inside outside
    have instrs := (quiet s).1
    rw [run] at instrs
    rw [State.emitted, instrs] at outside
    exact absurd inside (Nat.not_le.mpr outside)

@[simp]
theorem lockstep_pure (x : α) : Lockstep site (pure x) :=
  lockstep_of_silent (fun _ => ⟨rfl, rfl, nofun⟩) fun _ _ => rfl

@[simp]
theorem lockstep_check (e : Except Fault α) : Lockstep site (check e) := by
  cases e with
  | ok x => exact lockstep_pure x
  | error f => exact lockstep_of_silent (fun _ => ⟨rfl, rfl, nofun⟩) fun _ _ => rfl

@[simp]
theorem lockstep_abort (d : Defect) : Lockstep site (abort d : Lower α) := lockstep_check (.error (.defect d))

@[simp]
theorem lockstep_scope : Lockstep site scope := lockstep_of_silent (fun _ => ⟨rfl, rfl, nofun⟩) fun _ _ => rfl

@[simp]
theorem lockstep_setScope (c : Scope) : Lockstep site (setScope c) :=
  lockstep_of_silent (fun _ => ⟨rfl, rfl, nofun⟩) fun _ _ => rfl

@[simp]
theorem lockstep_report (e : Event) : Lockstep site (report e) :=
  lockstep_of_silent (fun _ => ⟨rfl, rfl, nofun⟩) fun _ _ => rfl

@[simp]
theorem lockstep_modifyRegion (f : Region → Region) : Lockstep site (modifyRegion f) :=
  lockstep_of_silent (fun _ => ⟨rfl, rfl, nofun⟩) fun _ _ => rfl

theorem repeats_bind (hx : Repeats x) (hf : ∀ a, Repeats (f a)) : Repeats (x >>= f) := by
  constructor
  · intro s r u run free
    rw [outcome_bind] at run
    rcases first : outcome x s with ⟨e | a, t⟩
    · rw [first] at run
      obtain ⟨rfl, rfl⟩ := Prod.mk.inj run
      obtain ⟨still, grown, recoverable⟩ := hx.uncapped first free
      exact ⟨still, grown, fun e same => recoverable e (by rw [Except.error.inj same])⟩
    · rw [first] at run
      obtain ⟨still, grown, -⟩ := hx.uncapped first free
      obtain ⟨after, more, recoverable⟩ := (hf a).uncapped run still
      exact ⟨after, Nat.le_trans grown more, recoverable⟩
  · intro s r u k run free inside
    rw [outcome_bind] at run ⊢
    rcases first : outcome x s with ⟨e | a, t⟩
    · rw [first] at run
      obtain ⟨rfl, rfl⟩ := Prod.mk.inj run
      rw [hx.within first free inside]
    · rw [first] at run
      obtain ⟨still, -, -⟩ := hx.uncapped first free
      obtain ⟨-, more, -⟩ := (hf a).uncapped run still
      rw [hx.within first free (Nat.le_trans more inside)]
      exact (hf a).within run still inside

/-- Of two computations that go beyond the cap, the first does, or it stays within and the second does. -/
theorem beyond_bind (hx : Repeats x) {r : Except Failure β}
    (run : outcome (x >>= f) s = (r, t)) (free : s.program.instrLimit = none) (outside : k.toNat < t.emitted) :
    (∃ r u, outcome x s = (r, u) ∧ k.toNat < u.emitted ∧ ∀ {e v}, outcome x (s.capped k) = (.error e, v) →
      outcome (x >>= f) (s.capped k) = (.error e, v)) ∨
    ∃ a u, Runs x s a u ∧ u.emitted ≤ k.toNat ∧ u.program.instrLimit = none ∧ outcome (f a) u = (r, t) ∧
      outcome (x >>= f) (s.capped k) = outcome (f a) (u.capped k) := by
  have passed : ∀ {e v}, outcome x (s.capped k) = (.error e, v) →
      outcome (x >>= f) (s.capped k) = (.error e, v) := by
    intro e v failed
    rw [outcome_bind, failed]
  rw [outcome_bind] at run
  rcases done : outcome x s with ⟨e | a, u⟩
  · rw [done] at run
    obtain ⟨-, rfl⟩ := Prod.mk.inj run
    exact .inl ⟨_, _, rfl, outside, passed⟩
  · rw [done] at run
    rcases Nat.lt_or_ge k.toNat u.emitted with full | room
    · exact .inl ⟨_, u, rfl, full, passed⟩
    · refine .inr ⟨a, u, done, room, (hx.uncapped done free).1, run, ?_⟩
      rw [outcome_bind, hx.within done free room]

theorem lockstep_bind (hx : Lockstep site x) (hf : ∀ a, Lockstep site (f a)) : Lockstep site (x >>= f) := by
  refine ⟨repeats_bind hx.toRepeats fun a => (hf a).toRepeats, ?_⟩
  intro s r t k run free inside outside
  obtain ⟨_, u, first, full, passed⟩ | ⟨a, u, -, room, still, next, same⟩ :=
    beyond_bind hx.toRepeats run free outside
  · obtain ⟨v, failed⟩ := hx.beyond first free inside full
    exact ⟨v, passed failed⟩
  · rw [same]
    exact (hf a).beyond next still room outside

theorem lockstep_read {f : Target.Program → Lower α} (blind : ∀ p limit, f (p.limited limit) = f p)
    (hf : ∀ p, Lockstep site (f p)) : Lockstep site (program >>= f) := by
  have unfolded : ∀ s, outcome (program >>= f) s = outcome (f s.program) s := fun _ => rfl
  have capped : ∀ (s : State) k, outcome (program >>= f) (s.capped k) = outcome (f s.program) (s.capped k) := by
    intro s k
    rw [unfolded]
    exact congrArg (outcome · _) (blind ..)
  refine ⟨⟨?_, ?_⟩, ?_⟩
  · intro s r t run
    exact (hf s.program).uncapped run
  · intro s r t k run
    rw [capped]
    exact (hf s.program).within run
  · intro s r t k run
    rw [capped]
    exact (hf s.program).beyond run

@[simp]
theorem lockstep_nativeIntegers : Lockstep site nativeIntegers :=
  lockstep_bind lockstep_scope fun _ => lockstep_pure _

@[simp]
theorem lockstep_valueDef (v : ValueId) : Lockstep site (valueDef v) :=
  lockstep_read (fun _ _ => rfl) fun _ => lockstep_check _

theorem lockstep_inRegion {m : Lower Unit} (h : Lockstep site m) : Lockstep site (inRegion m) := by
  refine ⟨⟨?_, ?_⟩, ?_⟩
  · intro s r t run free
    rw [outcome_inRegion] at run
    rcases inner : outcome m { s with region := {} } with ⟨e | _, u⟩
    all_goals
      obtain ⟨still, grown, recoverable⟩ := h.uncapped inner free
      rw [inner] at run
      obtain ⟨rfl, rfl⟩ := Prod.mk.inj run
    · exact ⟨still, grown, fun e same => recoverable e (by rw [Except.error.inj same])⟩
    · exact ⟨still, grown, nofun⟩
  · intro s r t k run free inside
    rw [outcome_inRegion] at run ⊢
    rcases inner : outcome m { s with region := {} } with ⟨e | _, u⟩
    all_goals
      rw [inner] at run
      obtain ⟨rfl, rfl⟩ := Prod.mk.inj run
      rw [show { s.capped k with region := {} } = State.capped { s with region := {} } k from rfl,
        h.within inner free inside]
      rfl
  · intro s r t k run free inside outside
    rw [outcome_inRegion] at run ⊢
    rcases inner : outcome m { s with region := {} } with ⟨e | _, u⟩
    all_goals
      rw [inner] at run
      obtain ⟨rfl, rfl⟩ := Prod.mk.inj run
      obtain ⟨v, failed⟩ := h.beyond inner free inside outside
      refine ⟨{ v with region := s.region }, ?_⟩
      rw [show { s.capped k with region := {} } = State.capped { s with region := {} } k from rfl, failed]
      rfl

theorem outcome_withSite_other {site : Option Location} {r : Except Failure α}
    (run : outcome m s = (r, t)) (other : ∀ e, r ≠ .error (.exhausted e)) : outcome (withSite site m) s = (r, t) := by
  simp only [outcome, withSite, ExceptT.run_mk, StateT.run] at run ⊢
  rw [run]
  split
  · rename_i is
    exact absurd (Prod.mk.inj is).1 (other _)
  · rfl

theorem outcome_withSite_exhausted {resource : String}
    (run : outcome m s = (.error (.exhausted ⟨resource, none⟩), t)) (site : Option Location) :
    outcome (withSite site m) s = (.error (.exhausted ⟨resource, site⟩), t) := by
  simp only [outcome, withSite, ExceptT.run_mk, StateT.run] at run ⊢
  rw [run]
  cases site <;> rfl

theorem lockstep_withSite (h : Lockstep none m) (site : Option Location) : Lockstep site (withSite site m) := by
  have known : ∀ {s r t}, outcome (withSite site m) s = (r, t) → s.program.instrLimit = none →
      outcome m s = (r, t) := by
    intro s r t run free
    rcases inner : outcome m s with ⟨x, u⟩
    rw [outcome_withSite_other inner (h.uncapped inner free).2.2] at run
    exact run
  refine ⟨⟨?_, ?_⟩, ?_⟩
  · intro s r t run free
    exact h.uncapped (known run free) free
  · intro s r t k run free inside
    have inner := known run free
    exact outcome_withSite_other (h.within inner free inside) (h.uncapped inner free).2.2
  · intro s r t k run free inside outside
    obtain ⟨u, failed⟩ := h.beyond (known run free) free inside outside
    exact ⟨u, outcome_withSite_exhausted failed site⟩

/-! ### Additions to the program -/

theorem not_isFull {p : Target.Program} (unlimited : p.instrLimit = none) : p.isFull = false := by
  simp [Target.Program.isFull, unlimited]

theorem isFull_capped (inside : s.emitted ≤ k.toNat) : (s.capped k).program.isFull = decide (s.emitted = k.toNat) := by
  have index : (UInt32.ofNat s.program.instrs.size).toNat = s.emitted :=
    UInt32.toNat_ofNat_of_lt' (Nat.lt_of_le_of_lt inside k.toNat_lt)
  have unfolded : (s.capped k).program.isFull = decide (k ≤ UInt32.ofNat s.program.instrs.size) := rfl
  rw [unfolded, decide_eq_decide, UInt32.le_iff_toNat_le, index]
  exact ⟨Nat.le_antisymm inside, fun same => Nat.le_of_eq same.symm⟩

/-- One instruction: there is room for it, unless the cap is met. -/
theorem lockstep_of_emission (a : State → α) (after : State → State)
    (room : ∀ {s}, s.program.isFull = false → outcome m s = (.ok (a s), after s))
    (full : ∀ {s}, s.program.isFull = true → outcome m s = (.error (.exhausted ⟨"instructions", none⟩), s))
    (limit : ∀ s, (after s).program.instrLimit = s.program.instrLimit) (one : ∀ s, (after s).emitted = s.emitted + 1)
    (same : ∀ s k, a (s.capped k) = a s ∧ after (s.capped k) = (after s).capped k) : Lockstep none m := by
  refine ⟨⟨?_, ?_⟩, ?_⟩
  · intro s r t run free
    rw [room (not_isFull free)] at run
    obtain ⟨rfl, rfl⟩ := Prod.mk.inj run
    exact ⟨(limit s).trans free, by rw [one]; exact Nat.le_succ _, nofun⟩
  · intro s r t k run free inside
    rw [room (not_isFull free)] at run
    obtain ⟨rfl, rfl⟩ := Prod.mk.inj run
    rw [one] at inside
    have open' : (s.capped k).program.isFull = false := by
      rw [isFull_capped (Nat.le_of_succ_le inside), decide_eq_false_iff_not]
      omega
    rw [room open', (same s k).1, (same s k).2]
  · intro s r t k run free inside outside
    rw [room (not_isFull free)] at run
    obtain ⟨rfl, rfl⟩ := Prod.mk.inj run
    rw [one] at outside
    have met : (s.capped k).program.isFull = true := by
      rw [isFull_capped inside, decide_eq_true_eq]
      omega
    exact ⟨_, full met⟩

theorem outcome_program {f : Target.Program → Lower α} :
    outcome (program >>= f) s = outcome (f s.program) s := rfl

theorem outcome_scope {f : Scope → Lower α} : outcome (scope >>= f) s = outcome (f s.scope) s := rfl

theorem lockstep_emitEffect (op : Operation) : Lockstep none (emitEffect op) := by
  refine lockstep_of_emission (fun _ => ()) (·.withEffect op) ?_ ?_ (fun _ => rfl) ?_ fun _ _ => ⟨rfl, rfl⟩
  · intro s room
    rw [emitEffect, outcome_program, Program.addEffect, room]
    rfl
  · intro s full
    rw [emitEffect, outcome_program, Program.addEffect, full]
    rfl
  · intro s
    simp [State.emitted, State.withEffect, State.pushed]

theorem lockstep_emitValue (op : Operation) (width bitSize : UInt8) :
    Lockstep none (emitValue op width bitSize) := by
  by_cases wide : width = 0 ∨ 4 < width
  · have refused : ∀ s, outcome (emitValue op width bitSize) s =
        (.error (.fault (.defect (.valueWidth width))), s) := by
      intro s
      rw [emitValue, if_pos wide]
      rfl
    exact lockstep_of_silent (fun s => by simp [refused]) fun s k => by simp [refused]
  refine lockstep_of_emission (·.nextValue) (·.withValue op width bitSize) ?_ ?_ (fun _ => rfl) ?_
    fun _ _ => ⟨rfl, rfl⟩
  · intro s room
    rw [emitValue, if_neg wide, outcome_program, Program.addValue, room]
    rfl
  · intro s full
    rw [emitValue, if_neg wide, outcome_program, Program.addValue, full]
    rfl
  · intro s
    simp [State.emitted, State.withValue, State.pushed]

theorem lockstep_of_change (change : Target.Program → Except Fault α × Target.Program) (changes : ∀ s, outcome m s =
      ((change s.program).1.mapError .fault, { s with program := (change s.program).2 }))
    (quiet : ∀ p, (change p).2.instrs = p.instrs)
    (blind : ∀ p limit, change (p.limited limit) = ((change p).1, (change p).2.limited limit)) :
    Lockstep site m := by
  refine lockstep_of_silent (fun s => ?_) fun s k => ?_
  · rw [changes]
    refine ⟨quiet _, ?_, ?_⟩
    · have kept := congrArg (·.2.instrLimit) (blind s.program s.program.instrLimit)
      exact kept
    · intro e
      cases (change s.program).1 <;> nofun
  · rw [changes, changes, show (s.capped k).program = s.program.limited (some k) from rfl, blind]
    rfl

theorem lockstep_of_update (update : Target.Program → Except Fault (α × Target.Program)) (updates : ∀ s, outcome m s =
      outcome (check (update s.program) >>= fun x => setProgram x.2 >>= fun _ => pure x.1) s)
    (quiet : ∀ {p x}, update p = .ok x → x.2.instrs = p.instrs)
    (blind : ∀ p limit, update (p.limited limit) = (update p).map fun x => (x.1, x.2.limited limit)) :
    Lockstep site m := by
  refine lockstep_of_silent (fun s => ?_) fun s k => ?_
  · rw [updates]
    cases updated : update s.program with
    | error f => exact ⟨rfl, rfl, nofun⟩
    | ok x =>
      -- a limit that the program has is one that it keeps
      have kept := blind s.program s.program.instrLimit
      rw [show s.program.limited s.program.instrLimit = s.program from rfl, updated] at kept
      exact ⟨quiet updated, congrArg (·.2.instrLimit) (Except.ok.inj kept), nofun⟩
  · rw [updates, updates, show (s.capped k).program = s.program.limited (some k) from rfl, blind]
    cases update s.program <;> rfl

@[simp]
theorem lockstep_rootChain (var : VarId) (type : ShaderType) : Lockstep site (rootChain var type) :=
  lockstep_of_silent (fun _ => ⟨rfl, rfl, nofun⟩) fun _ _ => rfl

@[simp]
theorem lockstep_appendLink (c : Chain) (kind : LinkKind) (type : ShaderType) :
    Lockstep site (appendLink c kind type) := by
  refine lockstep_of_update (fun p => (p.links.append c kind type).map fun x => (x.1, { p with links := x.2 }))
    (fun s => ?_) (fun {p x} updated => ?_) fun p limit => ?_
  · rw [appendLink, outcome_program]
    cases s.program.links.append c kind type <;> rfl
  · cases appended : p.links.append c kind type with
    | error f => simp [appended, Except.map] at updated
    | ok y =>
      rw [appended] at updated
      obtain rfl := Except.ok.inj updated
      rfl
  · rw [show (p.limited limit).links = p.links from rfl]
    cases p.links.append c kind type <;> rfl

theorem outcome_addVariable (var : Variable) (owner : Option FuncId) (s : State) :
    outcome (addVariable var owner) s = ((s.program.addVariable var owner).1.mapError .fault,
      { s with program := (s.program.addVariable var owner).2 }) := by
  have opened : outcome (addVariable var owner) s =
      outcome (check (s.program.addVariable var owner).1) { s with program := (s.program.addVariable var owner).2 } :=
    rfl
  rw [opened]
  rcases s.program.addVariable var owner with ⟨_ | id, p⟩ <;> rfl

@[simp]
theorem lockstep_addVariable (var : Variable) (owner : Option FuncId) : Lockstep site (addVariable var owner) :=
  lockstep_of_change (·.addVariable var owner) (outcome_addVariable var owner)
    (fun p => (p.addVariable_frame var owner).1) fun p limit => p.addVariable_limited limit var owner

theorem lockstep_of_next {next : Target.Program → Except Fault Target.Program}
    (quiet : ∀ {p q}, next p = .ok q → q.instrs = p.instrs)
    (blind : ∀ p limit, next (p.limited limit) = (next p).map (·.limited limit)) :
    Lockstep site (program >>= fun p => check (next p) >>= setProgram) := by
  refine lockstep_of_update (fun p => (next p).map fun q => ((), q)) (fun s => ?_) (fun {p x} updated => ?_)
    fun p limit => ?_
  · rw [outcome_program]
    cases next s.program <;> rfl
  · cases changed : next p with
    | error f => simp [changed, Except.map] at updated
    | ok q =>
      rw [changed] at updated
      obtain rfl := Except.ok.inj updated
      exact quiet changed
  · rw [blind]
    cases next p <;> rfl

@[simp]
theorem lockstep_modifyBody (id : FuncId) (change : Body → Body) : Lockstep site (modifyBody id change) :=
  lockstep_of_next Program.modifyBody_instrs fun p limit => p.modifyBody_limited limit id change

theorem lockstep_declare (source : Source.Program) (id : Source.VarId) : Lockstep site (declare source id) := by
  unfold declare
  repeat' first | with_reducible apply lockstep_bind | intro _ | simp

end

end Lowering

end ShaderSSA
