import ShaderSSA.Lowering.Program
import ShaderSSA.Proofs.Results

/-!
Runs of lowering. `Runs m s a t` says that `m`, started in `s`, gives `a` and ends in `t`, and `Fails m s t`
that it fails and leaves `t`; the lemmas of this file take both apart along the text of `m`, down to the
steps that change the state.
-/

namespace ShaderSSA.Lowering
open Target Lower

variable {c : Scope} {d : Defect} {op : Operation} {p : Target.Program} {site : Option Location} {type : ShaderType}
  {v : ValueId}

/-- What `m` gives when it is started in `s`, and the state it leaves. -/
def outcome {α : Type} (m : Lower α) (s : State) : Except Failure α × State := m.run.run s

/-- `m`, started in `s`, gives `a` and ends in `t`. -/
def Runs {α : Type} (m : Lower α) (s : State) (a : α) (t : State) : Prop :=
  outcome m s = (.ok a, t)

/-- `m`, started in `s`, fails and leaves `t`. -/
def Fails {α : Type} (m : Lower α) (s t : State) : Prop := ∃ e, outcome m s = (.error e, t)

theorem runs_of_not_fails {α : Type} {m : Lower α} {s : State} (h : ∀ t, ¬ Fails m s t) :
    ∃ a t, Runs m s a t := by
  rcases result : outcome m s with ⟨e | a, t⟩
  · exact absurd ⟨e, result⟩ (h t)
  · exact ⟨a, t, result⟩

theorem runs_of_isOk {α : Type} {m : Lower α} {s : State} (h : (outcome m s).1.isOk = true) :
    ∃ a, Runs m s a (outcome m s).2 := by
  rcases result : outcome m s with ⟨e | a, t⟩
  · rw [result] at h
    cases h
  · exact ⟨a, result⟩

section
variable {α β : Type} {s t : State} {a : α} {b : β} {f : α → Lower β} {m : Lower Unit} {x : Lower α}

@[simp]
theorem runs_pure {x : α} : Runs (pure x) s a t ↔ a = x ∧ t = s := by
  have unfolded : outcome (pure x : Lower α) s = (.ok x, s) := rfl
  simp [Runs, unfolded, eq_comm]

@[simp]
theorem runs_throw {e : Failure} : ¬ Runs (throw e : Lower α) s a t := by
  have unfolded : outcome (throw e : Lower α) s = (.error e, s) := rfl
  simp [Runs, unfolded]

@[simp]
theorem runs_abort : ¬ Runs (abort d : Lower α) s a t := runs_throw

@[simp]
theorem fails_pure {x : α} : ¬ Fails (pure x : Lower α) s t := by
  rintro ⟨e, failed⟩
  have unfolded : outcome (pure x : Lower α) s = (.ok x, s) := rfl
  simp [unfolded] at failed

@[simp]
theorem fails_throw {e : Failure} : Fails (throw e : Lower α) s t ↔ t = s := by
  have unfolded : outcome (throw e : Lower α) s = (.error e, s) := rfl
  simp [Fails, unfolded, eq_comm]

@[simp]
theorem fails_abort : Fails (abort d : Lower α) s t ↔ t = s := fails_throw

theorem outcome_bind : outcome (x >>= f) s = match outcome x s with
      | (.ok a, t) => outcome (f a) t
      | (.error e, t) => (.error e, t) := by
  change ExceptT.bindCont f (outcome x s).1 (outcome x s).2 = _
  rcases outcome x s with ⟨_ | a, t⟩ <;> rfl

theorem outcome_bind_congr {g : α → Lower β} (h : ∀ a t, Runs x s a t → outcome (f a) t = outcome (g a) t) :
    outcome (x >>= f) s = outcome (x >>= g) s := by
  rw [outcome_bind, outcome_bind]
  rcases result : outcome x s with ⟨e | a, t⟩
  · rfl
  · exact h a t result

/-- A run of two computations passes through a state between them. -/
@[simp]
theorem runs_bind {u : State} : Runs (x >>= f) s b u ↔ ∃ a t, Runs x s a t ∧ Runs (f a) t b u := by
  simp only [Runs, outcome_bind]
  constructor
  · intro h
    rcases hx : outcome x s with ⟨e | a, t⟩
    · simp [hx] at h
    · exact ⟨a, t, rfl, by simpa [hx] using h⟩
  · rintro ⟨a, t, hx, hf⟩
    rw [hx]
    exact hf

/-- Two computations fail in the first, or in the second after the first has given a result. -/
@[simp]
theorem fails_bind {u : State} : Fails (x >>= f) s u ↔ Fails x s u ∨ ∃ a t, Runs x s a t ∧ Fails (f a) t u := by
  simp only [Fails, Runs, outcome_bind]
  rcases outcome x s with ⟨e | a, t⟩
  · simp
  · simp only [Prod.mk.injEq, reduceCtorEq, false_and, exists_false, Except.ok.injEq, false_or]
    constructor
    · intro failed
      exact ⟨a, t, ⟨rfl, rfl⟩, failed⟩
    · rintro ⟨_, _, ⟨rfl, rfl⟩, failed⟩
      exact failed

@[simp]
theorem runs_unless {c : Prop} [Decidable c] {f : β → Lower α} {m : Lower α} :
    Runs (if c then abort d >>= f else m) s a t ↔ ¬ c ∧ Runs m s a t := by
  split <;> simp_all

@[simp]
theorem fails_unless {c : Prop} [Decidable c] {f : β → Lower α} {m : Lower α} :
    Fails (if c then abort d >>= f else m) s t ↔ c ∧ t = s ∨ ¬ c ∧ Fails m s t := by
  split <;> simp_all

@[simp]
theorem runs_check {e : Except Fault α} : Runs (check e) s a t ↔ e = .ok a ∧ t = s := by
  cases e with
  | ok x => simp [check, eq_comm]
  | error f => simp [check]

@[simp]
theorem fails_check {e : Except Fault α} : Fails (check e) s t ↔ (∃ f, e = .error f) ∧ t = s := by
  cases e with
  | ok x => simp [check]
  | error f => simp [check]

/-! ### Reading and writing the state -/

theorem runs_modify {f : State → State} {a : Unit} :
    Runs (modify f : Lower Unit) s a t ↔ t = f s := by
  have unfolded : outcome (modify f : Lower Unit) s = (.ok (), f s) := rfl
  simp [Runs, unfolded, eq_comm]

theorem fails_modify {f : State → State} : ¬ Fails (modify f : Lower Unit) s t := by
  rintro ⟨e, failed⟩
  have unfolded : outcome (modify f : Lower Unit) s = (.ok (), f s) := rfl
  simp [unfolded] at failed

@[simp]
theorem runs_program : Runs program s p t ↔ p = s.program ∧ t = s := by
  have unfolded : outcome program s = (.ok s.program, s) := rfl
  simp [Runs, unfolded, eq_comm]

@[simp]
theorem fails_program : ¬ Fails program s t := by
  rintro ⟨e, failed⟩
  have unfolded : outcome program s = (.ok s.program, s) := rfl
  simp [unfolded] at failed

@[simp]
theorem runs_scope : Runs scope s c t ↔ c = s.scope ∧ t = s := by
  have unfolded : outcome scope s = (.ok s.scope, s) := rfl
  simp [Runs, unfolded, eq_comm]

@[simp]
theorem fails_scope : ¬ Fails scope s t := by
  rintro ⟨e, failed⟩
  have unfolded : outcome scope s = (.ok s.scope, s) := rfl
  simp [unfolded] at failed

@[simp]
theorem runs_nativeIntegers {n : Bool} :
    Runs nativeIntegers s n t ↔ n = s.scope.nativeIntegers ∧ t = s := by
  simp only [nativeIntegers, runs_bind, runs_scope, runs_pure]
  constructor
  · rintro ⟨_, _, ⟨rfl, rfl⟩, rfl, rfl⟩
    exact ⟨rfl, rfl⟩
  · rintro ⟨rfl, rfl⟩
    exact ⟨_, _, ⟨rfl, rfl⟩, rfl, rfl⟩

@[simp]
theorem fails_nativeIntegers : ¬ Fails nativeIntegers s t := by
  simp only [nativeIntegers, fails_bind, fails_scope, fails_pure, and_false, exists_false, or_self, not_false_iff]

@[simp]
theorem runs_setProgram {a : Unit} :
    Runs (setProgram p) s a t ↔ t = { s with program := p } := runs_modify

@[simp]
theorem runs_setScope {a : Unit} :
    Runs (setScope c) s a t ↔ t = { s with scope := c } := runs_modify

@[simp]
theorem runs_report {e : Event} {a : Unit} :
    Runs (report e) s a t ↔ t = { s with log := s.log.push e } := runs_modify

@[simp]
theorem runs_modifyRegion {f : Region → Region} {a : Unit} :
    Runs (modifyRegion f) s a t ↔ t = { s with region := f s.region } := runs_modify

@[simp]
theorem fails_setProgram : ¬ Fails (setProgram p) s t := fails_modify

@[simp]
theorem fails_setScope : ¬ Fails (setScope c) s t := fails_modify

@[simp]
theorem fails_report {e : Event} : ¬ Fails (report e) s t := fails_modify

@[simp]
theorem fails_modifyRegion {f : Region → Region} : ¬ Fails (modifyRegion f) s t := fails_modify

@[simp]
theorem runs_valueDef {d : ValueDef} : Runs (valueDef v) s d t ↔ s.program.value? v = some d ∧ t = s := by
  have found : ∀ p : Target.Program, p.getValue v = .ok d ↔ p.value? v = some d := by
    intro p
    cases h : p.value? v <;> simp [Program.getValue, h]
  simp only [valueDef, runs_bind, runs_program, runs_check]
  constructor
  · rintro ⟨_, _, ⟨rfl, rfl⟩, read, rfl⟩
    exact ⟨(found _).mp read, rfl⟩
  · rintro ⟨read, rfl⟩
    exact ⟨_, _, ⟨rfl, rfl⟩, (found _).mpr read, rfl⟩

@[simp]
theorem fails_valueDef : Fails (valueDef v) s t ↔ s.program.value? v = none ∧ t = s := by
  simp only [valueDef, fails_bind, fails_program, false_or, runs_program, fails_check]
  constructor
  · rintro ⟨_, _, ⟨rfl, rfl⟩, ⟨f, failed⟩, rfl⟩
    cases found : t.program.value? v <;> simp_all [Program.getValue]
  · rintro ⟨missing, rfl⟩
    exact ⟨_, _, ⟨rfl, rfl⟩, ⟨.defect (.valueRange v), by simp [Program.getValue, missing]⟩, rfl⟩

theorem outcome_inRegion : outcome (inRegion m) s = match outcome m { s with region := {} } with
      | (.ok (), u) => (.ok u.region, { u with region := s.region })
      | (.error e, u) => (.error e, { u with region := s.region }) := rfl

/-- A run in a region of its own leaves the open region as it was. -/
@[simp]
theorem runs_inRegion {r : Region} : Runs (inRegion m) s r t ↔
      ∃ u, Runs m { s with region := {} } () u ∧ r = u.region ∧ t = { u with region := s.region } := by
  simp only [Runs, outcome_inRegion]
  constructor
  · intro h
    rcases hm : outcome m { s with region := {} } with ⟨e | _, u⟩
    · simp [hm] at h
    · simp only [hm, Prod.mk.injEq, Except.ok.injEq] at h
      exact ⟨u, rfl, h.1.symm, h.2.symm⟩
  · rintro ⟨u, hm, rfl, rfl⟩
    rw [hm]

@[simp]
theorem fails_inRegion :
    Fails (inRegion m) s t ↔ ∃ u, Fails m { s with region := {} } u ∧ t = { u with region := s.region } := by
  simp only [Fails, outcome_inRegion]
  rcases outcome m { s with region := {} } with ⟨e | _, u⟩ <;> simp [eq_comm]

theorem outcome_withSite {m : Lower α} :
    outcome (withSite site m) s = outcome m s ∨
      ∃ e e' u, outcome m s = (.error e, u) ∧ outcome (withSite site m) s = (.error e', u) := by
  simp only [outcome, withSite, ExceptT.run_mk, StateT.run]
  split
  · rename_i failed
    exact .inr ⟨_, _, _, failed, rfl⟩
  · exact .inl rfl

@[simp]
theorem runs_withSite {m : Lower α} : Runs (withSite site m) s a t ↔ Runs m s a t := by
  obtain same | ⟨e, e', u, failed, again⟩ := outcome_withSite (s := s) (m := m)
  · rw [Runs, same, Runs]
  · simp [Runs, failed, again]

@[simp]
theorem fails_withSite {m : Lower α} : Fails (withSite site m) s t ↔ Fails m s t := by
  obtain same | ⟨e, e', u, failed, again⟩ := outcome_withSite (s := s) (m := m)
  · rw [Fails, same, Fails]
  · simp [Fails, failed, again]

end

/-! ### Growing the program -/

/-- The state after an instruction of the given number has been pushed to program `p`. -/
def State.pushed (s : State) (p : Target.Program) (id : InstId) (operation : Operation) : State :=
  { s with
    program := p
    region := s.region.pushInstr id
    log := s.log.push (.emitted id operation) }

def State.nextInst (s : State) : InstId := ⟨UInt32.ofNat s.program.instrs.size⟩

def State.nextValue (s : State) : ValueId := ⟨UInt32.ofNat s.program.values.size⟩

def State.nextVar (s : State) : VarId := ⟨UInt32.ofNat s.program.vars.size⟩

def State.withEffect (s : State) (operation : Operation) : State :=
  s.pushed { s.program with instrs := s.program.instrs.push ⟨operation, none⟩ } s.nextInst operation

def State.withValue (s : State) (operation : Operation) (width bitSize : UInt8) : State :=
  s.pushed { s.program with
      values := s.program.values.push ⟨width, bitSize, s.nextInst⟩
      instrs := s.program.instrs.push ⟨operation, some s.nextValue⟩ } s.nextInst operation

section
variable {s t : State} {c : Chain}

theorem emitEffect_ok {a : Unit} (h : Runs (emitEffect op) s a t) : t = s.withEffect op := by
  simp only [emitEffect, runs_bind, runs_program] at h
  obtain ⟨_, _, ⟨rfl, rfl⟩, h⟩ := h
  simp only [Program.addEffect] at h
  split at h
  · exact (runs_throw h).elim
  · rename_i added
    split at added
    · simp at added
    · simp only [Except.ok.injEq, Prod.mk.injEq] at added
      obtain ⟨rfl, rfl⟩ := added
      simp only [runs_bind, runs_setProgram, runs_modifyRegion, runs_report] at h
      obtain ⟨_, _, rfl, _, _, rfl, rfl⟩ := h
      rfl

theorem emitValue_ok {width bitSize : UInt8} (h : Runs (emitValue op width bitSize) s v t) :
    v = s.nextValue ∧ t = s.withValue op width bitSize ∧ ¬ (width = 0 ∨ 4 < width) := by
  simp only [emitValue, runs_unless, runs_bind, runs_program] at h
  obtain ⟨narrow, _, _, ⟨rfl, rfl⟩, h⟩ := h
  simp only [Program.addValue] at h
  split at h
  · exact (runs_throw h).elim
  · rename_i added
    split at added
    · simp at added
    · simp only [Except.ok.injEq, Prod.mk.injEq] at added
      obtain ⟨rfl, rfl, rfl⟩ := added
      simp only [runs_bind, runs_setProgram, runs_modifyRegion, runs_report, runs_pure] at h
      obtain ⟨_, _, rfl, _, _, rfl, _, _, rfl, rfl, rfl⟩ := h
      exact ⟨rfl, rfl, narrow⟩

theorem emitEffect_fails (h : Fails (emitEffect op) s t) : t = s ∧ s.program.isFull = true := by
  simp only [emitEffect, fails_bind, fails_program, false_or, runs_program] at h
  obtain ⟨_, _, ⟨rfl, rfl⟩, h⟩ := h
  split at h
  · rename_i added
    simp only [Program.addEffect] at added
    split at added
    · rename_i full
      exact ⟨fails_throw.mp h, full⟩
    · cases added
  · simp at h

theorem emitValue_fails {width bitSize : UInt8} (h : Fails (emitValue op width bitSize) s t) :
    t = s ∧ ((width = 0 ∨ 4 < width) ∨ s.program.isFull = true) := by
  simp only [emitValue, fails_unless, fails_bind, fails_program, false_or, runs_program] at h
  obtain ⟨wide, rfl⟩ | ⟨-, _, _, ⟨rfl, rfl⟩, h⟩ := h
  · exact ⟨rfl, .inl wide⟩
  split at h
  · rename_i added
    simp only [Program.addValue] at added
    split at added
    · rename_i full
      exact ⟨fails_throw.mp h, .inr full⟩
    · cases added
  · simp only [fails_bind, fails_setProgram, fails_modifyRegion, fails_report, fails_pure, and_false, exists_false,
      or_self] at h

theorem rootChain_ok {var : VarId} (h : Runs (rootChain var type) s c t) :
    c = ⟨s.program.links.nextId, s.program.links.nextId⟩ ∧
      t = { s with program := { s.program with
        links := s.program.links.push ⟨.var var, type, none⟩ } } := by
  simp only [rootChain, runs_bind, runs_program, runs_setProgram, runs_pure] at h
  obtain ⟨_, _, ⟨rfl, rfl⟩, _, _, rfl, rfl, rfl⟩ := h
  exact ⟨rfl, rfl⟩

theorem appendLink_ok {d : Chain} {kind : LinkKind} (h : Runs (appendLink c kind type) s d t) :
    ∃ links, s.program.links.append c kind type = .ok (d, links) ∧
      t = { s with program := { s.program with links } } := by
  simp only [appendLink, runs_bind, runs_program, runs_check, runs_setProgram, runs_pure] at h
  obtain ⟨_, _, ⟨rfl, rfl⟩, ⟨chain, links⟩, _, ⟨appended, rfl⟩, _, _, rfl, rfl, rfl⟩ := h
  exact ⟨links, appended, rfl⟩

@[simp]
theorem fails_rootChain {var : VarId} : ¬ Fails (rootChain var type) s t := by
  simp only [rootChain, fails_bind, fails_program, fails_setProgram, fails_pure, and_false, exists_false, or_self,
    not_false_iff]

theorem appendLink_fails {kind : LinkKind} (h : Fails (appendLink c kind type) s t) :
    t = s ∧ ∃ f, s.program.links.append c kind type = .error f := by
  simp only [appendLink, fails_bind, fails_program, false_or, runs_program, fails_check, fails_setProgram,
    fails_pure, and_false, exists_false, or_false] at h
  obtain ⟨_, _, ⟨rfl, rfl⟩, failed, rfl⟩ := h
  exact ⟨rfl, failed⟩

end

end ShaderSSA.Lowering
