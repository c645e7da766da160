import ShaderSSA.Proofs.Steps

/-!
What every path of lowering keeps: arenas do not shrink and their entries stay, bindings name variables
that exist, and below the top level the table of functions only gains local variables.
-/

namespace ShaderSSA

namespace Target

/-- A function without its list of local variables. -/
def Function.outline (f : Function) : Function :=
  { f with body := f.body.map fun b => { b with locals := #[] } }

/-- A function with more local variables. -/
def Function.withLocals (f : Function) (more : Array VarId) : Function :=
  { f with body := f.body.map fun b => { b with locals := b.locals ++ more } }

/-- Functions have gained nothing but local variables, and only the owner has gained any. -/
def Program.Gains (owner : Option FuncId) (p q : Program) : Prop :=
  ∀ i : Nat, ∃ more : Array VarId, ((∀ f, owner = some f → f.index.toNat ≠ i) → more = #[]) ∧
    q.functions[i]? = p.functions[i]?.map (·.withLocals more)

namespace Program.Gains

variable {owner : Option FuncId} {p q r : Program}

theorem of_same (same : q.functions = p.functions) : p.Gains owner q := by
  intro i
  refine ⟨#[], fun _ => rfl, ?_⟩
  rw [same]
  rcases p.functions[i]? with - | ⟨name, - | body⟩ <;> simp [Function.withLocals]

theorem trans (h : p.Gains owner q) (h' : q.Gains owner r) : p.Gains owner r := by
  intro i
  obtain ⟨first, idle, before⟩ := h i
  obtain ⟨second, idle', after⟩ := h' i
  refine ⟨first ++ second, fun other => by rw [idle other, idle' other, Array.append_empty], ?_⟩
  rw [after, before]
  rcases p.functions[i]? with - | ⟨name, - | body⟩ <;> simp [Function.withLocals]

theorem of_addVariable {var : Variable} {id : VarId} (h : p.addVariable var owner = (.ok id, q)) :
    p.Gains owner q := by
  obtain ⟨-, ⟨f, g, b, -, rfl, found, body, rfl⟩ | ⟨f, -, -, rfl⟩ | ⟨-, rfl⟩⟩ := addVariable_ok h
  · intro i
    by_cases this : f.index.toNat = i
    · subst this
      obtain ⟨below, -⟩ := Array.getElem?_eq_some_iff.mp found
      refine ⟨#[id], fun other => absurd rfl (other f rfl), ?_⟩
      rw [Array.getElem?_setIfInBounds_self_of_lt below, found, Option.map_some, Function.withLocals, body]
      rfl
    · obtain ⟨more, idle, same⟩ := (of_same rfl : p.Gains (some f) p) i
      exact ⟨more, idle, (Array.getElem?_setIfInBounds_ne this).trans same⟩
  · exact of_same rfl
  · exact of_same rfl

theorem outline (h : p.Gains owner q) : q.functions.map Function.outline = p.functions.map Function.outline := by
  refine Array.ext_getElem? fun i => ?_
  obtain ⟨more, -, after⟩ := h i
  rw [Array.getElem?_map, Array.getElem?_map, after]
  rcases p.functions[i]? with - | ⟨name, - | body⟩ <;> rfl

end Program.Gains

/-- The return variable and the nodes of a function that has a body. -/
def Program.code? (p : Program) (i : Nat) : Option (Option VarId × List Node) :=
  (p.functions[i]?.bind Function.body).map fun b => (b.returnVar, b.nodes)

theorem Program.code?_eq_of_outline {p q : Program}
    (same : q.functions.map Function.outline = p.functions.map Function.outline) : q.code? = p.code? := by
  have outlined : ∀ (r : Program) (i : Nat), r.code? i =
      (((r.functions.map Function.outline)[i]?).bind Function.body).map fun b => (b.returnVar, b.nodes) := by
    intro r i
    rw [Program.code?, Array.getElem?_map]
    cases r.functions[i]? with
    | none => rfl
    | some f => cases body : f.body <;> simp [Function.outline, body]
  funext i
  rw [outlined, outlined, same]

end Target

namespace Lowering
open Source Target Lower

variable {layer : Layer} {s t : State}

/-! ### Arenas -/

theorem Step.noLarger (h : Step layer s t) : s.program.NoLarger t.program := by
  cases h with
  | effect op => constructor <;> simp [State.withEffect, State.pushed]
  | value op width bitSize => constructor <;> simp [State.withValue, State.pushed]
  | root var type => constructor <;> simp
  | append appended =>
    obtain ⟨parent, -, -, -, rfl⟩ := append_ok appended
    constructor <;> simp
  | newVariable stored here added =>
    obtain ⟨-, ⟨f, g, b, -, -, -, -, rfl⟩ | ⟨f, -, -, rfl⟩ | ⟨-, rfl⟩⟩ :=
      Program.addVariable_ok added
    all_goals constructor <;> simp
  | newFunction name => constructor <;> simp [Program.addFunction]
  | body changed => exact Program.setBody_noLarger changed
  | discards => constructor <;> exact Nat.le_refl _
  | region region => exact .refl _
  | log log => exact .refl _
  | bind above known bound => exact .refl _
  | scope scope same native => exact .refl _

theorem Path.noLarger (h : Path layer s t) : s.program.NoLarger t.program := by
  induction h with
  | refl => exact .refl _
  | tail _ step ih => exact ih.trans step.noLarger

theorem Path.fits (h : Path layer s t) (fits : t.program.Fits) : s.program.Fits :=
  fits.of_noLarger h.noLarger

theorem Halts.fits (h : Halts layer s t) (fits : t.program.Fits) : s.program.Fits := by
  obtain ⟨u, path, rfl | ⟨var, rfl⟩⟩ := h
  · exact path.fits fits
  · exact path.fits (fits.of_noLarger (by constructor <;> simp))

theorem Runs.noLarger {α : Type} {m : Lower α} {a : α} (run : Runs m s a t) (steps : Stepwise .statement m) :
    s.program.NoLarger t.program :=
  (steps.path run).noLarger

theorem Runs.fits_before {α : Type} {m : Lower α} {a : α} (run : Runs m s a t)
    (steps : Stepwise .statement m) (fits : t.program.Fits) : s.program.Fits :=
  fits.of_noLarger (run.noLarger steps)

/-- Where the program of a body fits, so did those of its stages. -/
theorem lowerBody_fitting {source : Source.Program} {signature : Signature} {f : FuncId} {a : Unit}
    (run : Runs (lowerBody source signature f) s a t) (fits : t.program.Fits) :
    ∃ v w q log, (Heads source signature f s v ∧ v.program.Fits) ∧
      (Runs (lowerStmts source signature.body) { v with region := {} } () w ∧ w.program.Fits) ∧
      w.program.modifyBody f (fun b => { b with nodes := w.region.toList }) = .ok q ∧
      t = { program := q, scope := w.scope.leaveFunction, region := v.region, log } := by
  obtain ⟨v, w, q, log, head, stmts, changed, rfl⟩ := lowerBody_ok run
  have small : w.program.Fits := fits.of_noLarger (Program.modifyBody_noLarger changed)
  exact ⟨v, w, q, log, ⟨head, ((stepwise_lowerStmts ..).path stmts).fits small⟩, ⟨stmts, small⟩, changed, rfl⟩

/-! ### Entries -/

theorem Step.keeps (h : Step layer s t) : Program.Keeps (fun _ => False) s.program t.program := by
  cases h with
  | effect op => exact ⟨getElem?_push_of_some, id, id, False.elim⟩
  | value op width bitSize => exact ⟨getElem?_push_of_some, getElem?_push_of_some, id, False.elim⟩
  | newVariable stored here added =>
    obtain ⟨_, vars, instrs, values, -⟩ := Program.addVariable_vars added
    exact ⟨by rw [instrs]; exact id, by rw [values]; exact id, by rw [vars]; exact getElem?_push_of_some, False.elim⟩
  | body changed =>
    obtain ⟨_, -, rfl⟩ := Program.setBody_ok changed
    exact ⟨id, id, id, False.elim⟩
  | root var type | append appended | discards | region region | log log | bind above known bound
  | newFunction name | scope scope same native => exact ⟨id, id, id, False.elim⟩

theorem Path.keeps (h : Path layer s t) : Program.Keeps (fun _ => False) s.program t.program := by
  induction h with
  | refl => exact .refl
  | tail _ step ih => exact ih.trans step.keeps fun _ => id

/-! ### Bindings -/

/-- Every variable in scope exists. -/
def State.Bound (s : State) : Prop :=
  ∀ ⦃i : Nat⦄ ⦃v : Target.VarId⦄, s.scope.vars[i]? = some (some v) →
    v.index.toNat < s.program.vars.size

theorem initial_bound (source : Source.Program) (capabilities : Capabilities) :
    (State.initial source capabilities).Bound := by
  intro i v bound
  simp only [State.initial, Scope.new, Array.getElem?_replicate] at bound
  split at bound <;> simp at bound

theorem Step.bound (h : Step layer s t) (bound : s.Bound) : t.Bound := by
  have grown := h.noLarger.vars
  cases h with
  | @bind _ _ _ id var above known named =>
    obtain ⟨inside, rfl⟩ := bindVariable_ok named
    intro i v found
    simp only [Array.getElem?_setIfInBounds, inside, if_true] at found
    split at found
    · obtain rfl := Option.some.inj (Option.some.inj found)
      exact known
    · exact bound found
  | scope scope same native =>
    intro i v found
    rw [same] at found
    exact bound found
  | effect op | value op width bitSize | root var type | append appended | newVariable stored here added
  | newFunction name | body changed | discards | region region | log log =>
    intro i v found
    exact Nat.lt_of_lt_of_le (bound found) grown

theorem Path.bound (h : Path layer s t) (bound : s.Bound) : t.Bound := by
  induction h with
  | refl => exact bound
  | tail _ step ih => exact step.bound ih

/-! ### Scope and functions -/

theorem Step.scope_eq (h : Step .value s t) : t.scope = s.scope := by
  cases h with
  | bind above known bound => exact absurd rfl above
  | effect op | value op width bitSize | root var type | append appended | newVariable stored here added
  | discards | region region | log log => rfl

theorem Path.scope_eq (h : Path .value s t) : t.scope = s.scope := by
  induction h with
  | refl => rfl
  | tail _ step ih => rw [step.scope_eq, ih]

theorem Step.scope_frame (h : Step .statement s t) :
    t.scope = { s.scope with vars := t.scope.vars } := by
  cases h with
  | bind above known bound =>
    obtain ⟨-, rfl⟩ := bindVariable_ok bound
    rfl
  | effect op | value op width bitSize | root var type | append appended | newVariable stored here added
  | discards | region region | log log => rfl

theorem Path.scope_frame (h : Path .statement s t) :
    t.scope = { s.scope with vars := t.scope.vars } := by
  induction h with
  | refl => rfl
  | tail _ step ih => rw [step.scope_frame, ih]

theorem Step.gains (h : Step .statement s t) : s.program.Gains s.scope.current t.program := by
  cases h with
  | newVariable stored here added => exact here (by simp) ▸ .of_addVariable added
  | effect op | value op width bitSize | root var type | append appended | discards
  | region region | log log | bind above known bound => exact .of_same rfl

theorem Path.gains (h : Path .statement s t) : s.program.Gains s.scope.current t.program := by
  induction h with
  | refl => exact .of_same rfl
  | @tail u _ path step ih =>
    have same : u.scope.current = s.scope.current := by rw [Path.scope_frame path]
    exact ih.trans (same ▸ step.gains)

/-- Below the top level, functions only gain local variables. -/
theorem Path.outline (h : Path layer s t) (below : layer ≠ .program) :
    t.program.functions.map Function.outline = s.program.functions.map Function.outline := by
  cases layer with
  | value => exact h.of_value.gains.outline
  | statement => exact h.gains.outline
  | program => exact absurd rfl below

theorem Path.code?_eq (h : Path layer s t) (below : layer ≠ .program) : t.program.code? = s.program.code? :=
  Program.code?_eq_of_outline (h.outline below)

theorem Path.names_eq (h : Path layer s t) (below : layer ≠ .program) :
    t.program.functions.map Function.name = s.program.functions.map Function.name := by
  have same := congrArg (Array.map Function.name) (h.outline below)
  rw [Array.map_map, Array.map_map] at same
  exact same

/-! ### Limits, counters and globals -/

/-- What lowering never takes back: the limit, the counters, the size of the scope and what is bound. -/
structure State.Steady (s t : State) : Prop where
  limit : t.program.instrLimit = s.program.instrLimit
  info : t.program.info = { s.program.info with usesDiscard := t.program.info.usesDiscard }
  room : t.scope.vars.size = s.scope.vars.size
  native : t.scope.nativeIntegers = s.scope.nativeIntegers
  known : ∀ {i : Nat} {v}, s.scope.vars[i]? = some (some v) → ∃ w, t.scope.vars[i]? = some (some w)

theorem Step.steady (h : Step layer s t) : s.Steady t := by
  cases h with
  | newVariable stored here added =>
    obtain ⟨-, ⟨f, g, b, -, -, -, -, rfl⟩ | ⟨f, -, -, rfl⟩ | ⟨-, rfl⟩⟩ :=
      Program.addVariable_ok added
    all_goals exact ⟨rfl, rfl, rfl, rfl, fun found => ⟨_, found⟩⟩
  | body changed =>
    obtain ⟨_, -, rfl⟩ := Program.setBody_ok changed
    exact ⟨rfl, rfl, rfl, rfl, fun found => ⟨_, found⟩⟩
  | bind above known named =>
    obtain ⟨inside, rfl⟩ := bindVariable_ok named
    refine ⟨rfl, rfl, Array.size_setIfInBounds, rfl, fun {i v} found => ?_⟩
    simp only [Array.getElem?_setIfInBounds, inside, if_true]
    split
    · exact ⟨_, rfl⟩
    · exact ⟨v, found⟩
  | scope scope same native => exact ⟨rfl, rfl, by rw [same], native, fun found => ⟨_, by rw [same, found]⟩⟩
  | effect op | value op width bitSize | root var type | append appended | discards
  | region region | log log | newFunction name => exact ⟨rfl, rfl, rfl, rfl, fun found => ⟨_, found⟩⟩

theorem Path.steady (h : Path layer s t) : s.Steady t := by
  induction h with
  | refl => exact ⟨rfl, rfl, rfl, rfl, fun found => ⟨_, found⟩⟩
  | tail _ step ih =>
    have next := step.steady
    refine ⟨next.limit.trans ih.limit, ?_, next.room.trans ih.room, next.native.trans ih.native, ?_⟩
    · rw [next.info, ih.info]
    · intro i v found
      obtain ⟨w, between⟩ := ih.known found
      exact next.known between

theorem Step.globals_eq (h : Step .value s t) : t.program.globals = s.program.globals := by
  cases h with
  | newVariable stored here added =>
    have globals := Program.addVariable_globals added
    rwa [stored rfl] at globals
  | bind above known bound => exact absurd rfl above
  | effect op | value op width bitSize | root var type | append appended | discards
  | region region | log log => rfl

theorem Path.globals_eq (h : Path .value s t) : t.program.globals = s.program.globals := by
  induction h with
  | refl => rfl
  | tail _ step ih => rw [step.globals_eq, ih]

end Lowering

end ShaderSSA
