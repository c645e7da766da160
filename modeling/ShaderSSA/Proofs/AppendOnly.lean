import ShaderSSA.Proofs.Invariants

/-!
Lowering is append-only. Whether it succeeds or fails, a statement, a call or a value leaves what there was as it was:
what is added to an arena or to the nodes stands behind it, and of the functions only the one that is being lowered
changes, by local variables at the end of its list.
-/

namespace ShaderSSA.Lowering
open Source Target Lower

variable {α : Type} {layer : Layer} {s t : State}

/-- What there is in `s` is still there in `t`, at its place. Of links this is said while each has a handle of its
own. -/
structure State.AppendOnly (s t : State) : Prop where
  instrs : s.program.instrs.toList <+: t.program.instrs.toList
  values : s.program.values.toList <+: t.program.values.toList
  vars : s.program.vars.toList <+: t.program.vars.toList
  links : t.program.links.size ≤ UInt32.size → s.program.links.toList <+: t.program.links.toList
  nodes : s.region.toList <+: t.region.toList
  functions : s.program.Gains s.scope.current t.program
  callees : t.scope.functions = s.scope.functions
  native : t.scope.nativeIntegers = s.scope.nativeIntegers
  current : t.scope.current = s.scope.current

theorem appends_inRegion {m : Lower Unit} (h : Appends m) : Appends (inRegion m) := by
  intro s
  have inner := (h { s with region := {} }).links
  rw [outcome_inRegion]
  rcases result : outcome m { s with region := {} } with ⟨e | _, u⟩ <;>
    exact ⟨List.prefix_refl _, by rwa [result] at inner⟩

theorem appends_declare (source : Source.Program) (id : Source.VarId) : Appends (declare source id) := by
  unfold declare
  repeat' first
    | with_reducible refine appends_bind ?_ fun _ => ?_
    | exact appends_check _
    | exact appends_addVariable _ _
    | exact appends_of_same fun _ => ⟨rfl, rfl⟩

theorem Composes.appends {m : Lower α} (h : Composes false layer m) : Appends m := by
  induction h with
  | evaluates h => exact h.appends
  | read _ _ ih => exact appends_read ih
  | @select _ _ e _ _ ih =>
    cases e with
    | error f => exact appends_check (.error f)
    | ok a => exact ih a rfl
  | bind _ _ first rest => exact appends_bind first rest
  | effect _ => exact appends_emitEffect _
  | value _ width bitSize => exact appends_emitValue _ width bitSize
  | discard _ => exact appends_bind (appends_emitEffect _) fun _ => appends_of_same fun _ => ⟨rfl, rfl⟩
  | inRegion _ ih => exact appends_inRegion ih
  | attach grows => exact fun s => ⟨grows s.region, fun _ => List.prefix_refl _⟩
  | declare _ source id => exact appends_declare source id

theorem prefix_of_getElem? {xs ys : Array α} (kept : ∀ {i : Nat} {x : α}, xs[i]? = some x → ys[i]? = some x) :
    xs.toList <+: ys.toList :=
  List.prefix_iff_getElem?.mpr fun i below => by simpa using kept (Array.getElem?_eq_getElem below)

theorem State.Lengthens.appendOnly (h : s.Lengthens t) (halts : Halts .statement s t) : s.AppendOnly t := by
  obtain ⟨region, links⟩ := h
  obtain ⟨u, path, rfl | ⟨var, rfl⟩⟩ := halts
  all_goals
    have kept := path.keeps
    have frame := path.scope_frame
    refine ⟨prefix_of_getElem? kept.instrs, prefix_of_getElem? kept.values, ?_, links, region, path.gains,
      by rw [frame], by rw [frame], by rw [frame]⟩
  · exact prefix_of_getElem? kept.vars
  · exact (prefix_of_getElem? kept.vars).trans (by simp)

theorem Composes.appendOnly {m : Lower α} (h : Composes false .statement m) (s : State) :
    s.AppendOnly (outcome m s).2 := by
  refine (h.appends s).appendOnly ?_
  rcases result : outcome m s with ⟨e | a, t⟩
  · exact h.stepwise.failed ⟨e, result⟩
  · exact (h.stepwise.path result).halts

/-- Statements, bodies, values, places, texture operations and calls only append to the state they start from. -/
theorem lowering_appendOnly (source : Source.Program) (s : State) :
    (∀ stmt, s.AppendOnly (outcome (lowerStmt source stmt) s).2) ∧
    (∀ body, s.AppendOnly (outcome (lowerStmts source body) s).2) ∧
    (∀ value, s.AppendOnly (outcome (evaluate source value) s).2) ∧
    (∀ place, s.AppendOnly (outcome (placeChain source place) s).2) ∧
    (∀ texture, s.AppendOnly (outcome (evaluateTexture source texture) s).2) ∧
    ∀ call, s.AppendOnly (outcome (lowerCall source call) s).2 :=
  ⟨fun stmt => (composes_lowerStmt false source stmt).appendOnly s,
    fun body => (composes_lowerStmts false source body).appendOnly s,
    fun value => (Composes.evaluates (evaluates_evaluate source value)).appendOnly s,
    fun place => (Composes.evaluates (evaluates_placeChain source place)).appendOnly s,
    fun texture => (Composes.evaluates (evaluates_evaluateTexture source texture)).appendOnly s,
    fun call => (composes_lowerCall source call).appendOnly s⟩

end ShaderSSA.Lowering
