import ShaderSSA.Proofs.Programs

/-!
Variables in scope and their declarations. What every declaration makes true of its variable stays true of
all variables in scope, through statements, parameters and return variables.
-/

namespace ShaderSSA.Lowering
open Source Target Lower

variable {source : Source.Program} {s u t : State} {P : VarDecl → Variable → Prop} {f : FuncId} {signature : Signature}
  {type : ShaderType}

/-- Every variable in scope is related to its declaration by `P`. -/
def State.Binds (source : Source.Program) (P : VarDecl → Variable → Prop) (s : State) : Prop :=
  ∀ ⦃id : Source.VarId⦄ ⦃v⦄, s.scope.vars[id.index.toNat]? = some (some v) → ∃ decl x,
    source.var? id = some decl ∧ s.program.var? v = some x ∧ P decl x

namespace State.Binds

theorem along (h : s.Binds source P) {layer : Layer} (path : Path layer s t)
    (scope : t.scope.vars = s.scope.vars) : t.Binds source P := by
  intro id v found
  rw [scope] at found
  obtain ⟨decl, x, declared, there, related⟩ := h found
  exact ⟨decl, x, declared, path.keeps.vars there, related⟩

theorem step (h : s.Binds source P) {α : Type} {m : Lower α} {a : α} (run : Runs m s a t)
    (plain : Stepwise .value m) : t.Binds source P := by
  have path := plain.path run
  exact h.along path (by rw [path.scope_eq])

variable (made : ∀ {decl x owner}, StandsFor x decl owner → P decl x)
include made

theorem declare (h : s.Binds source P) {id : Source.VarId} {v : Target.VarId}
    (run : Runs (declare source id) s v t) (fits : t.program.Fits) : t.Binds source P := by
  have path : Path .statement s t := (stepwise_declare source id).path run
  obtain ⟨decl, x, declared, there, stands⟩ := declare_stands run fits
  obtain ⟨-, -, p, scope, log, -, -, -, named, rfl⟩ := declare_ok run
  obtain ⟨within, rfl⟩ := bindVariable_ok named
  intro other w found
  simp only [Array.getElem?_setIfInBounds, within, if_true] at found
  split at found
  · rename_i same
    obtain rfl := Option.some.inj (Option.some.inj found)
    exact ⟨decl, x, by rwa [Source.Program.var?, ← same], there, made stands⟩
  · obtain ⟨decl, x, declared, there, related⟩ := h found
    exact ⟨decl, x, declared, path.keeps.vars there, related⟩

theorem declareParams (h : s.Binds source P) {ids : List Source.VarId}
    (run : Runs (declareParams source signature f ids) s () t) (fits : t.program.Fits) : t.Binds source P := by
  induction ids generalizing s with
  | nil =>
    obtain ⟨-, rfl⟩ := runs_pure.mp run
    exact h
  | cons id ids ih =>
    obtain ⟨v, u, -, w, declared, -, -, changed, rest⟩ := declareParams_cons run
    have later := ((stepwise_declareParams source signature f ids).path rest).fits fits
    have path := (stepwise_modifyBody f _).path changed
    obtain ⟨p, -, rfl⟩ := modifyBody_ok changed
    exact ih ((h.declare made declared (path.fits later)).along path rfl) rest

omit made in
theorem declareReturn (h : s.Binds source P) (run : Runs (declareReturn f type) s () t) : t.Binds source P :=
  h.along ((stepwise_declareReturn f type).path run) (by rw [declareReturn_scope run])

theorem head (h : s.Binds source P) (head : Heads source signature f s t) (fits : t.program.Fits) :
    t.Binds source P := by
  obtain ⟨p, u, emptied, params, returned⟩ := head
  have entered : State.Binds source P { s with program := p, scope := { s.scope with current := some f } } := by
    obtain ⟨g, -, rfl⟩ := Program.setBody_ok emptied
    exact h
  exact (entered.declareParams made params
    (((stepwise_declareReturn f signature.returnType).path returned).fits fits)).declareReturn returned

end State.Binds

end ShaderSSA.Lowering
