import ShaderSSA.Proofs.Resources

/-!
What the statements of a body keep. A property of variables and functions that adding a variable of the current
function keeps is kept by values, and by statements that declare no more than it allows.
-/

namespace ShaderSSA.Lowering
open Source Target Lower

/-- The statements of a body keep the property: it is about variables, globals and functions, variables of the given
storage classes can be added for the current function, and the given source variables can be bound. -/
structure Upkeep (current : Option FuncId) (stores : StorageClass → Prop) (binds : Source.VarId → Prop)
    (I : Target.Program → Scope → Prop) : Prop where
  frame : ∀ {p q c}, I p c → q.vars = p.vars → q.globals = p.globals → q.functions = p.functions → I q c
  temporary : stores .functionLocal
  add : ∀ {p q c x v}, I p c → stores x.storage → p.addVariable x current = (.ok v, q) → I q c
  bind : ∀ {p c d id v}, I p c → binds id → c.bindVariable id v = .ok d → I p d

namespace Upkeep
variable {current : Option FuncId} {stores : StorageClass → Prop} {binds : Source.VarId → Prop}
  {I : Target.Program → Scope → Prop} {s t : State}

theorem step (keeps : Upkeep current stores binds I) (step : Step .value s t) (inside : s.scope.current = current)
    (holds : I s.program s.scope) : I t.program t.scope := by
  cases step with
  | newVariable stored here added =>
    rw [here (by simp), inside] at added
    exact keeps.add holds (stored rfl ▸ keeps.temporary) added
  | bind above known bound => exact absurd rfl above
  | effect op | value op width bitSize | root var type | append appended | discards =>
    exact keeps.frame holds rfl rfl rfl
  | region region | log log => exact holds

theorem along (keeps : Upkeep current stores binds I) (path : Path .value s t) (inside : s.scope.current = current)
    (holds : I s.program s.scope) : I t.program t.scope := by
  induction path with
  | refl => exact holds
  | tail before step ih =>
    rw [← Path.scope_eq before] at inside
    exact keeps.step step inside ih

theorem lowerStmts (keeps : Upkeep current stores binds I) {source : Source.Program} {stmts : List Stmt}
    (declares : ∀ id ∈ stmtsDeclared stmts,
      binds id ∧ ∀ decl, source.var? id = some decl → stores (storageOf decl current))
    (run : Runs (lowerStmts source stmts) s () t) (inside : s.scope.current = current) (holds : I s.program s.scope) :
    I t.program t.scope := by
  have collects : Collects source fun done s =>
      (∀ id ∈ done, binds id ∧ ∀ decl, source.var? id = some decl → stores (storageOf decl current)) →
        s.scope.current = current ∧ I s.program s.scope := by
    refine ⟨fun path before declares => ?_, fun before run declares => ?_⟩
    · obtain ⟨inside, holds⟩ := before declares
      exact ⟨by rwa [path.scope_eq], keeps.along path inside holds⟩
    · obtain ⟨inside, holds⟩ := before fun id member => declares id (List.mem_append_left _ member)
      obtain ⟨allowed, stored⟩ := declares _ (List.mem_append_right _ List.mem_cons_self)
      obtain ⟨decl, x, p, scope, log, found, stands, added, bound, rfl⟩ := declare_ok run
      rw [inside] at added stands
      have made := keeps.add holds (stands.storage ▸ stored decl found) added
      refine ⟨?_, keeps.bind made allowed bound⟩
      obtain ⟨-, rfl⟩ := bindVariable_ok bound
      exact inside
  exact (collects.declared (fun _ => ⟨inside, holds⟩) run declares).2

end Upkeep

end ShaderSSA.Lowering
