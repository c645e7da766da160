import ShaderSSA.Proofs.Growth
import ShaderSSA.Proofs.Results
import ShaderSSA.Target.Build
import ShaderSSA.Target.Chain

/-!
What the updates of a program do: setting and changing the body of a function, adding a variable, and attaching a link.
-/

namespace ShaderSSA

namespace Target.Program

variable {change : Body → Body} {id : FuncId} {owner : Option FuncId} {p q : Program} {var : Variable}
  {body : Option Body} {e : Fault}

theorem getFunction_ok {f : Function} : p.getFunction id = .ok f ↔ p.functions[id.index.toNat]? = some f := by
  rw [getFunction, function?]
  cases p.functions[id.index.toNat]? <;> simp

theorem setBody_ok (h : p.setBody id body = .ok q) :
    ∃ f, p.functions[id.index.toNat]? = some f ∧
      q = { p with functions := p.functions.setIfInBounds id.index.toNat { f with body } } := by
  obtain ⟨f, found, last⟩ := bind_eq_ok.mp h
  exact ⟨f, getFunction_ok.mp found, (pure_eq_ok.mp last).symm⟩

theorem getBody_ok {b : Body} (h : p.getBody id = .ok b) :
    ∃ f, p.functions[id.index.toNat]? = some f ∧ f.body = some b := by
  obtain ⟨f, found, h⟩ := bind_eq_ok.mp h
  refine ⟨f, getFunction_ok.mp found, ?_⟩
  split at h
  · rename_i body
    rw [body, pure_eq_ok.mp h]
  · cases h

theorem modifyBody_setBody (h : p.modifyBody id change = .ok q) :
    ∃ b, p.getBody id = .ok b ∧ p.setBody id (some (change b)) = .ok q := bind_eq_ok.mp h

theorem modifyBody_ok (h : p.modifyBody id change = .ok q) :
    ∃ f b, p.functions[id.index.toNat]? = some f ∧ f.body = some b ∧
      q = { p with functions :=
        p.functions.setIfInBounds id.index.toNat { f with body := some (change b) } } := by
  obtain ⟨b, read, written⟩ := modifyBody_setBody h
  obtain ⟨f, found, body⟩ := getBody_ok read
  obtain ⟨g, again, rfl⟩ := setBody_ok written
  obtain rfl : f = g := Option.some.inj (found.symm.trans again)
  exact ⟨f, b, found, body, rfl⟩

theorem setBody_instrs (h : p.setBody id body = .ok q) : q.instrs = p.instrs := by
  obtain ⟨_, -, rfl⟩ := setBody_ok h
  rfl

theorem modifyBody_instrs (h : p.modifyBody id change = .ok q) : q.instrs = p.instrs := by
  obtain ⟨_, -, written⟩ := modifyBody_setBody h
  exact setBody_instrs written

theorem modifyBody_error (h : p.modifyBody id change = .error e) : p.getBody id = .error e := by
  rcases bind_eq_error h with failed | ⟨b, read, failed⟩
  · exact failed
  · obtain ⟨f, found, -⟩ := getBody_ok read
    simp [setBody, getFunction_ok.mpr found] at failed

theorem setBody_noLarger (h : p.setBody id body = .ok q) : p.NoLarger q := by
  obtain ⟨f, -, rfl⟩ := setBody_ok h
  constructor <;> simp

theorem modifyBody_noLarger (h : p.modifyBody id change = .ok q) : p.NoLarger q := by
  obtain ⟨b, -, written⟩ := modifyBody_setBody h
  exact setBody_noLarger written

/-- What adding a variable does: a local one is listed by its owner, a parameter is only recorded,
any other one is listed among the globals. -/
theorem addVariable_ok {id : VarId} (h : p.addVariable var owner = (.ok id, q)) :
    id = ⟨UInt32.ofNat p.vars.size⟩ ∧
      ((∃ f g b, var.storage = .functionLocal ∧ owner = some f ∧
          p.functions[f.index.toNat]? = some g ∧ g.body = some b ∧
          q = { p with
            vars := p.vars.push { var with owner := some f }
            functions := p.functions.setIfInBounds f.index.toNat
              { g with body := some { b with locals := b.locals.push id } } }) ∨
       (∃ f, var.storage = .param ∧ owner = some f ∧
          q = { p with vars := p.vars.push { var with owner := some f } }) ∨
       (var.storage.isFunctionOwned = false ∧
          q = { p with vars := p.vars.push { var with owner := none },
                       globals := p.globals.push id })) := by
  simp only [addVariable] at h
  split at h
  · rename_i owned
    split at h
    · simp at h
    · rename_i f
      split at h
      · rename_i isLocal
        split at h
        · rename_i changed
          simp only [Prod.mk.injEq, Except.ok.injEq] at h
          obtain ⟨rfl, rfl⟩ := h
          obtain ⟨g, b, found, body, rfl⟩ := modifyBody_ok changed
          exact ⟨rfl, .inl ⟨f, g, b, isLocal, rfl, found, body, rfl⟩⟩
        · simp at h
      · rename_i notLocal
        simp only [Prod.mk.injEq, Except.ok.injEq] at h
        obtain ⟨rfl, rfl⟩ := h
        have param : var.storage = .param := by
          cases storage : var.storage <;> simp_all [StorageClass.isFunctionOwned]
        exact ⟨rfl, .inr (.inl ⟨f, param, rfl, rfl⟩)⟩
  · rename_i free
    simp only [Prod.mk.injEq, Except.ok.injEq] at h
    obtain ⟨rfl, rfl⟩ := h
    exact ⟨rfl, .inr (.inr ⟨by simpa using free, rfl⟩)⟩

theorem addVariable_vars {id : VarId} (h : p.addVariable var owner = (.ok id, q)) :
    ∃ owner, q.vars = p.vars.push { var with owner } ∧ q.instrs = p.instrs ∧ q.values = p.values ∧
      q.links = p.links := by
  obtain ⟨-, ⟨f, g, b, -, -, -, -, rfl⟩ | ⟨f, -, -, rfl⟩ | ⟨-, rfl⟩⟩ := addVariable_ok h
  all_goals exact ⟨_, rfl, rfl, rfl, rfl⟩

theorem addVariable_found {id : VarId} (h : p.addVariable var owner = (.ok id, q)) (small : q.vars.size < UInt32.size) :
    ∃ owner, q.var? id = some { var with owner } := by
  obtain ⟨owner, vars, -⟩ := addVariable_vars h
  obtain ⟨rfl, -⟩ := addVariable_ok h
  rw [vars, Array.size_push] at small
  refine ⟨owner, ?_⟩
  rw [var?, vars, UInt32.toNat_ofNat_of_lt' (Nat.lt_of_succ_lt small), Array.getElem?_push_size]

theorem addVariable_globals {id : VarId} (h : p.addVariable var owner = (.ok id, q)) :
    q.globals = if var.storage.isFunctionOwned then p.globals else p.globals.push id := by
  obtain ⟨-, ⟨f, g, b, storage, -, -, -, rfl⟩ | ⟨f, storage, -, rfl⟩ | ⟨free, rfl⟩⟩ := addVariable_ok h
  · rw [storage]
    rfl
  · rw [storage]
    rfl
  · rw [free]
    rfl

/-- A variable without an owner is not added; one whose owner has no body is added but not listed. -/
theorem addVariable_error (h : p.addVariable var owner = (.error e, q)) :
    q = p ∧ var.storage.isFunctionOwned = true ∧ owner = none ∨
      ∃ f, var.storage = .functionLocal ∧ owner = some f ∧ (∃ e, p.getBody f = .error e) ∧
        q = { p with vars := p.vars.push { var with owner := some f } } := by
  simp only [addVariable] at h
  split at h
  · rename_i owned
    split at h
    · simp only [Prod.mk.injEq] at h
      exact .inl ⟨h.2.symm, owned, rfl⟩
    · rename_i f
      split at h
      · rename_i isLocal
        split at h
        · simp at h
        · rename_i failed
          simp only [Prod.mk.injEq] at h
          have missing := modifyBody_error failed
          exact .inr ⟨f, isLocal, rfl, ⟨_, missing⟩, h.2.symm⟩
      · simp at h
  · simp at h

/-- Adding a variable leaves instructions and links alone, whether it is listed or not. -/
theorem addVariable_frame (p : Program) (var : Variable) (owner : Option FuncId) :
    (p.addVariable var owner).2.instrs = p.instrs ∧ (p.addVariable var owner).2.links = p.links := by
  rcases added : p.addVariable var owner with ⟨e | id, q⟩
  · obtain ⟨rfl, -⟩ | ⟨f, -, -, -, rfl⟩ := addVariable_error added
    all_goals exact ⟨rfl, rfl⟩
  · obtain ⟨_, -, instrs, -, links⟩ := addVariable_vars added
    exact ⟨instrs, links⟩

end Target.Program

theorem Target.Links.get_ok {links : Target.Links} {id : Target.LinkId} {l : Target.Link} :
    links.get id = .ok l ↔ links[id.index.toNat]? = some l := by
  rw [get]
  cases links[id.index.toNat]? <;> simp

namespace Lowering
open Target

theorem append_ok {links links' : Links} {c d : Chain} {kind : LinkKind} {type : ShaderType}
    (h : links.append c kind type = .ok (d, links')) :
    ∃ parent, links[c.tail.index.toNat]? = some parent ∧
      Links.narrowed? kind parent.type = .ok (some type) ∧ d = ⟨c.head, links.nextId⟩ ∧
      links' = (links.push ⟨kind, type, none⟩).modify c.tail.index.toNat
        fun l => { l with child := some links.nextId } := by
  simp only [Links.append, bind_eq_ok] at h
  obtain ⟨parent, found, expected, narrowed, h⟩ := h
  split at h
  · cases h
  · rename_i same
    simp only [pure_def, Except.ok.injEq, Prod.mk.injEq] at h
    exact ⟨parent, Links.get_ok.mp found, by simpa [narrowed] using same, h.1.symm, h.2.symm⟩

end Lowering

end ShaderSSA
