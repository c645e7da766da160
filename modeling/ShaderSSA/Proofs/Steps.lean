import Mathlib.Logic.Relation
import ShaderSSA.Proofs.Evaluators
import ShaderSSA.Proofs.Inversion

/-!
What lowering may do to the state. Every function of lowering is a path of the steps listed in `Step`, so
a property that each step keeps is kept by all of them.
-/

namespace ShaderSSA

namespace Lowering
open Source Target Lower

variable {capabilities : Capabilities} {f : FuncId} {signature : Signature} {source : Source.Program}
  {change : Body → Body} {p : Target.Program} {t : State} {a : Unit}

/-- What a single step of lowering may do. -/
inductive Step : Layer → State → State → Prop where
  | effect {layer s} (op : Operation) : Step layer s (s.withEffect op)
  | value {layer s} (op : Operation) (width bitSize : UInt8) :
      Step layer s (s.withValue op width bitSize)
  | root {layer s} (var : Target.VarId) (type : ShaderType) :
      Step layer s { s with program := { s.program with
        links := s.program.links.push ⟨.var var, type, none⟩ } }
  | append {layer s c d kind type links} (appended : s.program.links.append c kind type = .ok (d, links)) :
      Step layer s { s with program := { s.program with links } }
  | newVariable {layer s var owner id p} (stored : layer = .value → var.storage = .functionLocal)
      (here : layer ≠ .program → owner = s.scope.current) (added : s.program.addVariable var owner = (.ok id, p)) :
      Step layer s { s with program := p }
  | discards {layer s} : Step layer s { s with program := { s.program with
        info := { s.program.info with usesDiscard := true } } }
  | region {layer s} (region : Region) : Step layer s { s with region }
  | log {layer s} (log : Array Event) : Step layer s { s with log }
  | bind {layer s scope} {id : Source.VarId} {var : Target.VarId} (above : layer ≠ .value)
      (known : var.index.toNat < s.program.vars.size)
      (bound : s.scope.bindVariable id var = .ok scope) : Step layer s { s with scope }
  | newFunction {s} (name : String) : Step .program s { s with program := (s.program.addFunction name).2 }
  | body {s id p} {body : Option Body} (changed : s.program.setBody id body = .ok p) :
      Step .program s { s with program := p }
  | scope {s} (scope : Scope) (same : scope.vars = s.scope.vars)
      (native : scope.nativeIntegers = s.scope.nativeIntegers) : Step .program s { s with scope }

/-- Any number of steps. -/
abbrev Path (layer : Layer) : State → State → Prop := Relation.ReflTransGen (Step layer)

/-- How a run may fail: at the end of a path, or behind it with a variable that no function lists. -/
def Halts (layer : Layer) (s t : State) : Prop :=
  ∃ u, Path layer s u ∧ (t = u ∨ ∃ var, t = { u with program := { u.program with vars := u.program.vars.push var } })

theorem Path.halts {layer : Layer} {s : State} (path : Path layer s t) : Halts layer s t := ⟨t, path, .inl rfl⟩

namespace Halts
variable {layer : Layer} {s u t : State}

theorem after (path : Path layer s u) (halts : Halts layer u t) : Halts layer s t :=
  halts.imp fun _ h => ⟨path.trans h.1, h.2⟩

theorem region (halts : Halts layer s t) (region : Region) : Halts layer s { t with region } := by
  obtain ⟨u, path, rfl | ⟨var, rfl⟩⟩ := halts
  · exact Path.halts (path.tail (.region region))
  · exact ⟨_, path.tail (.region region), .inr ⟨var, rfl⟩⟩

end Halts

/-- Every run of `m` is a path, also where it fails. Below the top level, where bodies are given their
sites, `m` keeps in lockstep under a cap. -/
structure Stepwise (layer : Layer) {α : Type} (m : Lower α) : Prop where
  path : ∀ {s a t}, Runs m s a t → Path layer s t
  failed : ∀ {s t}, Fails m s t → Halts layer s t
  lockstep : layer ≠ .program → Lockstep none m

section
variable {layer : Layer} {α β : Type} {id : Source.VarId} {owner : Option FuncId} {s t : State} {var : Variable}
  {m : Lower α}

/-- Values make the steps of any layer, and any layer those of the top level. -/
theorem Step.mono {other : Layer} (above : layer = .value ∨ other = .program) (h : Step layer s t) :
    Step other s t := by
  cases h with
  | effect op => exact .effect op
  | value op width bitSize => exact .value op width bitSize
  | root var type => exact .root var type
  | append appended => exact .append appended
  | newVariable stored here added =>
    rcases above with rfl | rfl
    · exact .newVariable (fun _ => stored rfl) (fun _ => here (by simp)) added
    · exact .newVariable nofun (by simp) added
  | discards => exact .discards
  | region region => exact .region region
  | log log => exact .log log
  | bind higher known bound => exact .bind (by rintro rfl; simp_all) known bound
  | newFunction name => exact above.resolve_left nofun ▸ .newFunction name
  | body changed => exact above.resolve_left nofun ▸ .body changed
  | scope scope same native => exact above.resolve_left nofun ▸ .scope scope same native

theorem Path.mono {other : Layer} (above : layer = .value ∨ other = .program) (h : Path layer s t) : Path other s t :=
  Relation.ReflTransGen.mono (fun _ _ => Step.mono above) _ _ h

theorem Path.of_value (h : Path .value s t) : Path layer s t := Path.mono (.inl rfl) h

theorem Stepwise.lift (h : Stepwise layer m) : Stepwise .program m :=
  ⟨fun run => Path.mono (.inr rfl) (h.path run),
    fun run => (h.failed run).imp fun _ h => ⟨Path.mono (.inr rfl) h.1, h.2⟩, nofun⟩

theorem stepwise_of_same (h : ∀ s a t, Runs m s a t → t = s)
    (h' : ∀ s t, Fails m s t → t = s) (pace : Lockstep none m) : Stepwise layer m := by
  refine ⟨?_, ?_, fun _ => pace⟩
  · intro s a t run
    rw [h s a t run]
  · intro s t run
    rw [h' s t run]
    exact Path.halts .refl

theorem stepwise_of_step (h : ∀ s a t, Runs m s a t → Step layer s t)
    (h' : ∀ s t, Fails m s t → t = s) (pace : layer ≠ .program → Lockstep none m) : Stepwise layer m := by
  refine ⟨?_, ?_, pace⟩
  · intro s a t run
    exact .single (h s a t run)
  · intro s t run
    rw [h' s t run]
    exact Path.halts .refl

@[simp]
theorem stepwise_pure (x : α) : Stepwise layer (pure x) :=
  stepwise_of_same (by simp) (by simp) (lockstep_pure x)

@[simp]
theorem stepwise_abort (d : Defect) : Stepwise layer (abort d : Lower α) :=
  stepwise_of_same (by simp) (by simp) (lockstep_abort d)

@[simp]
theorem stepwise_check (e : Except Fault α) : Stepwise layer (check e) :=
  stepwise_of_same (by simp) (by simp) (lockstep_check e)

@[simp]
theorem stepwise_scope : Stepwise layer scope := stepwise_of_same (by simp) (by simp) lockstep_scope

@[simp]
theorem stepwise_nativeIntegers : Stepwise layer nativeIntegers :=
  stepwise_of_same (by simp) (by simp) lockstep_nativeIntegers

@[simp]
theorem stepwise_valueDef (v : ValueId) : Stepwise layer (valueDef v) :=
  stepwise_of_same (by simp) (by simp) (lockstep_valueDef v)

@[simp]
theorem stepwise_modifyRegion (f : Region → Region) : Stepwise layer (modifyRegion f) := by
  refine stepwise_of_step (fun s a t run => ?_) (by simp) fun _ => lockstep_modifyRegion f
  obtain rfl := runs_modifyRegion.mp run
  exact .region _

theorem stepwise_bind {x : Lower α} {f : α → Lower β} (hx : Stepwise layer x)
    (hf : ∀ a, Stepwise layer (f a)) : Stepwise layer (x >>= f) := by
  refine ⟨?_, ?_, fun below => lockstep_bind (hx.lockstep below) fun a => (hf a).lockstep below⟩
  · intro s b u run
    obtain ⟨a, t, first, next⟩ := runs_bind.mp run
    exact (hx.path first).trans ((hf a).path next)
  · intro s u run
    obtain first | ⟨a, t, first, next⟩ := fails_bind.mp run
    · exact hx.failed first
    · exact ((hf a).failed next).after (hx.path first)

theorem stepwise_read {f : Target.Program → Lower β} (blind : ∀ p limit, f (p.limited limit) = f p)
    (hf : ∀ p, Stepwise layer (f p)) : Stepwise layer (program >>= f) := by
  refine ⟨?_, ?_, fun below => lockstep_read blind fun p => (hf p).lockstep below⟩
  · intro s b t run
    simp only [runs_bind, runs_program] at run
    obtain ⟨_, _, ⟨rfl, rfl⟩, next⟩ := run
    exact (hf _).path next
  · intro s t run
    simp only [fails_bind, fails_program, false_or, runs_program] at run
    obtain ⟨_, _, ⟨rfl, rfl⟩, next⟩ := run
    exact (hf _).failed next

@[simp]
theorem stepwise_inRegion {m : Lower Unit} (h : Stepwise layer m) : Stepwise layer (inRegion m) := by
  refine ⟨?_, ?_, fun below => lockstep_inRegion (h.lockstep below)⟩
  · intro s r t run
    obtain ⟨u, inner, -, rfl⟩ := runs_inRegion.mp run
    exact ((Relation.ReflTransGen.single (.region _)).trans (h.path inner)).tail (.region _)
  · intro s t run
    obtain ⟨u, inner, rfl⟩ := fails_inRegion.mp run
    exact ((h.failed inner).after (.single (.region _))).region _

@[simp]
theorem stepwise_program : Stepwise .program program := by
  refine ⟨fun {s p t} run => ?_, by simp, nofun⟩
  obtain ⟨-, rfl⟩ := runs_program.mp run
  rfl

/-! ### Additions to the program -/

@[simp]
theorem stepwise_emitEffect (op : Operation) : Stepwise layer (emitEffect op) := by
  refine stepwise_of_step (fun s a t run => ?_) (fun s t run => (emitEffect_fails run).1)
    fun _ => lockstep_emitEffect op
  obtain rfl := emitEffect_ok run
  exact .effect op

@[simp]
theorem stepwise_emitValue (op : Operation) (width bitSize : UInt8) :
    Stepwise layer (emitValue op width bitSize) := by
  refine stepwise_of_step (fun s a t run => ?_) (fun s t run => (emitValue_fails run).1)
    fun _ => lockstep_emitValue op width bitSize
  obtain ⟨-, rfl, -⟩ := emitValue_ok run
  exact .value op width bitSize

@[simp]
theorem stepwise_rootChain (var : Target.VarId) (type : ShaderType) :
    Stepwise layer (rootChain var type) := by
  refine stepwise_of_step (fun s c t run => ?_) (by simp) fun _ => lockstep_rootChain var type
  obtain ⟨-, rfl⟩ := rootChain_ok run
  exact .root var type

@[simp]
theorem stepwise_appendLink (c : Chain) (kind : LinkKind) (type : ShaderType) :
    Stepwise layer (appendLink c kind type) := by
  refine stepwise_of_step (fun s d t run => ?_) (fun s t run => (appendLink_fails run).1)
    fun _ => lockstep_appendLink c kind type
  obtain ⟨links, appended, rfl⟩ := appendLink_ok run
  exact .append appended

theorem addVariable_ok {id : Target.VarId} (h : Runs (addVariable var owner) s id t) :
    ∃ p, s.program.addVariable var owner = (.ok id, p) ∧ t = { s with program := p } := by
  simp only [addVariable, runs_bind, runs_program, runs_setProgram, runs_check] at h
  obtain ⟨_, _, ⟨rfl, rfl⟩, _, _, rfl, added, rfl⟩ := h
  exact ⟨_, Prod.ext added rfl, rfl⟩

theorem addVariable_fails (h : Fails (addVariable var owner) s t) :
    ∃ f p, s.program.addVariable var owner = (.error f, p) ∧ t = { s with program := p } := by
  simp only [addVariable, fails_bind, fails_program, false_or, runs_program, fails_setProgram, runs_setProgram,
    fails_check] at h
  obtain ⟨_, _, ⟨rfl, rfl⟩, _, _, rfl, ⟨f, added⟩, rfl⟩ := h
  exact ⟨f, _, Prod.ext added rfl, rfl⟩

theorem addVariable_halts (h : Fails (addVariable var owner) s t) : Halts layer s t := by
  obtain ⟨f, p, added, rfl⟩ := addVariable_fails h
  obtain ⟨rfl, -⟩ | ⟨g, -, -, -, rfl⟩ := Program.addVariable_error added
  · exact Path.halts .refl
  · exact ⟨s, .refl, .inr ⟨_, rfl⟩⟩

@[simp]
theorem stepwise_addVariable (var : Variable) (owner : Option FuncId) : Stepwise .program (addVariable var owner) := by
  refine ⟨fun {s id t} run => ?_, addVariable_halts, fun _ => lockstep_addVariable var owner⟩
  obtain ⟨p, added, rfl⟩ := addVariable_ok run
  exact .single (.newVariable nofun (by simp) added)

theorem stepwise_temporary (stored : var.storage = .functionLocal) :
    Stepwise layer (scope >>= fun c => addVariable var c.current) := by
  refine ⟨fun {s id t} run => ?_, fun {s t} run => ?_, fun _ => lockstep_bind lockstep_scope fun c =>
    lockstep_addVariable var c.current⟩
  · simp only [runs_bind, runs_scope] at run
    obtain ⟨_, _, ⟨rfl, rfl⟩, run⟩ := run
    obtain ⟨p, added, rfl⟩ := addVariable_ok run
    exact .single (.newVariable (fun _ => stored) (fun _ => rfl) added)
  · simp only [fails_bind, fails_scope, false_or, runs_scope] at run
    obtain ⟨_, _, ⟨rfl, rfl⟩, failed⟩ := run
    exact addVariable_halts failed

/-! ### Values and places -/

@[simp]
theorem Evaluates.stepwise (h : Evaluates m) : Stepwise layer m := by
  induction h with
  | pure x => exact stepwise_pure x
  | check e => exact stepwise_check e
  | scope => exact stepwise_scope
  | read blind _ ih => exact stepwise_read blind ih
  | bind _ _ first rest => exact stepwise_bind first rest
  | value _ width bitSize => exact stepwise_emitValue _ width bitSize
  | root var type => exact stepwise_rootChain var type
  | extend _ _ _ kind type first rest =>
    exact stepwise_bind first fun c => stepwise_bind (rest c) fun a => stepwise_appendLink c (kind a) type
  | temporary stored => exact stepwise_temporary stored

/-! ### Statements -/

theorem addVariable_known {q : Target.Program} {id : Target.VarId} (h : p.addVariable var owner = (.ok id, q)) :
    id.index.toNat < q.vars.size := by
  obtain ⟨rfl, -⟩ := Program.addVariable_ok h
  obtain ⟨owner, vars, -⟩ := Program.addVariable_vars h
  rw [vars, Array.size_push]
  exact Nat.lt_succ_of_le (Nat.mod_le _ _)

theorem bindVariable_ok {c d : Scope} {var : Target.VarId} (h : c.bindVariable id var = .ok d) :
    id.index.toNat < c.vars.size ∧
      d = { c with vars := c.vars.setIfInBounds id.index.toNat (some var) } := by
  simp only [Scope.bindVariable] at h
  split at h
  · rename_i inside
    exact ⟨inside, (Except.ok.inj h).symm⟩
  · simp at h

theorem getVariable_ok {decl : VarDecl} : source.getVariable id = .ok decl ↔ source.var? id = some decl := by
  cases found : source.var? id <;> simp [Source.Program.getVariable, found]

/-- The variable is that of the declaration. -/
structure StandsFor (x : Variable) (decl : VarDecl) (owner : Option FuncId) : Prop where
  name : x.name = decl.name
  storage : x.storage = storageOf decl owner
  type : x.type = decl.type
  interfaceBlock : x.interfaceBlock = decl.interfaceBlock

theorem declare_ok {var : Target.VarId} (h : Runs (declare source id) s var t) :
    ∃ decl x p scope log, source.var? id = some decl ∧ StandsFor x decl s.scope.current ∧
      s.program.addVariable x s.scope.current = (.ok var, p) ∧
      s.scope.bindVariable id var = .ok scope ∧ t = { s with program := p, scope, log } := by
  simp only [declare, runs_bind, runs_check, runs_scope, runs_nativeIntegers, runs_setScope,
    runs_report, runs_pure, getVariable_ok] at h
  obtain ⟨decl, _, ⟨found, rfl⟩, _, _, ⟨rfl, rfl⟩, _, _, ⟨rfl, rfl⟩, _, _, ⟨-, rfl⟩, _, _, run, h⟩ := h
  obtain ⟨p, added, rfl⟩ := addVariable_ok run
  obtain ⟨_, _, ⟨rfl, rfl⟩, scope, _, ⟨bound, rfl⟩, _, _, rfl, _, _, rfl, _, _, rfl, rfl, rfl⟩ := h
  exact ⟨decl, _, p, scope, _, found, ⟨rfl, rfl, rfl, rfl⟩, added, bound, rfl⟩

theorem declare_fails (h : Fails (declare source id) s t) :
    t = s ∨ (∃ decl, Fails (addVariable decl s.scope.current) s t) ∨
      ∃ decl var, Runs (addVariable decl s.scope.current) s var t := by
  simp only [declare, fails_bind, fails_check, fails_scope, fails_nativeIntegers, fails_setScope, fails_report,
    fails_pure, runs_check, runs_scope, runs_nativeIntegers, and_false, exists_false, or_false, false_or] at h
  obtain ⟨-, rfl⟩ | ⟨_, _, ⟨-, rfl⟩, _, _, ⟨rfl, rfl⟩, _, _, ⟨rfl, rfl⟩, h⟩ := h
  · exact .inl rfl
  obtain ⟨-, rfl⟩ | ⟨_, _, ⟨-, rfl⟩, h⟩ := h
  · exact .inl rfl
  obtain failed | ⟨_, _, added, _, _, ⟨rfl, rfl⟩, -, rfl⟩ := h
  · exact .inr (.inl ⟨_, failed⟩)
  · exact .inr (.inr ⟨_, _, added⟩)

@[simp]
theorem stepwise_declare (source : Source.Program) (id : Source.VarId) :
    Stepwise .statement (declare source id) := by
  refine ⟨?_, ?_, fun _ => lockstep_declare source id⟩
  · intro s var t run
    obtain ⟨decl, _, p, scope, log, -, -, added, bound, rfl⟩ := declare_ok run
    have made : Path .statement s { s with program := p } := .single (.newVariable nofun (fun _ => rfl) added)
    have named : Path .statement s { s with program := p, scope } :=
      made.tail (.bind (by simp) (addVariable_known added) bound)
    exact named.tail (.log log)
  · intro s t run
    obtain rfl | ⟨decl, failed⟩ | ⟨decl, var, added⟩ := declare_fails run
    · exact Path.halts .refl
    · exact addVariable_halts failed
    · obtain ⟨p, made, rfl⟩ := addVariable_ok added
      exact Path.halts (.single (.newVariable nofun (fun _ => rfl) made))

theorem stepwise_noteDiscard : Stepwise layer (do
    let p ← program
    setProgram { p with info := { p.info with usesDiscard := true } }) := by
  refine stepwise_of_step (fun s a t run => ?_) (fun s t run => ?_) fun _ => ?_
  · simp only [runs_bind, runs_program, runs_setProgram] at run
    obtain ⟨_, _, ⟨rfl, rfl⟩, rfl⟩ := run
    exact .discards
  · simp only [fails_bind, fails_program, fails_setProgram, and_false, exists_false, or_self] at run
  · exact lockstep_of_change (fun p => (.ok (), { p with info := { p.info with usesDiscard := true } }))
      (fun _ => rfl) (fun _ => rfl) fun _ _ => rfl

@[simp]
theorem Composes.stepwise (h : Composes false layer m) : Stepwise layer m := by
  induction h with
  | evaluates h => exact h.stepwise
  | read blind _ ih => exact stepwise_read blind ih
  | @select _ _ e _ _ ih =>
    cases e with
    | error f => exact stepwise_check (.error f)
    | ok a => exact ih a rfl
  | bind _ _ first rest => exact stepwise_bind first rest
  | effect _ => exact stepwise_emitEffect _
  | value _ width bitSize => exact stepwise_emitValue _ width bitSize
  | discard _ => exact stepwise_bind (stepwise_emitEffect _) fun _ => stepwise_noteDiscard
  | inRegion _ ih => exact stepwise_inRegion ih
  | attach _ => exact stepwise_modifyRegion _
  | declare here source id => exact here ▸ stepwise_declare source id

theorem stepwise_lowerStmts (source : Source.Program) (stmts : List Stmt) :
    Stepwise .statement (lowerStmts source stmts) :=
  (composes_lowerStmts false source stmts).stepwise

@[simp]
theorem stepwise_lowerStmts_lift (source : Source.Program) (stmts : List Stmt) :
    Stepwise .program (lowerStmts source stmts) :=
  (stepwise_lowerStmts source stmts).lift

end

/-! ### Programs -/

theorem modifyBody_ok {s : State} {id : FuncId} (h : Runs (modifyBody id change) s a t) :
    ∃ p, s.program.modifyBody id change = .ok p ∧ t = { s with program := p } := by
  simp only [modifyBody, runs_bind, runs_program, runs_check, runs_setProgram] at h
  obtain ⟨_, _, ⟨rfl, rfl⟩, p, _, ⟨changed, rfl⟩, rfl⟩ := h
  exact ⟨p, changed, rfl⟩

theorem modifyBody_fails {s : State} {id : FuncId} (h : Fails (modifyBody id change) s t) :
    t = s ∧ ∃ e, s.program.modifyBody id change = .error e := by
  simp only [modifyBody, fails_bind, fails_program, false_or, runs_program, fails_check, fails_setProgram,
    and_false, exists_false, or_false] at h
  obtain ⟨_, _, ⟨rfl, rfl⟩, failed, rfl⟩ := h
  exact ⟨rfl, failed⟩

theorem stepwise_modifyBody (id : FuncId) (change : Body → Body) :
    Stepwise .program (modifyBody id change) := by
  refine stepwise_of_step (fun s a t run => ?_) (fun s t run => (modifyBody_fails run).1) nofun
  obtain ⟨p, changed, rfl⟩ := modifyBody_ok run
  obtain ⟨b, -, changed⟩ := Program.modifyBody_setBody changed
  exact .body changed

theorem getSignature_ok {id : SignatureId} :
    source.getSignature id = .ok signature ↔ source.signature? id = some signature := by
  cases found : source.signature? id <;> simp [Program.getSignature, found]

theorem bindFunction_ok {c d : Scope} {id : SignatureId} (h : c.bindFunction id f = .ok d) :
    id.index.toNat < c.functions.size ∧
      d = { c with functions := c.functions.setIfInBounds id.index.toNat (some f) } := by
  simp only [Scope.bindFunction] at h
  split at h
  · rename_i inside
    exact ⟨inside, (Except.ok.inj h).symm⟩
  · simp at h

theorem registerSignature_ok {id : SignatureId} {s : State}
    (h : Runs (registerSignature source id) s a t) : ∃ signature, source.signature? id = some signature ∧
      (signature.isIntrinsic = true ∧ t = s ∨
       signature.isIntrinsic = false ∧ ∃ scope log,
        s.scope.bindFunction id ⟨UInt32.ofNat s.program.functions.size⟩ = .ok scope ∧
        t = { s with program := (s.program.addFunction signature.name).2, scope, log }) := by
  simp only [registerSignature, runs_bind, runs_check, getSignature_ok] at h
  obtain ⟨signature, _, ⟨found, rfl⟩, h⟩ := h
  refine ⟨signature, found, ?_⟩
  split at h
  · rename_i builtin
    exact .inl ⟨builtin, (runs_pure.mp h).2⟩
  · rename_i other
    simp only [runs_bind, runs_program, runs_setProgram, runs_scope, runs_check, runs_setScope,
      runs_report] at h
    obtain ⟨_, _, ⟨rfl, rfl⟩, _, _, rfl, _, _, ⟨rfl, rfl⟩, scope, _, ⟨bound, rfl⟩, _, _, rfl, rfl⟩ := h
    exact .inr ⟨by simpa using other, scope, _, bound, rfl⟩

theorem registerSignature_fails {id : SignatureId} {s : State} (h : Fails (registerSignature source id) s t) :
    t = s ∧ source.signature? id = none ∨ ∃ signature, source.signature? id = some signature ∧
      t = { s with program := (s.program.addFunction signature.name).2 } ∧
      s.scope.functions.size ≤ id.index.toNat := by
  simp only [registerSignature, fails_bind, fails_check, runs_check, getSignature_ok] at h
  obtain ⟨⟨f, missing⟩, rfl⟩ | ⟨signature, _, ⟨found, rfl⟩, h⟩ := h
  · cases found : source.signature? id with
    | none => exact .inl ⟨rfl, rfl⟩
    | some signature => simp [Program.getSignature, found] at missing
  split at h
  · simp at h
  simp only [fails_bind, fails_program, fails_setProgram, fails_scope, fails_check, fails_setScope, fails_report,
    runs_program, runs_setProgram, runs_scope, and_false, exists_false, or_false, false_or] at h
  obtain ⟨_, _, ⟨rfl, rfl⟩, _, _, rfl, _, _, ⟨rfl, rfl⟩, ⟨f, unbound⟩, rfl⟩ := h
  refine .inr ⟨signature, found, rfl, ?_⟩
  simp only [Scope.bindFunction] at unbound
  split at unbound
  · cases unbound
  · rename_i outside
    exact Nat.not_lt.mp outside

theorem enterFunction_ok {c d : Scope} (h : c.enterFunction f = .ok d) : d = { c with current := some f } := by
  simp only [Scope.enterFunction] at h
  split at h
  · simp at h
  · exact (Except.ok.inj h).symm

theorem declareParams_cons {id : Source.VarId} {ids : List Source.VarId} {s : State}
    (h : Runs (declareParams source signature f (id :: ids)) s () t) :
    ∃ v u x w, Runs (declare source id) s v u ∧ u.program.getVariable v = .ok x ∧ x.storage = .param ∧
      Runs (modifyBody f fun b => { b with params := b.params.push v }) u () w ∧
      Runs (declareParams source signature f ids) w () t := by
  simp only [declareParams, runs_bind, runs_program, runs_check] at h
  obtain ⟨v, u, declared, _, _, ⟨rfl, rfl⟩, x, _, ⟨found, rfl⟩, h⟩ := h
  split at h
  · obtain ⟨_, _, -, h⟩ := runs_bind.mp h
    obtain ⟨_, _, aborted, -⟩ := runs_bind.mp h
    exact (runs_abort aborted).elim
  · rename_i stored
    obtain ⟨_, w, changed, rest⟩ := runs_bind.mp h
    exact ⟨v, _, x, w, declared, found, Decidable.not_not.mp stored, changed, rest⟩

theorem declareParams_ok {id : Source.VarId} {ids : List Source.VarId} {s : State}
    (h : Runs (declareParams source signature f (id :: ids)) s () t) :
    ∃ v u x q, Runs (declare source id) s v u ∧ u.program.getVariable v = .ok x ∧ x.storage = .param ∧
      u.program.modifyBody f (fun b => { b with params := b.params.push v }) = .ok q ∧
      Runs (declareParams source signature f ids) { u with program := q } () t := by
  obtain ⟨v, u, x, w, declared, found, stored, changed, rest⟩ := declareParams_cons h
  obtain ⟨q, listed, rfl⟩ := modifyBody_ok changed
  exact ⟨v, u, x, q, declared, found, stored, listed, rest⟩

/-- The head of a body: it is set up empty, and its parameters and its return variable are declared. -/
def Heads (source : Source.Program) (signature : Signature) (f : FuncId) (s t : State) : Prop :=
  ∃ p u, s.program.setBody f (some {}) = .ok p ∧
    Runs (declareParams source signature f signature.parameters)
      { s with program := p, scope := { s.scope with current := some f } } () u ∧
    Runs (declareReturn f signature.returnType) u () t

/-- The stages of a body: its head, its statements, and the nodes that these leave. -/
theorem lowerBody_ok {s : State} (h : Runs (lowerBody source signature f) s a t) :
    ∃ v w q log, Heads source signature f s v ∧
      Runs (lowerStmts source signature.body) { v with region := {} } () w ∧
      w.program.modifyBody f (fun b => { b with nodes := w.region.toList }) = .ok q ∧
      t = { program := q, scope := w.scope.leaveFunction, region := v.region, log } := by
  simp only [lowerBody, runs_bind, runs_check, runs_program, runs_setProgram, runs_scope, runs_setScope,
    runs_withSite, runs_inRegion, runs_report] at h
  obtain ⟨_, _, ⟨rfl, rfl⟩, p, _, ⟨emptied, rfl⟩, _, _, rfl, _, _, ⟨rfl, rfl⟩, _, _, ⟨entered, rfl⟩, _, _,
    rfl, _, u, params, _, v, returned, _, _, ⟨w, stmts, rfl, rfl⟩, _, _, rfl, _, _, finished, h⟩ := h
  obtain ⟨q, changed, rfl⟩ := modifyBody_ok finished
  obtain ⟨_, _, ⟨rfl, rfl⟩, rfl⟩ := h
  obtain rfl := enterFunction_ok entered
  exact ⟨v, w, q, _, ⟨p, u, emptied, params, returned⟩, stmts, changed, rfl⟩

/-- The stages at which a body may fail. -/
theorem lowerBody_fails {s : State} (h : Fails (lowerBody source signature f) s t) :
    t = s ∧ (∃ e, s.program.setBody f (some {}) = .error e) ∨ ∃ p, s.program.setBody f (some {}) = .ok p ∧
      (t = { s with program := p } ∧ s.scope.current.isSome ∨
       Fails (declareParams source signature f signature.parameters)
        { s with program := p, scope := { s.scope with current := some f } } t ∨
       ∃ u, Runs (declareParams source signature f signature.parameters)
          { s with program := p, scope := { s.scope with current := some f } } () u ∧
        (Fails (declareReturn f signature.returnType) u t ∨
         ∃ v, Runs (declareReturn f signature.returnType) u () v ∧
          ((∃ w, Fails (lowerStmts source signature.body) { v with region := {} } w ∧
              t = { w with region := v.region }) ∨
           ∃ w log, Runs (lowerStmts source signature.body) { v with region := {} } () w ∧
            t = { w with region := v.region, log } ∧
            ∃ e, w.program.modifyBody f (fun b => { b with nodes := w.region.toList }) = .error e))) := by
  simp only [lowerBody, fails_bind, fails_check, fails_program, fails_setProgram, fails_scope, fails_setScope,
    fails_withSite, fails_inRegion, fails_report, runs_check, runs_program, runs_setProgram, runs_scope,
    runs_setScope, runs_withSite, runs_inRegion, runs_report, and_false, exists_false, or_false, false_or] at h
  obtain ⟨_, _, ⟨rfl, rfl⟩, ⟨failed, rfl⟩ | ⟨p, _, ⟨emptied, rfl⟩, _, _, rfl, _, _, ⟨rfl, rfl⟩, h⟩⟩ := h
  · exact .inl ⟨rfl, failed⟩
  refine .inr ⟨p, emptied, ?_⟩
  obtain ⟨⟨e, nested⟩, rfl⟩ | ⟨_, _, ⟨entered, rfl⟩, _, _, rfl, h⟩ := h
  · refine .inl ⟨rfl, ?_⟩
    simp only [Scope.enterFunction] at nested
    split at nested
    · rename_i inside
      simp [inside]
    · cases nested
  obtain rfl := enterFunction_ok entered
  obtain failed | ⟨_, u, params, h⟩ := h
  · exact .inr (.inl failed)
  refine .inr (.inr ⟨u, params, ?_⟩)
  obtain failed | ⟨_, v, returned, h⟩ := h
  · exact .inl failed
  refine .inr ⟨v, returned, ?_⟩
  obtain failed | ⟨_, _, ⟨w, stmts, rfl, rfl⟩, _, _, rfl, h⟩ := h
  · exact .inl failed
  · obtain ⟨rfl, failed⟩ := modifyBody_fails h
    exact .inr ⟨w, _, stmts, rfl, failed⟩

theorem resolveFunction_ok {c : Scope} {id : SignatureId} (h : c.resolveFunction source id = .ok f) :
    c.functions[id.index.toNat]? = some (some f) := by
  simp only [Scope.resolveFunction] at h
  split at h
  · rename_i g found
    obtain rfl := Except.ok.inj h
    exact Option.join_eq_some_iff.mp found
  · cases signature : source.getSignature id <;>
      simp [signature] at h

theorem lowerSignature_ok {id : SignatureId} {s : State} (h : Runs (lowerSignature source id) s a t) :
    ∃ signature, source.signature? id = some signature ∧
      (signature.isIntrinsic = true ∧ t = s ∨
       signature.isIntrinsic = false ∧ ∃ f, s.scope.functions[id.index.toNat]? = some (some f) ∧
        (signature.isDefined = false ∧ (∃ log, t = { s with log }) ∨
         signature.isDefined = true ∧ Runs (lowerBody source signature f) s () t)) := by
  simp only [lowerSignature, runs_bind, runs_check, getSignature_ok] at h
  obtain ⟨signature, _, ⟨found, rfl⟩, h⟩ := h
  refine ⟨signature, found, ?_⟩
  split at h
  · rename_i builtin
    exact .inl ⟨builtin, (runs_pure.mp h).2⟩
  · rename_i other
    simp only [runs_bind, runs_scope, runs_check] at h
    obtain ⟨_, _, ⟨rfl, rfl⟩, f, _, ⟨resolved, rfl⟩, h⟩ := h
    refine .inr ⟨by simpa using other, f, resolveFunction_ok resolved, ?_⟩
    split at h
    · rename_i defined
      exact .inr ⟨defined, h⟩
    · rename_i declared
      exact .inl ⟨by simpa using declared, _, runs_report.mp h⟩

/-- A signature fails where there is none, where it has no function, and in its body. -/
theorem lowerSignature_fails {id : SignatureId} {s : State} (h : Fails (lowerSignature source id) s t) :
    t = s ∧ (source.signature? id = none ∨ ∃ signature e, source.signature? id = some signature ∧
      signature.isIntrinsic = false ∧ s.scope.resolveFunction source id = .error e) ∨
    ∃ signature f, source.signature? id = some signature ∧ signature.isIntrinsic = false ∧
      signature.isDefined = true ∧ s.scope.functions[id.index.toNat]? = some (some f) ∧
      Fails (lowerBody source signature f) s t := by
  simp only [lowerSignature, fails_bind, fails_check, runs_check, getSignature_ok] at h
  obtain ⟨⟨f, missing⟩, rfl⟩ | ⟨signature, _, ⟨found, rfl⟩, h⟩ := h
  · cases found : source.signature? id with
    | none => exact .inl ⟨rfl, .inl rfl⟩
    | some signature => simp [Program.getSignature, found] at missing
  split at h
  · simp at h
  rename_i user
  simp only [fails_bind, fails_scope, fails_check, runs_scope, runs_check, false_or] at h
  obtain ⟨_, _, ⟨rfl, rfl⟩, ⟨failed, rfl⟩ | ⟨f, _, ⟨resolved, rfl⟩, h⟩⟩ := h
  · obtain ⟨e, unresolved⟩ := failed
    exact .inl ⟨rfl, .inr ⟨signature, e, found, by simpa using user, unresolved⟩⟩
  split at h
  · rename_i defined
    exact .inr ⟨signature, f, found, by simpa using user, defined, resolveFunction_ok resolved, h⟩
  · simp at h

section
variable (source)

theorem stepwise_registerSignatures (ids : List SignatureId) : Stepwise .program (registerSignatures source ids) := by
  induction ids with
  | nil => exact stepwise_pure ()
  | cons id ids ih =>
    unfold registerSignatures
    refine stepwise_bind ⟨fun {s a t} run => ?_, fun {s t} run => ?_, nofun⟩ fun _ => ih
    · obtain ⟨signature, -, ⟨-, rfl⟩ | ⟨-, scope, log, bound, rfl⟩⟩ := registerSignature_ok run
      · rfl
      · obtain ⟨-, rfl⟩ := bindFunction_ok bound
        have added : Path .program s { s with program := (s.program.addFunction signature.name).2 } :=
          .single (.newFunction _)
        exact (added.tail (.scope _ (by rfl) (by rfl))).tail (.log log)
    · obtain ⟨rfl, -⟩ | ⟨signature, -, rfl, -⟩ := registerSignature_fails run
      · exact Path.halts .refl
      · exact Path.halts (.single (.newFunction _))

theorem stepwise_registerAll (stmts : List Stmt) : Stepwise .program (registerAll source stmts) := by
  fun_induction registerAll source stmts with
  | case1 => exact stepwise_pure ()
  | case2 name signatures rest ih =>
    exact stepwise_bind (stepwise_registerSignatures source signatures) fun _ => ih
  | case3 stmt rest other ih => exact ih

theorem stepwise_declareParams (signature : Signature) (f : FuncId)
    (ids : List Source.VarId) : Stepwise .program (declareParams source signature f ids) := by
  induction ids with
  | nil => exact stepwise_pure ()
  | cons id ids ih =>
    have declared := (stepwise_declare source id).lift
    unfold declareParams
    repeat' first
      | exact ih
      | exact declared
      | exact stepwise_modifyBody _ _
      | refine stepwise_read (fun _ _ => rfl) fun p => ?_
      | with_reducible apply stepwise_bind
      | intro _
      | split
      | simp

theorem stepwise_declareReturn (f : FuncId) (type : ShaderType) :
    Stepwise .program (declareReturn f type) := by
  unfold declareReturn
  repeat' first
    | exact stepwise_modifyBody _ _
    | with_reducible apply stepwise_bind
    | intro _
    | split
    | simp

theorem enter_path {s : State} (emptied : s.program.setBody f (some {}) = .ok p) :
    Path .program s { s with program := p, scope := { s.scope with current := some f } } :=
  (Relation.ReflTransGen.single (.body emptied)).tail (.scope _ (by rfl) (by rfl))

variable {source} in
theorem Heads.path {s : State} (h : Heads source signature f s t) : Path .program s t := by
  obtain ⟨p, u, emptied, params, returned⟩ := h
  exact ((enter_path emptied).trans ((stepwise_declareParams ..).path params)).trans
    ((stepwise_declareReturn ..).path returned)

theorem stepwise_lowerBody (signature : Signature) (f : FuncId) : Stepwise .program (lowerBody source signature f) := by
  refine ⟨?_, ?_, nofun⟩
  · intro s a t run
    obtain ⟨v, w, q, log, head, stmts, changed, rfl⟩ := lowerBody_ok run
    obtain ⟨b, -, changed⟩ := Program.modifyBody_setBody changed
    have headed := head.path.tail (.region {})
    have filled := headed.trans ((stepwise_lowerStmts ..).lift.path stmts)
    have finished := ((filled.tail (.body changed)).tail (.scope w.scope.leaveFunction rfl rfl)).tail
      (.region v.region)
    exact finished.tail (.log log)
  · intro s t run
    obtain ⟨rfl, -⟩ | ⟨p, emptied, h⟩ := lowerBody_fails run
    · exact Path.halts .refl
    obtain ⟨rfl, -⟩ | failed | ⟨u, params, h⟩ := h
    · exact Path.halts (.single (.body emptied))
    · exact ((stepwise_declareParams ..).failed failed).after (enter_path emptied)
    have listed := (enter_path emptied).trans ((stepwise_declareParams ..).path params)
    obtain failed | ⟨v, returned, h⟩ := h
    · exact ((stepwise_declareReturn ..).failed failed).after listed
    have headed := (listed.trans ((stepwise_declareReturn ..).path returned)).tail (.region {})
    obtain ⟨w, failed, rfl⟩ | ⟨w, log, stmts, rfl, -⟩ := h
    · exact (((stepwise_lowerStmts ..).lift.failed failed).after headed).region v.region
    · have path := headed.trans ((stepwise_lowerStmts ..).lift.path stmts)
      exact Path.halts ((path.tail (.region v.region)).tail (.log log))

theorem stepwise_lowerSignature (id : SignatureId) : Stepwise .program (lowerSignature source id) := by
  refine ⟨fun {s a t} run => ?_, fun {s t} run => ?_, nofun⟩
  · obtain ⟨signature, -, ⟨-, rfl⟩ | ⟨-, f, -, ⟨-, log, rfl⟩ | ⟨-, body⟩⟩⟩ := lowerSignature_ok run
    · rfl
    · exact .single (.log log)
    · exact (stepwise_lowerBody ..).path body
  · obtain ⟨rfl, -⟩ | ⟨signature, f, -, -, -, -, body⟩ := lowerSignature_fails run
    · exact Path.halts .refl
    · exact (stepwise_lowerBody ..).failed body

theorem stepwise_lowerSignatures (ids : List SignatureId) : Stepwise .program (lowerSignatures source ids) := by
  induction ids with
  | nil => exact stepwise_pure ()
  | cons id ids ih => exact stepwise_bind (stepwise_lowerSignature source id) fun _ => ih

theorem stepwise_lowerAll (stmts : List Stmt) : Stepwise .program (lowerAll source stmts) := by
  fun_induction lowerAll source stmts with
  | case1 => exact stepwise_pure ()
  | case2 id rest ih => exact stepwise_bind (stepwise_declare source id).lift fun _ => ih
  | case3 name signatures rest ih =>
    exact stepwise_bind (stepwise_lowerSignatures source signatures) fun _ => ih
  | case4 => exact stepwise_abort _

end

theorem lower_eq (source : Source.Program) (capabilities : Capabilities) :
    lower source capabilities =
      match outcome (lowerProgram source) (.initial source capabilities) with
      | (.ok (), s) => .ok s.program
      | (.error e, _) => .error e := rfl

theorem lower_summarized (h : lower source capabilities = .ok p) :
    ∃ s t info, Runs (registerAll source source.statements) (.initial source capabilities) () s ∧
      Runs (lowerAll source source.statements) s () t ∧ summarize t.program = .ok info ∧
      p = { t.program with info } := by
  have run : ∃ u, Runs (lowerProgram source) (.initial source capabilities) () u ∧ u.program = p := by
    rw [lower_eq] at h
    rcases result : outcome (lowerProgram source) (.initial source capabilities) with ⟨e | _, u⟩
    · simp [result] at h
    · exact ⟨u, result, by simpa [result] using h⟩
  obtain ⟨u, run, rfl⟩ := run
  simp only [lowerProgram, finish, runs_bind, runs_program, runs_check, runs_setProgram,
    runs_report] at run
  obtain ⟨_, s, registered, _, t, lowered, _, _, ⟨rfl, rfl⟩, info, _, ⟨summary, rfl⟩, _, _, rfl, rfl⟩ := run
  exact ⟨s, _, info, registered, lowered, summary, rfl⟩

theorem lower_ok (h : lower source capabilities = .ok p) :
    ∃ s t info, Runs (registerAll source source.statements) (.initial source capabilities) () s ∧
      Runs (lowerAll source source.statements) s () t ∧ p = { t.program with info } := by
  obtain ⟨s, t, info, registered, lowered, -, rfl⟩ := lower_summarized h
  exact ⟨s, t, info, registered, lowered, rfl⟩

theorem lower_checked {P : Target.Program → Prop} [DecidablePred P]
    (h : (lower source capabilities).toOption.any (fun p => decide (P p)) = true) :
    ∃ p, lower source capabilities = .ok p ∧ P p := by
  cases lowered : lower source capabilities with
  | error e => simp [lowered, Except.toOption] at h
  | ok p => exact ⟨p, rfl, by simpa [lowered, Except.toOption] using h⟩

end Lowering

end ShaderSSA
