import ShaderSSA.Proofs.Statements

/-!
Whole programs. Registration gives every listed signature a function, and each body that is lowered fills
the function of its signature and leaves the others alone.
-/

namespace ShaderSSA
variable {ids : List SignatureId}

namespace Target.Program
variable {p q : Program} {f : FuncId} {body : Option Body}

/-! ### Bodies -/

theorem setBody_code? (h : p.setBody f body = .ok q) (i : Nat) :
    q.code? i = if f.index.toNat = i then body.map fun b => (b.returnVar, b.nodes) else p.code? i := by
  obtain ⟨g, found, rfl⟩ := setBody_ok h
  obtain ⟨inside, -⟩ := Array.getElem?_eq_some_iff.mp found
  simp only [code?, Array.getElem?_setIfInBounds, inside, if_true]
  split <;> simp

theorem setBody_names (h : p.setBody f body = .ok q) :
    q.functions.map Function.name = p.functions.map Function.name := by
  obtain ⟨g, found, rfl⟩ := setBody_ok h
  apply Array.ext_getElem?
  intro i
  simp only [Array.getElem?_map, Array.getElem?_setIfInBounds]
  split
  · rename_i here
    subst here
    split <;> simp_all
  · rfl

theorem setBody_extends (h : p.setBody f body = .ok q) : p.Extends q := by
  obtain ⟨g, -, rfl⟩ := setBody_ok h
  exact ⟨id, id, id, fun _ => id⟩

theorem modifyBody_code? {change : Body → Body} (h : p.modifyBody f change = .ok q) :
    ∃ b, p.code? f.index.toNat = some (b.returnVar, b.nodes) ∧ p.setBody f (some (change b)) = .ok q := by
  obtain ⟨b, read, written⟩ := modifyBody_setBody h
  obtain ⟨g, found, body⟩ := getBody_ok read
  exact ⟨b, by simp [code?, found, body], written⟩

end Target.Program

namespace Source

def Stmt.signatures : Stmt → List SignatureId
  | .function _ ids => ids
  | _ => []

/-- The place at which a signature is listed last. -/
def lastPlace? (ids : List SignatureId) (id : SignatureId) : Option Nat :=
  (ids.zipIdx.reverse.find? fun x => x.1 = id).map Prod.snd

namespace Program

/-- The signatures that the top level lists, in order. -/
def listed (p : Program) : List SignatureId := p.statements.flatMap Stmt.signatures

/-- The signature gets a function of its own. -/
def isUser (p : Program) (id : SignatureId) : Bool := (p.signature? id).any fun s => !s.isIntrinsic

/-- The function that a signature is lowered to. -/
def functionOf? (p : Program) (id : SignatureId) : Option Target.FuncId :=
  (lastPlace? (p.listed.filter p.isUser) id).map fun i => ⟨UInt32.ofNat i⟩

end Program

theorem lastPlace?_append (ids : List SignatureId) (x id : SignatureId) :
    lastPlace? (ids ++ [x]) id = if x = id then some ids.length else lastPlace? ids id := by
  simp only [lastPlace?, List.zipIdx_append, List.zipIdx_singleton, List.reverse_append, List.reverse_singleton,
    List.singleton_append, List.find?_cons]
  by_cases same : x = id <;> simp [same]

theorem getElem?_of_lastPlace? {id : SignatureId} {i : Nat} (h : lastPlace? ids id = some i) : ids[i]? = some id := by
  simp only [lastPlace?, Option.map_eq_some_iff] at h
  obtain ⟨⟨x, j⟩, found, rfl⟩ := h
  have member := List.mem_reverse.mp (List.mem_of_find?_eq_some found)
  have same : x = id := by simpa using List.find?_some found
  rw [← same]
  exact List.mem_zipIdx_iff_getElem?.mp member

end Source

namespace Lowering
open Source Target Lower

variable {source : Source.Program} {s u t : State} {a : Unit} {f : FuncId} {p : Target.Program} {signature : Signature}
  {stmts : List Stmt} {v : Target.VarId}

/-! ### The head of a body -/

/-- From `s` to `t`, variables were declared, for the head of a body at most. -/
structure Declares (s t : State) : Prop where
  instrs : t.program.instrs = s.program.instrs
  values : t.program.values = s.program.values
  links : t.program.links = s.program.links
  vars : ∀ {i : Nat} {x}, s.program.vars[i]? = some x → t.program.vars[i]? = some x
  code? : t.program.code? = s.program.code?
  names : t.program.functions.map Function.name = s.program.functions.map Function.name
  callees : t.callees = s.callees
  current : t.scope.current = s.scope.current
  region : t.region = s.region

namespace Declares

theorem refl (s : State) : Declares s s := ⟨rfl, rfl, rfl, id, rfl, rfl, rfl, rfl, rfl⟩

theorem trans (h : Declares s u) (h' : Declares u t) : Declares s t where
  instrs := h'.instrs.trans h.instrs
  values := h'.values.trans h.values
  links := h'.links.trans h.links
  vars := h'.vars ∘ h.vars
  code? := h'.code?.trans h.code?
  names := h'.names.trans h.names
  callees := h'.callees.trans h.callees
  current := h'.current.trans h.current
  region := h'.region.trans h.region

theorem keeps (h : Declares s t) : s.program.Extends t.program :=
  ⟨by rw [h.instrs]; exact id, by rw [h.values]; exact id, h.vars, by rw [h.links]; exact fun _ => id⟩

theorem code (h : Declares s t) {env : Env} {result : Option Target.VarId} :
    Code env result s t [] [] [] [] :=
  .still h.instrs h.values h.links h.region h.vars

end Declares

theorem addVariable_declares {decl : Variable} {owner : Option FuncId}
    (added : s.program.addVariable decl owner = (.ok v, p)) : Declares s { s with program := p } := by
  obtain ⟨_, vars, instrs, values, links⟩ := Program.addVariable_vars added
  have outline := (Program.Gains.of_addVariable added).outline
  have names := congrArg (Array.map Function.name) outline
  rw [Array.map_map, Array.map_map] at names
  exact ⟨instrs, values, links, by rw [vars]; exact getElem?_push_of_some, Program.code?_eq_of_outline outline, names,
    rfl, rfl, rfl⟩

theorem declare_declares {id : Source.VarId} (run : Runs (declare source id) s v t) : Declares s t := by
  obtain ⟨-, _, p, scope, log, -, -, added, named, rfl⟩ := declare_ok run
  obtain ⟨-, rfl⟩ := bindVariable_ok named
  have h := addVariable_declares added
  exact ⟨h.instrs, h.values, h.links, h.vars, h.code?, h.names, h.callees, h.current, h.region⟩

theorem declare_stands {id : Source.VarId} (run : Runs (declare source id) s v t)
    (fits : t.program.Fits) : ∃ decl x, source.var? id = some decl ∧ t.program.var? v = some x ∧
      StandsFor x decl s.scope.current := by
  obtain ⟨decl, x, p, scope, log, found, stands, added, -, rfl⟩ := declare_ok run
  obtain ⟨owner, there⟩ := Program.addVariable_found added fits.vars
  exact ⟨decl, { x with owner }, found, there, stands.name, stands.storage, stands.type, stands.interfaceBlock⟩

theorem modifyBody_declares {change : Body → Body} (run : Runs (modifyBody f change) s a t)
    (returnVar : ∀ b, (change b).returnVar = b.returnVar) (nodes : ∀ b, (change b).nodes = b.nodes) : Declares s t := by
  obtain ⟨p, changed, rfl⟩ := modifyBody_ok run
  obtain ⟨b, before, written⟩ := Program.modifyBody_code? changed
  have names := Program.setBody_names written
  have code? : p.code? = s.program.code? := by
    funext i
    rw [Program.setBody_code? written]
    split
    · rename_i here
      rw [← here, before, Option.map_some, returnVar, nodes]
    · rfl
  obtain ⟨g, -, rfl⟩ := Program.setBody_ok written
  exact ⟨rfl, rfl, rfl, id, code?, names, rfl, rfl, rfl⟩

theorem declareParams_declares {ids : List Source.VarId} (run : Runs (declareParams source signature f ids) s a t) :
    Declares s t := by
  induction ids generalizing s with
  | nil =>
    obtain ⟨-, rfl⟩ := runs_pure.mp run
    exact .refl t
  | cons id ids ih =>
    obtain ⟨v, u, -, w, declared, -, -, changed, rest⟩ := declareParams_cons run
    have listed := modifyBody_declares changed (fun _ => rfl) fun _ => rfl
    exact ((declare_declares declared).trans listed).trans (ih rest)

/-- From `s` to `t`, the function `f` got the given return variable and nodes. -/
structure Fills (f : FuncId) (s t : State) (code : Option Target.VarId × List Node) : Prop where
  here : t.program.code? f.index.toNat = some code
  elsewhere : ∀ {i : Nat}, f.index.toNat ≠ i → t.program.code? i = s.program.code? i
  names : t.program.functions.map Function.name = s.program.functions.map Function.name
  callees : t.callees = s.callees

theorem declareReturn_code {type : ShaderType} (filled : Fills f s u (none, [])) (bound : u.Bound)
    (current : u.scope.current = some f) (head : ∀ {env other}, Code env other s u [] [] [] [])
    (run : Runs (declareReturn f type) u () t) (fits : t.program.Fits) :
    ∃ result, Fills f s t (result, []) ∧ t.Inside result ∧ (∀ {env other}, Code env other s t [] [] [] []) ∧
      t.scope = u.scope ∧ result.isSome = !type.isVoid := by
  obtain ⟨void, rfl⟩ | ⟨valued, var, w, addRun, changeRun⟩ := declareReturn_ok run
  · refine ⟨none, filled, ⟨bound, by simp, by simp, ?_⟩, head, rfl, by simp [void]⟩
    rw [State.returnVar?, current, Option.bind_some, filled.here]
    rfl
  obtain ⟨q, added, rfl⟩ := addVariable_ok addRun
  obtain ⟨r, changed, rfl⟩ := modifyBody_ok changeRun
  have declared := addVariable_declares added
  obtain ⟨rfl, -⟩ := Program.addVariable_ok added
  obtain ⟨_, vars, -⟩ := Program.addVariable_vars added
  obtain ⟨b, before, written⟩ := Program.modifyBody_code? changed
  have code? := Program.setBody_code? written
  have names := (Program.setBody_names written).trans declared.names
  -- the body is still without nodes
  rw [congrFun declared.code?, filled.here] at before
  simp only [Option.some.injEq, Prod.mk.injEq] at before
  have here : r.code? f.index.toNat = some (some u.nextVar, []) := by
    rw [code?, if_pos rfl, Option.map_some, ← before.2]
    rfl
  obtain ⟨g, -, rfl⟩ := Program.setBody_ok written
  have small : q.vars.size < UInt32.size := fits.vars
  rw [vars, Array.size_push] at small
  have index : u.nextVar.index.toNat = u.program.vars.size :=
    UInt32.toNat_ofNat_of_lt' (Nat.lt_of_succ_lt small)
  refine ⟨some u.nextVar, ⟨here, ?_, names.trans filled.names, filled.callees⟩, ⟨?_, ?_, ?_, ?_⟩, ?_, rfl,
    by simp [valued]⟩
  · intro i other
    rw [code?, if_neg other, congrFun declared.code?, filled.elsewhere other]
  · intro i v found
    have old := bound found
    simp only [vars, Array.size_push]
    omega
  · intro i v found is
    have old := bound found
    rw [← Option.some.inj is, index] at old
    exact Nat.lt_irrefl _ old
  · intro v is
    exact ⟨_, by rw [Target.Program.var?, vars, ← Option.some.inj is, index, Array.getElem?_push_size], rfl⟩
  · simp only [State.returnVar?, current, Option.bind_some, here]
  · intro env other
    have added : Code env other u { u with program := q } [] [] [] [] := declared.code
    exact head.trans (added.trans (.still rfl rfl rfl rfl id))

theorem declareReturn_scope {type : ShaderType} (run : Runs (declareReturn f type) s () t) : t.scope = s.scope := by
  obtain ⟨-, rfl⟩ | ⟨-, var, w, addRun, changeRun⟩ := declareReturn_ok run
  · rfl
  · obtain ⟨q, -, rfl⟩ := addVariable_ok addRun
    obtain ⟨r, -, rfl⟩ := modifyBody_ok changeRun
    rfl

theorem head_code (bound : s.Bound) (head : Heads source signature f s t) (fits : t.program.Fits) :
    ∃ result, Fills f s t (result, []) ∧ t.Inside result ∧ (∀ {env other}, Code env other s t [] [] [] []) ∧
      t.scope.current = some f ∧ result.isSome = !signature.returnType.isVoid := by
  obtain ⟨p, u, emptied, params, returned⟩ := head
  have entered := declareParams_declares params
  have names := entered.names.trans (Program.setBody_names emptied)
  have code? := fun i => (congrFun entered.code? i).trans (Program.setBody_code? emptied i)
  have filled : Fills f s u (none, []) :=
    ⟨by rw [code?, if_pos rfl]; rfl, fun other => by rw [code?, if_neg other], names, entered.callees⟩
  obtain ⟨g, -, rfl⟩ := Program.setBody_ok emptied
  have listed : u.Bound := ((stepwise_declareParams ..).path params).bound bound
  obtain ⟨result, fills, inside, head, scope, isResult⟩ := declareReturn_code filled listed entered.current
    (.still entered.instrs entered.values entered.links entered.region entered.vars) returned fits
  exact ⟨result, fills, inside, head, by rw [scope, entered.current], isResult⟩

/-! ### Bodies of signatures -/

/-- In `p` and every program after it, the code is well scoped and has the skeleton of the statements. -/
def Translates (source : Source.Program) (callees : SignatureId → Option FuncId) (p : Target.Program)
    (code : Option Target.VarId × List Node) (stmts : List Stmt) : Prop :=
  ∃ effects, stmtsSkeleton? source callees stmts = some effects ∧
    ∀ {q}, p.Extends q → q.Fits → Scoped q code.2 [] ∧ skeleton? q code.1 code.2 = some effects

theorem Translates.mono {callees : SignatureId → Option FuncId} {q : Target.Program}
    {code : Option Target.VarId × List Node} (h : Translates source callees p code stmts) (keeps : p.Extends q) :
    Translates source callees q code stmts := by
  obtain ⟨effects, read, holds⟩ := h
  exact ⟨effects, read, fun later fits => holds (keeps.trans later fun _ => id) fits⟩

/-- From `s` to `t`, the function `f` got the body of a signature. -/
structure Lowers (source : Source.Program) (signature : Signature) (f : FuncId) (s t : State)
    (code : Option Target.VarId × List Node) : Prop where
  fills : Fills f s t code
  keeps : s.program.Extends t.program
  translates : Translates source s.callees t.program code signature.body
  numbered : instrsOf code.2 = instsBetween s.program.instrs.size t.program.instrs.size
  rested : s.Rested → t.Rested
  sealed : s.Rested → ∀ {q}, t.program.Extends q → q.Fits →
    Seal q s.program.links t.program.links code.2 []

theorem lowerBody_code (bound : s.Bound) (run : Runs (lowerBody source signature f) s a t) (fits : t.program.Fits) :
    ∃ code, Lowers source signature f s t code := by
  obtain ⟨v, w, q, log, ⟨head, fitting⟩, ⟨stmts, small⟩, changed, rfl⟩ := lowerBody_fitting run fits
  obtain ⟨b, before, written⟩ := Program.modifyBody_code? changed
  have code? := Program.setBody_code? written
  have finished := Program.setBody_extends written
  have same : q.instrs = w.program.instrs ∧ q.links = w.program.links := by
    obtain ⟨g, -, rfl⟩ := Program.setBody_ok written
    exact ⟨rfl, rfl⟩
  have path := (stepwise_lowerStmts source signature.body).path stmts
  obtain ⟨result, filled, inside, first, -, -⟩ := head_code bound head fitting
  obtain ⟨nodes, effects, read, code, -⟩ :=
    @lowerStmts_code s.env result source signature.body _ _ (inside.inRegion {}) stmts small
  have begun : Code s.env result s v [] [] [] [] := first
  -- statements leave every function as it was, and what they emit becomes the body
  have kept : w.program.code? = v.program.code? := path.code?_eq (by simp)
  rw [kept, filled.here] at before
  obtain ⟨isResult, -⟩ := Prod.mk.inj (Option.some.inj before)
  have region : w.region.toList = nodes := code.region
  refine ⟨(result, nodes), ⟨?_, ?_, ?_, ?_⟩, ?_, ⟨effects, ?_, ?_⟩, ?_, ?_, ?_⟩
  · rw [code?, if_pos rfl, Option.map_some, region, isResult]
  · intro i other
    rw [code?, if_neg other, kept, filled.elsewhere other]
  · exact (Program.setBody_names written).trans ((path.names_eq (by simp)).trans filled.names)
  · exact path.callees_eq.trans filled.callees
  · exact (begun.keeps.trans code.keeps fun _ => id).trans finished fun _ => id
  · rwa [State.callees_region, filled.callees] at read
  · intro r later fits
    have facts := code.facts ((finished.trans later fun _ => id).mono fun _ _ => trivial) fits
    exact ⟨facts.visible, facts.skeleton⟩
  · have joined := instsBetween_append (Program.Keeps.size_le begun.keeps.instrs)
      (Program.Keeps.size_le code.keeps.instrs)
    rw [code.numbered, same.1, ← joined, ← begun.numbered]
    rfl
  · intro rested i x last there
    rw [same.1] at last there
    exact code.rested (begun.rested rested) last there
  · intro rested r later fits
    have kept : w.program.Extends r := finished.trans later fun _ => id
    have first := begun.sealed rested ((code.keeps.trans kept fun _ => id).mono fun _ _ => trivial) fits
    have last := code.sealed (begun.rested rested) (kept.mono fun _ _ => trivial) fits
    rw [same.2]
    exact first.trans last (code.keeps.links trivial)

/-! ### Registration -/

theorem registerSignatures_append (source : Source.Program) (ids more : List SignatureId) :
    registerSignatures source (ids ++ more) =
      registerSignatures source ids >>= fun _ => registerSignatures source more := by
  induction ids with
  | nil => rfl
  | cons id ids ih => rw [List.cons_append, registerSignatures, registerSignatures, ih, bind_assoc]

theorem registerAll_eq (source : Source.Program) (stmts : List Stmt) :
    registerAll source stmts = registerSignatures source (stmts.flatMap Stmt.signatures) := by
  fun_induction registerAll source stmts with
  | case1 => rfl
  | case2 name ids rest ih =>
    rw [ih, List.flatMap_cons, ← registerSignatures_append]
    rfl
  | case3 stmt rest other ih =>
    have none : stmt.signatures = [] := by
      cases stmt with
      | function name ids => exact absurd rfl (other name ids)
      | _ => rfl
    rw [ih, List.flatMap_cons, none, List.nil_append]

/-- The signatures in `ids` have got functions without bodies, in order. -/
structure Registers (source : Source.Program) (ids : List SignatureId) (s : State) : Prop where
  unbound : ∀ {i : Nat} {v}, s.scope.vars[i]? ≠ some (some v)
  idle : s.scope.current = none
  size : s.program.functions.size = ids.length
  globals : s.program.globals = #[]
  instrs : s.program.instrs = #[]
  vars : s.program.vars = #[]
  links : s.program.links = #[]
  empty : ∀ i, s.program.code? i = none
  names : ∀ {i : Nat} {id}, ids[i]? = some id → (s.program.functions.map Function.name)[i]? =
    (source.signature? id).map Signature.name
  callees : ∀ id, s.callees id = (lastPlace? ids id).map fun i => ⟨UInt32.ofNat i⟩

theorem initial_registers (source : Source.Program) (capabilities : Capabilities) :
    Registers source [] (.initial source capabilities) where
  unbound := by
    intro i v
    simp only [State.initial, Scope.new, Array.getElem?_replicate]
    split <;> simp
  idle := rfl
  size := rfl
  globals := rfl
  instrs := rfl
  vars := rfl
  links := rfl
  empty := by simp [Program.code?, State.initial, Program.new]
  names := by simp
  callees := by
    intro id
    simp only [State.callees, State.initial, Scope.new, Array.getElem?_replicate]
    split <;> rfl

theorem registerSignature_registers {id : SignatureId} (h : Registers source ids s)
    (run : Runs (registerSignature source id) s a t) : Registers source (ids ++ [id].filter source.isUser) t := by
  obtain ⟨signature, found, ⟨builtin, rfl⟩ | ⟨user, scope, log, named, rfl⟩⟩ := registerSignature_ok run
  · have other : source.isUser id = false := by simp [Program.isUser, found, builtin]
    simpa [other] using h
  · have own : source.isUser id = true := by simp [Program.isUser, found, user]
    obtain ⟨inside, rfl⟩ := bindFunction_ok named
    rw [List.filter_cons_of_pos own, List.filter_nil]
    refine ⟨h.unbound, h.idle, ?_, h.globals, h.instrs, h.vars, h.links, ?_, ?_, ?_⟩
    · simp [Program.addFunction, h.size]
    · intro i
      have before := h.empty i
      simp only [Program.code?, Program.addFunction, Array.getElem?_push] at before ⊢
      split
      · rfl
      · exact before
    · intro i x there
      simp only [Program.addFunction, Array.map_push, Array.getElem?_push, Array.size_map, h.size]
      rw [List.getElem?_append] at there
      split at there
      · rename_i old
        rw [if_neg (Nat.ne_of_lt old), h.names there]
      · rename_i new
        have last : i - ids.length = 0 := by
          obtain ⟨within, -⟩ := List.getElem?_eq_some_iff.mp there
          simpa using within
        have here : i = ids.length := by omega
        rw [last, List.getElem?_cons_zero] at there
        rw [if_pos here, ← Option.some.inj there, found, Option.map_some]
    · intro x
      have before := h.callees x
      rw [lastPlace?_append]
      simp only [State.callees, Array.getElem?_setIfInBounds, inside, if_true, ← h.size] at before ⊢
      by_cases same : id = x
      · simp [same]
      · have other : id.index.toNat ≠ x.index.toNat := by
          intro equal
          apply same
          cases id
          cases x
          simpa [UInt32.toNat_inj] using equal
        rw [if_neg other, if_neg same, before]

theorem registerSignatures_registers {more : List SignatureId} (h : Registers source ids s)
    (run : Runs (registerSignatures source more) s a t) : Registers source (ids ++ more.filter source.isUser) t := by
  induction more generalizing s ids with
  | nil =>
    obtain ⟨-, rfl⟩ := runs_pure.mp run
    simpa using h
  | cons id more ih =>
    simp only [registerSignatures, runs_bind] at run
    obtain ⟨_, u, first, rest⟩ := run
    have both := ih (registerSignature_registers h first) rest
    rwa [List.append_assoc, ← List.filter_append] at both

theorem registerAll_registers (h : Registers source ids s) (run : Runs (registerAll source stmts) s a t) :
    Registers source (ids ++ (stmts.flatMap Stmt.signatures).filter source.isUser) t := by
  rw [registerAll_eq] at run
  exact registerSignatures_registers h run

/-! ### The top level -/

/-- What declarations and signatures keep, as they add what stands for them, holds after the top level. -/
theorem lowerAll_collects {α : Type} {P : List α → State → Prop} {top : Stmt → List α} {each : SignatureId → List α}
    (functions : ∀ name ids, top (.function name ids) = ids.flatMap each)
    (declared : ∀ {done s t id v}, P done s → Runs (declare source id) s v t → t.program.Fits →
      P (done ++ top (.declare id)) t)
    (lowered : ∀ {done s t id}, P done s → Runs (lowerSignature source id) s () t → t.program.Fits →
      P (done ++ each id) t)
    {done : List α} {stmts : List Stmt} (start : P done s) (run : Runs (lowerAll source stmts) s () t)
    (fits : t.program.Fits) : P (done ++ stmts.flatMap top) t := by
  have signatures : ∀ {ids done s t}, P done s → Runs (lowerSignatures source ids) s () t → t.program.Fits →
      P (done ++ ids.flatMap each) t := by
    intro ids
    induction ids with
    | nil =>
      intro done s t start run fits
      obtain ⟨-, rfl⟩ := runs_pure.mp run
      simpa using start
    | cons id ids ih =>
      intro done s t start run fits
      simp only [lowerSignatures, runs_bind] at run
      obtain ⟨_, u, first, rest⟩ := run
      have before := ((stepwise_lowerSignatures source ids).path rest).fits fits
      have both := ih (lowered start first before) rest fits
      rwa [List.append_assoc] at both
  fun_induction lowerAll source stmts generalizing s done with
  | case1 =>
    obtain ⟨-, rfl⟩ := runs_pure.mp run
    simpa using start
  | case2 id rest ih =>
    obtain ⟨_, u, first, rest⟩ := runs_bind.mp run
    have both := ih (declared start first (((stepwise_lowerAll ..).path rest).fits fits)) rest
    rwa [List.append_assoc] at both
  | case3 name ids rest ih =>
    obtain ⟨_, u, first, rest⟩ := runs_bind.mp run
    have both := ih (signatures start first (((stepwise_lowerAll ..).path rest).fits fits)) rest
    rwa [List.append_assoc, ← functions name ids] at both
  | case4 => exact (runs_abort run).elim

/-- What declarations and signatures keep, as more signatures are done, holds after the top level. -/
theorem lowerAll_invariant {P : List SignatureId → State → Prop}
    (declared : ∀ {done s t id v}, P done s → Runs (declare source id) s v t → t.program.Fits → P done t)
    (lowered : ∀ {done s t id}, P done s → Runs (lowerSignature source id) s () t → t.program.Fits → P (done ++ [id]) t)
    {done : List SignatureId} (start : P done s) (run : Runs (lowerAll source stmts) s () t) (fits : t.program.Fits) :
    P (done ++ stmts.flatMap Stmt.signatures) t := by
  refine lowerAll_collects (fun _ _ => (List.flatMap_singleton' _).symm) (fun before run fits => ?_) lowered start run
    fits
  simpa [Stmt.signatures] using declared before run fits

/-- What holds once the functions are registered, and declarations and signatures keep, holds after lowering. -/
theorem lower_invariant {capabilities : Capabilities} (h : lower source capabilities = .ok p) (fits : p.Fits)
    {P : List SignatureId → State → Prop}
    (start : ∀ {s}, Registers source (source.listed.filter source.isUser) s → P [] s)
    (declared : ∀ {done s t id v}, P done s → Runs (declare source id) s v t → t.program.Fits → P done t)
    (lowered : ∀ {done s t id}, P done s → Runs (lowerSignature source id) s () t → t.program.Fits →
      P (done ++ [id]) t) :
    ∃ t info, p = { t.program with info } ∧ t.program.Fits ∧ P source.listed t := by
  obtain ⟨s, t, info, registered, run, rfl⟩ := lower_ok h
  have small : t.program.Fits := ⟨fits.instrs, fits.values, fits.vars, fits.links, fits.functions⟩
  have registers := registerAll_registers (initial_registers source capabilities) registered
  exact ⟨t, info, rfl, small, lowerAll_invariant (P := P) declared lowered (start registers) run small⟩

/-- The signature has been lowered to its function. -/
def IsLowered (source : Source.Program) (s : State) (id : SignatureId) : Prop :=
  ∀ {signature}, source.signature? id = some signature → signature.isIntrinsic = false →
    signature.isDefined = true → ∃ f code, s.callees id = some f ∧
      s.program.code? f.index.toNat = some code ∧ Translates source s.callees s.program code signature.body

/-- The signatures in `done` are lowered, and every body is that of some statements. -/
structure Filled (source : Source.Program) (done : List SignatureId) (s : State) : Prop where
  bound : s.Bound
  callees : s.callees = source.functionOf?
  names : ∀ {i : Nat} {id}, (source.listed.filter source.isUser)[i]? = some id →
    (s.program.functions.map Function.name)[i]? = (source.signature? id).map Signature.name
  size : s.program.functions.size = (source.listed.filter source.isUser).length
  bodies : ∀ {i : Nat} {code}, s.program.code? i = some code →
    ∃ stmts, Translates source s.callees s.program code stmts
  done : ∀ id ∈ done, IsLowered source s id

theorem Registers.filled (h : Registers source (source.listed.filter source.isUser) s) :
    Filled source [] s where
  bound := fun _ _ found => absurd found h.unbound
  callees := funext h.callees
  names := h.names
  size := h.size
  bodies := by simp [h.empty]
  done := by simp

theorem size_eq_of_names {q : Target.Program} (h : q.functions.map Function.name = p.functions.map Function.name) :
    q.functions.size = p.functions.size := by
  have size := congrArg Array.size h
  rwa [Array.size_map, Array.size_map] at size

namespace Filled
variable {done : List SignatureId} {id : SignatureId}

theorem declare (h : Filled source done s) {id : Source.VarId}
    (run : Runs (declare source id) s v t) : Filled source done t := by
  have kept := declare_declares run
  refine ⟨((stepwise_declare source id).path run).bound h.bound, kept.callees.trans h.callees, ?_, ?_, ?_, ?_⟩
  · intro i id there
    rw [kept.names, h.names there]
  · rw [size_eq_of_names kept.names, h.size]
  · intro i code there
    rw [kept.code?] at there
    obtain ⟨stmts, translates⟩ := h.bodies there
    exact ⟨stmts, by rw [kept.callees]; exact translates.mono kept.keeps⟩
  · intro id member signature found user defined
    obtain ⟨f, code, callee, there, translates⟩ := h.done id member found user defined
    exact ⟨f, code, by rw [kept.callees, callee], by rw [kept.code?, there],
      by rw [kept.callees]; exact translates.mono kept.keeps⟩

theorem placed (h : Filled source done s) (fits : s.program.Fits) (callee : s.callees id = some f) :
    (source.listed.filter source.isUser)[f.index.toNat]? = some id := by
  rw [h.callees] at callee
  simp only [Program.functionOf?, Option.map_eq_some_iff] at callee
  obtain ⟨i, last, rfl⟩ := callee
  have there := getElem?_of_lastPlace? last
  obtain ⟨inside, -⟩ := List.getElem?_eq_some_iff.mp there
  rw [← h.size] at inside
  rwa [UInt32.toNat_ofNat_of_lt' (Nat.lt_trans inside fits.functions)]

theorem callee_inj (h : Filled source done s) (fits : s.program.Fits) {other : SignatureId} {g : FuncId}
    (first : s.callees id = some f) (second : s.callees other = some g) (same : f.index.toNat = g.index.toNat) :
    id = other := by
  have here := h.placed fits first
  rw [same, h.placed fits second] at here
  exact (Option.some.inj here).symm

theorem grow (h : Filled source done s) (next : IsLowered source s id) : Filled source (done ++ [id]) s := by
  refine { h with done := ?_ }
  intro x member
  rcases List.mem_append.mp member with member | member
  · exact h.done x member
  · rw [List.mem_singleton.mp member]
    exact next

theorem lowerBody (h : Filled source done s) (found : source.signature? id = some signature)
    (callee : s.callees id = some f) (run : Runs (lowerBody source signature f) s () t) (fits : t.program.Fits) :
    Filled source (done ++ [id]) t := by
  have path := (stepwise_lowerBody source signature f).path run
  obtain ⟨code, lowers⟩ := lowerBody_code h.bound run fits
  have translates : Translates source t.callees t.program code signature.body := by
    rw [lowers.fills.callees]
    exact lowers.translates
  have old : ∀ {code stmts}, Translates source s.callees s.program code stmts →
      Translates source t.callees t.program code stmts := by
    intro code stmts before
    rw [lowers.fills.callees]
    exact before.mono lowers.keeps
  have next : IsLowered source t id := by
    intro other again _ _
    obtain rfl := Option.some.inj (found.symm.trans again)
    exact ⟨f, code, by rw [lowers.fills.callees, callee], lowers.fills.here, translates⟩
  refine grow ⟨path.bound h.bound, lowers.fills.callees.trans h.callees, ?_, ?_, ?_, ?_⟩ next
  · intro i x there
    rw [lowers.fills.names, h.names there]
  · rw [size_eq_of_names lowers.fills.names, h.size]
  · intro i c there
    by_cases this : f.index.toNat = i
    · rw [← this, lowers.fills.here] at there
      obtain rfl := Option.some.inj there
      exact ⟨_, translates⟩
    · rw [lowers.fills.elsewhere this] at there
      obtain ⟨stmts, before⟩ := h.bodies there
      exact ⟨stmts, old before⟩
  · intro x member sig foundX user defined
    obtain ⟨g, c, calleeX, there, before⟩ := h.done x member foundX user defined
    by_cases this : f.index.toNat = g.index.toNat
    · -- a signature that is listed again is lowered again, to the same function
      have same := h.callee_inj (path.fits fits) callee calleeX this
      subst same
      exact next foundX user defined
    · exact ⟨g, c, by rw [lowers.fills.callees, calleeX], by rw [lowers.fills.elsewhere this, there],
        old before⟩

theorem lowerSignature (h : Filled source done s) (run : Runs (lowerSignature source id) s () t)
    (fits : t.program.Fits) : Filled source (done ++ [id]) t := by
  obtain ⟨signature, found, ⟨builtin, rfl⟩ | ⟨-, f, resolved, ⟨declared, log, rfl⟩ | ⟨-, body⟩⟩⟩ :=
    lowerSignature_ok run
  · refine h.grow ?_
    intro other again user _
    obtain rfl := Option.some.inj (found.symm.trans again)
    simp [builtin] at user
  · have noted : Filled source done { s with log } := ⟨h.bound, h.callees, h.names, h.size, h.bodies, h.done⟩
    refine noted.grow ?_
    intro other again _ defined
    obtain rfl := Option.some.inj (found.symm.trans again)
    simp [declared] at defined
  · exact h.lowerBody found (Option.join_eq_some_iff.mpr resolved) body fits

end Filled

/-- After lowering, every listed signature has been lowered; the summary changes nothing that is read. -/
theorem lower_filled {capabilities : Capabilities} (h : lower source capabilities = .ok p) (fits : p.Fits) :
    ∃ t : State, Filled source source.listed t ∧ t.program.Fits ∧ t.program.Extends p ∧
      p.functions = t.program.functions := by
  obtain ⟨t, info, rfl, small, done⟩ := lower_invariant h fits (fun registers => registers.filled)
    (fun before run _ => before.declare run) fun before run fits => before.lowerSignature run fits
  exact ⟨t, done, small, ⟨id, id, id, fun _ => id⟩, rfl⟩

theorem Sample.lowers : ∃ p, lower Sample.program {} = .ok p ∧ p.Fits ∧ p.instrs.size = 14 ∧
    ∃ function ∈ p.functions, ∃ body, function.body = some body ∧ body.nodes.length = 3 := by
  have checked : (match lower Sample.program {} with
      | .ok p => decide p.Fits && p.instrs.size == 14 &&
        p.functions.any fun f => f.body.any fun b => b.nodes.length == 3
      | .error _ => false) = true := by
    decide +kernel
  cases lowered : lower Sample.program {} with
  | error e => simp [lowered] at checked
  | ok p =>
    simp only [lowered, Bool.and_eq_true, decide_eq_true_eq, beq_iff_eq, Array.any_eq_true',
      Option.any_eq_true] at checked
    obtain ⟨⟨fits, size⟩, function, member, body, has, nodes⟩ := checked
    exact ⟨p, rfl, fits, size, function, member, body, has, nodes⟩

/-! ### Scoping and effects -/

/-- A lowered program reads a value only where it is visible. -/
theorem lower_scoped {capabilities : Capabilities} {p : Target.Program} (h : lower source capabilities = .ok p)
    (fits : p.Fits) {function : Function} (member : function ∈ p.functions) {body : Body}
    (has : function.body = some body) : Scoped p body.nodes [] := by
  obtain ⟨t, filled, -, later, functions⟩ := lower_filled h fits
  obtain ⟨i, there⟩ := Array.mem_iff_getElem?.mp member
  have code : t.program.code? i = some (body.returnVar, body.nodes) := by
    rw [Target.Program.code?, ← functions, there, Option.bind_some, has, Option.map_some]
  obtain ⟨_, _, -, holds⟩ := filled.bodies code
  exact (holds later fits).1

theorem lower_scoped_sample : ∃ p, lower Sample.program {} = .ok p ∧ p.Fits ∧
    ∃ function ∈ p.functions, ∃ body, function.body = some body ∧ body.nodes.length = 3 ∧
      Scoped p body.nodes [] := by
  obtain ⟨p, lowered, fits, -, function, member, body, has, nodes⟩ := Sample.lowers
  exact ⟨p, lowered, fits, function, member, body, has, nodes, lower_scoped lowered fits member has⟩

/-- What a lowered function does besides computing values is what its statements say, in order. -/
theorem lower_skeleton {capabilities : Capabilities} {p : Target.Program}
    (h : lower source capabilities = .ok p) (fits : p.Fits) {id : SignatureId} (listed : id ∈ source.listed)
    {signature : Signature} (found : source.signature? id = some signature) (user : signature.isIntrinsic = false)
    (defined : signature.isDefined = true) :
    ∃ f function body effects, source.functionOf? id = some f ∧ p.function? f = some function ∧
      function.name = signature.name ∧ function.body = some body ∧
      stmtsSkeleton? source source.functionOf? signature.body = some effects ∧
      skeleton? p body.returnVar body.nodes = some effects := by
  obtain ⟨t, filled, small, later, functions⟩ := lower_filled h fits
  obtain ⟨f, code, callee, there, effects, read, holds⟩ := filled.done id listed found user defined
  have named := filled.names (filled.placed small callee)
  simp only [Target.Program.code?, Option.map_eq_some_iff, Option.bind_eq_some_iff] at there
  obtain ⟨body, ⟨function, stands, has⟩, rfl⟩ := there
  rw [Array.getElem?_map, stands, found, Option.map_some, Option.map_some, Option.some.injEq] at named
  rw [filled.callees] at callee read
  rw [← functions] at stands
  exact ⟨f, function, body, effects, callee, stands, named, has, read, (holds later fits).2⟩

theorem lower_skeleton_sample : ∃ p f function body, lower Sample.program {} = .ok p ∧ p.Fits ∧
    Sample.program.functionOf? ⟨1⟩ = some f ∧ p.function? f = some function ∧ function.name = "main" ∧
    function.body = some body ∧ skeleton? p body.returnVar body.nodes =
      some [.effect (.call ⟨0⟩ 0 true),
        .loop [.branch [.effect (.jump .breakLoop)] [], .effect (.store false)],
        .effect (.jump .leaveFunction)] := by
  obtain ⟨p, lowered, fits, -⟩ := Sample.lowers
  have listed : ⟨1⟩ ∈ Sample.program.listed := by decide
  obtain ⟨f, function, body, effects, callee, stands, named, has, read, left⟩ :=
    lower_skeleton lowered fits listed rfl rfl rfl
  refine ⟨p, f, function, body, lowered, fits, callee, stands, named, has, ?_⟩
  rw [left, ← read]
  rfl

end Lowering

end ShaderSSA
