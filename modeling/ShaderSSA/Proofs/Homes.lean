import Mathlib.Data.List.Nodup
import ShaderSSA.Proofs.Success
import ShaderSSA.Proofs.Upkeep

/-!
The homes of variables. A variable is listed by the globals, or by its function as a parameter or a local variable.
Lowering keeps these lists in the order in which the variables are made.
-/

namespace ShaderSSA
variable {f : FuncId}

namespace Source

def VarMode.notParameter (mode : VarMode) : Bool := !mode.isParameter

/-- The statements declare variables of the allowed modes only. -/
def Program.declaresOnly (source : Program) (allowed : VarMode → Bool) (stmts : List Stmt) : Bool :=
  (stmtsDeclared stmts).all fun id => (source.var? id).all fun decl => allowed decl.mode

theorem Program.declaresOnly.allowed {source : Program} {allowed : VarMode → Bool} {stmts : List Stmt}
    (only : source.declaresOnly allowed stmts = true) {id : VarId} (member : id ∈ stmtsDeclared stmts) {decl : VarDecl}
    (found : source.var? id = some decl) : allowed decl.mode = true := by
  have holds := List.all_eq_true.mp only id member
  rwa [found] at holds

end Source

namespace Target

variable {body : Option Body} {i : Nat} {p q r : Program} {v : VarId} {x : Variable} {change : Body → Body}
  {g : Function} {owner : Option FuncId}

/-! ### Variables that pass a test -/

/-- The handles of the variables that pass the test, in order. -/
def handlesWhere (vars : Array Variable) (test : Variable → Bool) : List VarId :=
  ((List.range vars.size).filter fun i => vars[i]?.any test).map fun i => ⟨UInt32.ofNat i⟩

section
variable {vars : Array Variable} {test : Variable → Bool}

theorem handlesWhere_push (x : Variable) : handlesWhere (vars.push x) test =
    handlesWhere vars test ++ if test x then [⟨UInt32.ofNat vars.size⟩] else [] := by
  have before : ∀ i ∈ List.range vars.size, ((vars.push x)[i]?.any test) = vars[i]?.any test := by
    intro i member
    rw [Array.getElem?_push, if_neg (Nat.ne_of_lt (List.mem_range.mp member))]
  rw [handlesWhere, Array.size_push, List.range_succ, List.filter_append, List.map_append, List.filter_congr before]
  congr 1
  by_cases pass : test x = true
  · simp [pass]
  · simp [pass]

theorem mem_handlesWhere (small : vars.size < UInt32.size) :
    v ∈ handlesWhere vars test ↔ ∃ x, vars[v.index.toNat]? = some x ∧ test x = true := by
  simp only [handlesWhere, List.mem_map, List.mem_filter, List.mem_range, Option.any_eq_true]
  constructor
  · rintro ⟨i, ⟨below, x, found, pass⟩, rfl⟩
    refine ⟨x, ?_, pass⟩
    rw [UInt32.toNat_ofNat_of_lt' (Nat.lt_trans below small)]
    exact found
  · rintro ⟨x, found, pass⟩
    obtain ⟨below, -⟩ := Array.getElem?_eq_some_iff.mp found
    exact ⟨v.index.toNat, ⟨below, x, found, pass⟩, by rw [UInt32.ofNat_toNat]⟩

theorem nodup_handlesWhere (small : vars.size < UInt32.size) : (handlesWhere vars test).Nodup := by
  refine List.Nodup.map_on (fun i first j second same => ?_) (List.nodup_range.filter _)
  have below := List.mem_range.mp (List.mem_filter.mp first).1
  have below' := List.mem_range.mp (List.mem_filter.mp second).1
  have numbers := congrArg (fun v : VarId => v.index.toNat) same
  dsimp only at numbers
  rwa [UInt32.toNat_ofNat_of_lt' (Nat.lt_trans below small),
    UInt32.toNat_ofNat_of_lt' (Nat.lt_trans below' small)] at numbers

end

/-! ### What functions list -/

def Function.vars (f : Function) : List VarId := (f.body.map fun b => b.params.toList ++ b.locals.toList).getD []

namespace Program

def body? (p : Program) (f : FuncId) : Option Body := (p.function? f).bind Function.body

def paramsOf (p : Program) (f : FuncId) : List VarId := ((p.body? f).map fun b => b.params.toList).getD []

def localsOf (p : Program) (f : FuncId) : List VarId := ((p.body? f).map fun b => b.locals.toList).getD []

theorem body?_of_found (found : p.functions[f.index.toNat]? = some g) : p.body? f = g.body := by
  rw [body?, function?, found, Option.bind_some]

theorem body?_set (found : p.functions[f.index.toNat]? = some g)
    (written : q.functions = p.functions.setIfInBounds f.index.toNat { g with body }) (e : FuncId) :
    q.body? e = if e = f then body else p.body? e := by
  obtain ⟨below, -⟩ := Array.getElem?_eq_some_iff.mp found
  rw [body?, function?, written]
  split
  · rename_i here
    rw [here, Array.getElem?_setIfInBounds_self_of_lt below]
    rfl
  · rename_i apart
    have other : f.index.toNat ≠ e.index.toNat := fun same =>
      apart (congrArg FuncId.mk (UInt32.toNat_inj.mp same.symm))
    rw [Array.getElem?_setIfInBounds_ne other]
    rfl

theorem setBody_bodies (written : p.setBody f body = .ok q) :
    q.vars = p.vars ∧ q.globals = p.globals ∧ ∀ e, q.body? e = if e = f then body else p.body? e := by
  obtain ⟨g, found, rfl⟩ := setBody_ok written
  exact ⟨rfl, rfl, body?_set found rfl⟩

theorem modifyBody_bodies (changed : p.modifyBody f change = .ok q) :
    ∃ b, p.body? f = some b ∧ q.vars = p.vars ∧ q.globals = p.globals ∧
      ∀ e, q.body? e = if e = f then some (change b) else p.body? e := by
  obtain ⟨b, read, written⟩ := modifyBody_setBody changed
  obtain ⟨g, found, body⟩ := getBody_ok read
  exact ⟨b, (body?_of_found found).trans body, setBody_bodies written⟩

theorem addVariable_bodies (added : p.addVariable x owner = (.ok v, q)) :
    v = ⟨UInt32.ofNat p.vars.size⟩ ∧
      ((∃ f b, x.storage = .functionLocal ∧ owner = some f ∧ p.body? f = some b ∧
          q.vars = p.vars.push { x with owner := some f } ∧ q.globals = p.globals ∧
          ∀ e, q.body? e = if e = f then some { b with locals := b.locals.push v } else p.body? e) ∨
       (∃ f, x.storage = .param ∧ owner = some f ∧ q.vars = p.vars.push { x with owner := some f } ∧
          q.globals = p.globals ∧ ∀ e, q.body? e = p.body? e) ∨
       (x.storage.isFunctionOwned = false ∧ q.vars = p.vars.push { x with owner := none } ∧
          q.globals = p.globals.push v ∧ ∀ e, q.body? e = p.body? e)) := by
  obtain ⟨rfl, ⟨f, g, b, stored, rfl, found, body, rfl⟩ | ⟨f, stored, rfl, rfl⟩ | ⟨free, rfl⟩⟩ := addVariable_ok added
  · exact ⟨rfl, .inl ⟨f, b, stored, rfl, (body?_of_found found).trans body, rfl, rfl, body?_set found rfl⟩⟩
  · exact ⟨rfl, .inr (.inl ⟨f, stored, rfl, rfl, rfl, fun _ => rfl⟩)⟩
  · exact ⟨rfl, .inr (.inr ⟨free, rfl, rfl, fun _ => rfl⟩)⟩

theorem exists_body_of_mem_paramsOf (member : v ∈ p.paramsOf f) : ∃ b, p.body? f = some b := by
  cases body : p.body? f with
  | none => simp [paramsOf, body] at member
  | some b => exact ⟨b, rfl⟩

theorem exists_body_of_mem_localsOf (member : v ∈ p.localsOf f) : ∃ b, p.body? f = some b := by
  cases body : p.body? f with
  | none => simp [localsOf, body] at member
  | some b => exact ⟨b, rfl⟩

def isLocalOf (f : FuncId) (x : Variable) : Bool := x.storage = .functionLocal && x.owner = some f

def isParamOf (f : FuncId) (x : Variable) : Bool := x.storage = .param && x.owner = some f

/-- Every variable is listed where it belongs, in the order of the arena. -/
structure Homes (p : Program) : Prop where
  globals : p.globals.toList = handlesWhere p.vars fun x => !x.storage.isFunctionOwned
  locals : ∀ f, p.localsOf f = handlesWhere p.vars (isLocalOf f)
  params : ∀ f, p.paramsOf f = handlesWhere p.vars (isParamOf f)
  owners : ∀ x ∈ p.vars, x.storage.isFunctionOwned = x.owner.isSome

namespace Homes
variable {p q : Program} {f : FuncId}

theorem congr (h : p.Homes) (vars : q.vars = p.vars) (globals : q.globals = p.globals)
    (bodies : ∀ f, q.body? f = p.body? f) : q.Homes := by
  refine ⟨by rw [globals, vars, h.globals], fun f => ?_, fun f => ?_, by rw [vars]; exact h.owners⟩
  · rw [localsOf, bodies, vars]
    exact h.locals f
  · rw [paramsOf, bodies, vars]
    exact h.params f

theorem push (h : p.Homes) (owned : x.storage.isFunctionOwned = x.owner.isSome) (vars : q.vars = p.vars.push x)
    (globals : q.globals.toList = p.globals.toList ++
      if !x.storage.isFunctionOwned then [⟨UInt32.ofNat p.vars.size⟩] else [])
    (locals : ∀ f, q.localsOf f = p.localsOf f ++ if isLocalOf f x then [⟨UInt32.ofNat p.vars.size⟩] else [])
    (params : ∀ f, q.paramsOf f = p.paramsOf f ++ if isParamOf f x then [⟨UInt32.ofNat p.vars.size⟩] else []) :
    q.Homes := by
  refine ⟨?_, fun f => ?_, fun f => ?_, fun y member => ?_⟩
  · rw [globals, vars, handlesWhere_push, h.globals]
  · rw [locals, vars, handlesWhere_push, h.locals]
  · rw [params, vars, handlesWhere_push, h.params]
  · rw [vars] at member
    rcases Array.mem_push.mp member with member | rfl
    · exact h.owners y member
    · exact owned

theorem add (h : p.Homes) (added : p.addVariable x owner = (.ok v, q)) (stored : x.storage ≠ .param) : q.Homes := by
  obtain ⟨rfl, ⟨f, b, isLocal, rfl, here, vars, globals, bodies⟩ | ⟨f, isParam, -⟩ | ⟨free, vars, globals, bodies⟩⟩ :=
    addVariable_bodies added
  · refine h.push (by simp [isLocal, StorageClass.isFunctionOwned]) vars ?_ (fun e => ?_) fun e => ?_
    · simp [globals, isLocal, StorageClass.isFunctionOwned]
    · rw [localsOf, localsOf, bodies]
      by_cases same : e = f
      · simp [same, here, isLocalOf, isLocal]
      · simp [same, isLocalOf, Ne.symm same]
    · rw [paramsOf, paramsOf, bodies]
      by_cases same : e = f
      · simp [same, here, isParamOf, isLocal]
      · simp [same, isParamOf, isLocal]
  · exact absurd isParam stored
  · refine h.push free vars (by simp [globals, free]) (fun e => ?_) fun e => ?_
    · simp [localsOf, bodies, isLocalOf]
    · simp [paramsOf, bodies, isParamOf]

theorem addParam (h : p.Homes) (added : p.addVariable x (some f) = (.ok v, q)) (stored : x.storage = .param)
    (listed : q.modifyBody f (fun b => { b with params := b.params.push v }) = .ok r) : r.Homes := by
  obtain ⟨rfl, ⟨e, b, isLocal, -⟩ | ⟨e, -, same, vars, globals, bodies⟩ | ⟨free, -⟩⟩ := addVariable_bodies added
  · simp [stored] at isLocal
  · obtain rfl := Option.some.inj same
    obtain ⟨b, here, vars', globals', bodies'⟩ := modifyBody_bodies listed
    rw [bodies] at here
    refine h.push (by simp [stored, StorageClass.isFunctionOwned]) (vars'.trans vars) ?_ (fun e => ?_) fun e => ?_
    · simp [globals', globals, stored, StorageClass.isFunctionOwned]
    · rw [localsOf, localsOf, bodies', bodies]
      by_cases same : e = f
      · simp [same, here, isLocalOf, stored]
      · simp [same, isLocalOf, stored]
    · rw [paramsOf, paramsOf, bodies', bodies]
      by_cases same : e = f
      · simp [same, here, isParamOf, stored]
      · simp [same, isParamOf, Ne.symm same]
  · simp [stored, StorageClass.isFunctionOwned] at free

theorem rewrite (h : p.Homes) (vars : q.vars = p.vars) (globals : q.globals = p.globals)
    (bodies : ∀ e, q.body? e = if e = f then body else p.body? e)
    (params : (body.map fun b => b.params.toList).getD [] = p.paramsOf f)
    (locals : (body.map fun b => b.locals.toList).getD [] = p.localsOf f) : q.Homes := by
  refine ⟨by rw [globals, vars, h.globals], fun e => ?_, fun e => ?_, by rw [vars]; exact h.owners⟩
  · rw [vars, ← h.locals e, localsOf, bodies]
    by_cases same : e = f
    · rw [if_pos same, locals, same]
    · rw [if_neg same, localsOf]
  · rw [vars, ← h.params e, paramsOf, bodies]
    by_cases same : e = f
    · rw [if_pos same, params, same]
    · rw [if_neg same, paramsOf]

/-! ### Where a variable is listed -/

section
variable (h : p.Homes) (fits : p.Fits)
include h fits

theorem mem_globals_iff (found : p.var? v = some x) :
    v ∈ p.globals ↔ x.storage.isFunctionOwned = false ∧ x.owner = none := by
  have owned := h.owners x (Array.mem_of_getElem? found)
  have there : p.vars[v.index.toNat]? = some x := found
  rw [← Array.mem_toList_iff, h.globals, mem_handlesWhere fits.vars, there]
  cases owner : x.owner <;> simp_all

theorem mem_localsOf_iff (found : p.var? v = some x) :
    v ∈ p.localsOf f ↔ x.storage = .functionLocal ∧ x.owner = some f := by
  have there : p.vars[v.index.toNat]? = some x := found
  rw [h.locals, mem_handlesWhere fits.vars, there]
  simp [isLocalOf]

theorem mem_paramsOf_iff (found : p.var? v = some x) : v ∈ p.paramsOf f ↔ x.storage = .param ∧ x.owner = some f := by
  have there : p.vars[v.index.toNat]? = some x := found
  rw [h.params, mem_handlesWhere fits.vars, there]
  simp [isParamOf]

theorem vars_eq (below : i < p.functions.size) :
    (p.functions[i]).vars = handlesWhere p.vars (isParamOf ⟨UInt32.ofNat i⟩) ++
      handlesWhere p.vars (isLocalOf ⟨UInt32.ofNat i⟩) := by
  have body : p.body? ⟨UInt32.ofNat i⟩ = (p.functions[i]).body := by
    rw [body?, function?, UInt32.toNat_ofNat_of_lt' (Nat.lt_trans below fits.functions),
      Array.getElem?_eq_getElem below, Option.bind_some]
  rw [← h.params, ← h.locals, paramsOf, localsOf, Function.vars, body]
  cases (p.functions[i]).body <;> rfl

theorem owner_of_mem_vars (below : i < p.functions.size) (member : v ∈ (p.functions[i]).vars) :
    ∃ x, p.vars[v.index.toNat]? = some x ∧ x.storage.isFunctionOwned = true ∧ x.owner = some ⟨UInt32.ofNat i⟩ := by
  rw [h.vars_eq fits below, List.mem_append, mem_handlesWhere fits.vars, mem_handlesWhere fits.vars] at member
  rcases member with ⟨x, found, pass⟩ | ⟨x, found, pass⟩
  · simp only [isParamOf, Bool.and_eq_true, decide_eq_true_eq] at pass
    exact ⟨x, found, by rw [pass.1]; rfl, pass.2⟩
  · simp only [isLocalOf, Bool.and_eq_true, decide_eq_true_eq] at pass
    exact ⟨x, found, by rw [pass.1]; rfl, pass.2⟩

theorem nodup_vars (below : i < p.functions.size) : (p.functions[i]).vars.Nodup := by
  rw [h.vars_eq fits below, List.nodup_append]
  refine ⟨nodup_handlesWhere fits.vars, nodup_handlesWhere fits.vars, fun v first w second same => ?_⟩
  subst same
  obtain ⟨x, found, isParam⟩ := (mem_handlesWhere fits.vars).mp first
  obtain ⟨y, again, isLocal⟩ := (mem_handlesWhere fits.vars).mp second
  obtain rfl := Option.some.inj (found.symm.trans again)
  simp only [isParamOf, isLocalOf, Bool.and_eq_true, decide_eq_true_eq] at isParam isLocal
  simp [isParam.1] at isLocal

theorem mem_vars_of_owner (found : p.vars[v.index.toNat]? = some x) (owned : x.storage.isFunctionOwned = true) :
    ∃ f ∈ p.functions.toList, v ∈ f.vars := by
  obtain ⟨f, owner⟩ := Option.isSome_iff_exists.mp ((h.owners x (Array.mem_of_getElem? found)).symm.trans owned)
  have listed : v ∈ p.paramsOf f ∨ v ∈ p.localsOf f := by
    rw [h.mem_paramsOf_iff fits found, h.mem_localsOf_iff fits found]
    cases storage : x.storage <;> simp_all [StorageClass.isFunctionOwned]
  have inBody : ∃ b, p.body? f = some b := by
    rcases listed with member | member
    · exact exists_body_of_mem_paramsOf member
    · exact exists_body_of_mem_localsOf member
  obtain ⟨b, here⟩ := inBody
  obtain ⟨g, there, body⟩ := Option.bind_eq_some_iff.mp here
  refine ⟨g, Array.mem_toList_iff.mpr (Array.mem_of_getElem? there), ?_⟩
  simpa [Function.vars, paramsOf, localsOf, here, body] using listed

theorem nodup_listed : (p.globals.toList ++ p.functions.toList.flatMap Function.vars).Nodup := by
  rw [List.nodup_append, List.nodup_flatMap]
  refine ⟨h.globals ▸ nodup_handlesWhere fits.vars, ⟨fun f member => ?_, ?_⟩, fun v first w second same => ?_⟩
  · obtain ⟨i, below, rfl⟩ := Array.mem_iff_getElem.mp (Array.mem_toList_iff.mp member)
    exact h.nodup_vars fits below
  · rw [List.pairwise_iff_getElem]
    intro i j first second apart v here there
    simp only [Array.length_toList] at first second
    simp only [Array.getElem_toList] at here there
    obtain ⟨x, found, -, owner⟩ := h.owner_of_mem_vars fits first here
    obtain ⟨y, again, -, other⟩ := h.owner_of_mem_vars fits second there
    obtain rfl := Option.some.inj (found.symm.trans again)
    have same := congrArg (fun f : FuncId => f.index.toNat) (Option.some.inj (owner.symm.trans other))
    dsimp only at same
    rw [UInt32.toNat_ofNat_of_lt' (Nat.lt_trans first fits.functions),
      UInt32.toNat_ofNat_of_lt' (Nat.lt_trans second fits.functions)] at same
    omega
  · subst same
    rw [h.globals] at first
    obtain ⟨x, found, free⟩ := (mem_handlesWhere fits.vars).mp first
    obtain ⟨f, member, here⟩ := List.mem_flatMap.mp second
    obtain ⟨i, below, rfl⟩ := Array.mem_iff_getElem.mp (Array.mem_toList_iff.mp member)
    obtain ⟨y, again, owned, -⟩ := h.owner_of_mem_vars fits below here
    obtain rfl := Option.some.inj (found.symm.trans again)
    simp [owned] at free

theorem listed_perm : (p.globals.toList ++ p.functions.toList.flatMap Function.vars).Perm
    ((List.range p.vars.size).map fun i => ⟨UInt32.ofNat i⟩) := by
  have all : ((List.range p.vars.size).map fun i => VarId.mk (UInt32.ofNat i)) = handlesWhere p.vars fun _ => true := by
    rw [handlesWhere, List.filter_eq_self.mpr]
    intro i member
    rw [Array.getElem?_eq_getElem (List.mem_range.mp member)]
    rfl
  rw [all, List.perm_ext_iff_of_nodup (h.nodup_listed fits) (nodup_handlesWhere fits.vars)]
  intro v
  rw [List.mem_append, List.mem_flatMap, h.globals, mem_handlesWhere fits.vars, mem_handlesWhere fits.vars]
  constructor
  · rintro (⟨x, found, -⟩ | ⟨f, member, here⟩)
    · exact ⟨x, found, rfl⟩
    · obtain ⟨i, below, rfl⟩ := Array.mem_iff_getElem.mp (Array.mem_toList_iff.mp member)
      obtain ⟨x, found, -⟩ := h.owner_of_mem_vars fits below here
      exact ⟨x, found, rfl⟩
  · rintro ⟨x, found, -⟩
    by_cases owned : x.storage.isFunctionOwned = true
    · exact .inr (h.mem_vars_of_owner fits found owned)
    · exact .inl ⟨x, found, by simpa using owned⟩

end

end Homes

end Program

/-- The function `f` is being filled: variables are at home, the other functions are as before, and the return variable
is a local one. -/
structure Program.Fills (f : FuncId) (others : FuncId → Option Body) (result : Option VarId) (p : Program) : Prop where
  homes : p.Homes
  elsewhere : ∀ e, e ≠ f → p.body? e = others e
  here : ∃ b, p.body? f = some b ∧ b.returnVar = result ∧ ∀ v, result = some v → v ∈ b.locals

namespace Program.Fills
variable {f : FuncId} {others : FuncId → Option Body} {result : Option VarId} {p q : Program}

theorem congr (h : p.Fills f others result) (vars : q.vars = p.vars) (globals : q.globals = p.globals)
    (functions : q.functions = p.functions) : q.Fills f others result := by
  have bodies : ∀ e, q.body? e = p.body? e := by
    intro e
    rw [body?, body?, function?, function?, functions]
  exact ⟨h.homes.congr vars globals bodies, fun e apart => (bodies e).trans (h.elsewhere e apart),
    by rw [bodies]; exact h.here⟩

theorem add (h : p.Fills f others result) (stored : x.storage ≠ .param)
    (added : p.addVariable x (some f) = (.ok v, q)) : q.Fills f others result ∧
      (x.storage = .functionLocal → ∃ b, q.body? f = some b ∧ v ∈ b.locals) := by
  have homes := h.homes.add added stored
  obtain ⟨b, here, returned, isLocal⟩ := h.here
  obtain ⟨rfl, ⟨e, c, -, same, there, -, -, bodies⟩ | ⟨e, isParam, -⟩ | ⟨free, -, -, bodies⟩⟩ :=
    addVariable_bodies added
  · obtain rfl := Option.some.inj same
    obtain rfl := Option.some.inj (here.symm.trans there)
    refine ⟨⟨homes, fun e apart => ?_, _, (bodies f).trans (if_pos rfl), returned, fun v there => ?_⟩, fun _ => ?_⟩
    · rw [bodies, if_neg apart, h.elsewhere e apart]
    · exact Array.mem_push.mpr (.inl (isLocal v there))
    · exact ⟨_, (bodies f).trans (if_pos rfl), Array.mem_push_self⟩
  · exact absurd isParam stored
  · refine ⟨⟨homes, fun e apart => (bodies e).trans (h.elsewhere e apart), b, (bodies f).trans here, returned, isLocal⟩,
      fun isLocal => ?_⟩
    simp [isLocal, StorageClass.isFunctionOwned] at free

theorem modifyBody (h : p.Fills f others result) {result' : Option VarId} (changed : p.modifyBody f change = .ok q)
    (params : ∀ b, (change b).params = b.params) (locals : ∀ b, (change b).locals = b.locals)
    (returned : ∀ b, p.body? f = some b → (change b).returnVar = result' ∧ ∀ v, result' = some v → v ∈ b.locals) :
    q.Fills f others result' := by
  obtain ⟨b, here, vars, globals, bodies⟩ := modifyBody_bodies changed
  obtain ⟨isReturn, isLocal⟩ := returned b here
  refine ⟨h.homes.rewrite vars globals bodies ?_ ?_, fun e apart => ?_, change b, (bodies f).trans (if_pos rfl),
    isReturn, by rw [locals]; exact isLocal⟩
  · rw [paramsOf, here, Option.map_some, Option.map_some, params]
  · rw [localsOf, here, Option.map_some, Option.map_some, locals]
  · rw [bodies, if_neg apart, h.elsewhere e apart]

theorem addParam (h : p.Fills f others result) (added : p.addVariable x (some f) = (.ok v, q))
    (stored : x.storage = .param) (listed : q.modifyBody f (fun b => { b with params := b.params.push v }) = .ok r) :
    r.Fills f others result := by
  have homes := h.homes.addParam added stored listed
  obtain ⟨b, here, returned, isLocal⟩ := h.here
  obtain ⟨c, there, -, -, bodies'⟩ := modifyBody_bodies listed
  obtain ⟨rfl, ⟨e, b', isLocal, -⟩ | ⟨e, -, same, -, -, bodies⟩ | ⟨free, -⟩⟩ := addVariable_bodies added
  · simp [stored] at isLocal
  · rw [bodies, here] at there
    obtain rfl := Option.some.inj there
    refine ⟨homes, fun e apart => ?_, _, (bodies' f).trans (if_pos rfl), returned, isLocal⟩
    rw [bodies', if_neg apart, bodies, h.elsewhere e apart]
  · simp [stored, StorageClass.isFunctionOwned] at free

end Program.Fills

theorem Program.Homes.setBody (h : p.Homes) (vacant : p.body? f = none)
    (emptied : p.setBody f (some {}) = .ok q) : q.Fills f p.body? none := by
  obtain ⟨vars, globals, bodies⟩ := setBody_bodies emptied
  refine ⟨h.rewrite vars globals bodies ?_ ?_, fun e apart => (bodies e).trans (if_neg apart), {},
    (bodies f).trans (if_pos rfl), rfl, nofun⟩
  · rw [paramsOf, vacant]
    rfl
  · rw [localsOf, vacant]
    rfl

end Target

namespace Lowering
open Source Target Lower

variable {source : Source.Program} {s t : State} {others : FuncId → Option Body} {signature : Signature}
  {p : Target.Program} {result : Option Target.VarId} {stmts : List Stmt}

/-! ### Bodies -/

theorem declareParams_fills {ids : List Source.VarId} (h : s.program.Fills f others result)
    (inside : s.scope.current = some f) (run : Runs (declareParams source signature f ids) s () t)
    (fits : t.program.Fits) : t.program.Fills f others result := by
  induction ids generalizing s with
  | nil =>
    obtain ⟨-, rfl⟩ := runs_pure.mp run
    exact h
  | cons id ids ih =>
    obtain ⟨v, u, x, q, declared, found, isParam, listed, rest⟩ := declareParams_ok run
    have later := ((stepwise_declareParams ..).path rest).fits fits
    have small : u.program.Fits := .of_noLarger later (Program.modifyBody_noLarger listed)
    have kept := (declare_declares declared).current
    obtain ⟨decl, y, p, scope, log, -, -, added, -, rfl⟩ := declare_ok declared
    obtain ⟨owner, there⟩ := Program.addVariable_found added small.vars
    have stored : y.storage = .param := by
      rw [Target.Program.getVariable, there] at found
      obtain rfl := Except.ok.inj found
      exact isParam
    rw [inside] at added
    refine ih ?_ ?_ rest
    · exact h.addParam added stored listed
    · exact kept.trans inside

theorem declareReturn_fills {type : ShaderType} (h : s.program.Fills f others none)
    (run : Runs (declareReturn f type) s () t) :
    ∃ result, t.program.Fills f others result ∧ result.isSome = !type.isVoid := by
  obtain ⟨void, rfl⟩ | ⟨valued, v, u, addRun, changed⟩ := declareReturn_ok run
  · exact ⟨none, h, by simp [void]⟩
  · obtain ⟨p, added, rfl⟩ := addVariable_ok addRun
    obtain ⟨q, written, rfl⟩ := modifyBody_ok changed
    obtain ⟨listed, isLocal⟩ := h.add (by simp) added
    obtain ⟨b, here, member⟩ := isLocal rfl
    refine ⟨some v, listed.modifyBody written (fun _ => rfl) (fun _ => rfl) fun c there => ⟨rfl, ?_⟩, by simp [valued]⟩
    obtain rfl := Option.some.inj (here.symm.trans there)
    rintro w same
    exact Option.some.inj same ▸ member

theorem head_fills (homes : s.program.Homes) (vacant : s.program.body? f = none)
    (head : Heads source signature f s t) (fits : t.program.Fits) : t.scope.current = some f ∧
      ∃ result, t.program.Fills f s.program.body? result ∧ result.isSome = !signature.returnType.isVoid := by
  obtain ⟨p, u, emptied, params, returned⟩ := head
  have listed := declareParams_fills (homes.setBody vacant emptied) rfl params
    (((stepwise_declareReturn ..).path returned).fits fits)
  refine ⟨?_, declareReturn_fills listed returned⟩
  rw [declareReturn_scope returned]
  exact (declareParams_declares params).current

theorem lowerStmts_fills (plain : source.declaresOnly VarMode.notParameter stmts = true)
    (run : Runs (lowerStmts source stmts) s () t) (inside : s.scope.current = some f)
    (h : s.program.Fills f others result) : t.program.Fills f others result := by
  have keeps : Upkeep (some f) (· ≠ .param) (fun _ => True) fun p _ => p.Fills f others result :=
    ⟨fun h => h.congr, by simp, fun h stored added => (h.add stored added).1, fun h _ _ => h⟩
  refine keeps.lowerStmts (fun id member => ⟨trivial, fun decl found => ?_⟩) run inside h
  have notParam := Program.declaresOnly.allowed plain member found
  cases mode : decl.mode <;> simp_all [storageOf, VarMode.notParameter, VarMode.isParameter]
  split <;> simp

theorem lowerBody_fills (homes : s.program.Homes) (vacant : s.program.body? f = none)
    (plain : source.declaresOnly VarMode.notParameter signature.body = true)
    (run : Runs (lowerBody source signature f) s () t) (fits : t.program.Fits) :
    ∃ result, t.program.Fills f s.program.body? result ∧ result.isSome = !signature.returnType.isVoid := by
  obtain ⟨v, w, q, log, ⟨head, before⟩, ⟨stmts, -⟩, changed, rfl⟩ := lowerBody_fitting run fits
  obtain ⟨inside, result, headed, present⟩ := head_fills homes vacant head before
  have filled := lowerStmts_fills plain stmts inside headed
  refine ⟨result, filled.modifyBody changed (fun _ => rfl) (fun _ => rfl) fun b there => ?_, present⟩
  obtain ⟨c, here, isReturn, isLocal⟩ := filled.here
  obtain rfl := Option.some.inj (here.symm.trans there)
  exact ⟨isReturn, isLocal⟩

/-! ### The top level -/

/-- The signatures in `done` have filled their functions, and those behind them have not. -/
structure Homed (source : Source.Program) (done : List SignatureId) (s : State) : Prop where
  homes : s.program.Homes
  vacant : ∀ {id f}, id ∉ done → s.callees id = some f → s.program.body? f = none
  present : ∀ {f b}, s.program.body? f = some b → ∃ id ∈ done, s.callees id = some f ∧
    ∃ signature, source.signature? id = some signature ∧ b.returnVar.isSome = !signature.returnType.isVoid
  returned : ∀ {f b v}, s.program.body? f = some b → b.returnVar = some v → v ∈ b.locals

theorem body?_of_code? (empty : p.code? f.index.toNat = none) : p.body? f = none := by
  rw [Program.code?, Option.map_eq_none_iff] at empty
  exact empty

theorem Registers.homed {ids : List SignatureId} (registers : Registers source ids s) : Homed source [] s := by
  have vars := registers.vars
  have bodies : ∀ f, s.program.body? f = none := fun f => body?_of_code? (registers.empty _)
  refine ⟨⟨?_, fun f => ?_, fun f => ?_, ?_⟩, fun _ _ => bodies _, fun there => ?_, fun there => ?_⟩
  · rw [registers.globals, vars]
    rfl
  · rw [vars, Program.localsOf, bodies]
    rfl
  · rw [vars, Program.paramsOf, bodies]
    rfl
  · rw [vars]
    intro x member
    cases member
    contradiction
  · rw [bodies] at there
    cases there
  · rw [bodies] at there
    cases there

theorem declare_bodies (outside : s.scope.current = none) {id : Source.VarId} {v : Target.VarId}
    (run : Runs (declare source id) s v t) (f : FuncId) : t.program.body? f = s.program.body? f := by
  obtain ⟨decl, x, p, scope, log, -, -, added, -, rfl⟩ := declare_ok run
  rw [outside] at added
  obtain ⟨-, ⟨g, b, -, same, -⟩ | ⟨g, -, same, -⟩ | ⟨-, -, -, bodies⟩⟩ := Program.addVariable_bodies added
  · cases same
  · cases same
  · exact bodies f

namespace Homed
variable {done : List SignatureId}

theorem declare (h : Homed source done s) (outside : s.scope.current = none) {id : Source.VarId} {v : Target.VarId}
    (run : Runs (declare source id) s v t) : Homed source done t := by
  have callees := (declare_declares run).callees
  have bodies := declare_bodies outside run
  have homes : t.program.Homes := by
    obtain ⟨decl, x, p, scope, log, -, -, added, -, rfl⟩ := declare_ok run
    refine h.homes.add added fun isParam => ?_
    rw [outside] at added
    obtain ⟨-, ⟨g, b, -, same, -⟩ | ⟨g, -, same, -⟩ | ⟨free, -⟩⟩ := Program.addVariable_bodies added
    · cases same
    · cases same
    · simp [isParam, StorageClass.isFunctionOwned] at free
  refine ⟨homes, fun later callee => ?_, fun there => ?_, fun there => ?_⟩
  · rw [bodies]
    exact h.vacant later (callees ▸ callee)
  · rw [bodies] at there
    rw [callees]
    exact h.present there
  · rw [bodies] at there
    exact h.returned there

theorem skip (h : Homed source done s) (id : SignatureId) : Homed source (done ++ [id]) s := by
  refine { h with vacant := fun absent => h.vacant fun member => absent (List.mem_append_left _ member), present := ?_ }
  intro f b there
  obtain ⟨other, member, found⟩ := h.present there
  exact ⟨other, List.mem_append_left _ member, found⟩

theorem lowerBody (h : Homed source done s) (filled : Filled source done s) {id : SignatureId} (later : id ∉ done)
    (found : source.signature? id = some signature)
    (plain : source.declaresOnly VarMode.notParameter signature.body = true)
    (callee : s.callees id = some f) (run : Runs (lowerBody source signature f) s () t) (fits : t.program.Fits) :
    Homed source (done ++ [id]) t := by
  have small := ((stepwise_lowerBody ..).path run).fits fits
  obtain ⟨code, lowers⟩ := lowerBody_code filled.bound run fits
  have callees := lowers.fills.callees
  obtain ⟨result, fills, present⟩ := lowerBody_fills h.homes (h.vacant later callee) plain run fits
  obtain ⟨b, here, isReturn, isLocal⟩ := fills.here
  refine ⟨fills.homes, fun {other g} absent callee' => ?_, fun {g c} there => ?_, fun {g c v} there returned => ?_⟩
  · rw [callees] at callee'
    rw [List.mem_append, List.mem_singleton, not_or] at absent
    rw [fills.elsewhere g]
    · exact h.vacant absent.1 callee'
    · rintro rfl
      exact absent.2 (filled.callee_inj small callee' callee rfl)
  · rw [callees]
    by_cases same : g = f
    · subst same
      obtain rfl := Option.some.inj (here.symm.trans there)
      exact ⟨id, List.mem_append_right _ (List.mem_singleton_self id), callee, signature, found, isReturn ▸ present⟩
    · rw [fills.elsewhere g same] at there
      obtain ⟨other, member, known⟩ := h.present there
      exact ⟨other, List.mem_append_left _ member, known⟩
  · by_cases same : g = f
    · subst same
      obtain rfl := Option.some.inj (here.symm.trans there)
      exact isLocal v (isReturn.symm.trans returned)
    · rw [fills.elsewhere g same] at there
      exact h.returned there returned

end Homed

end Lowering

end ShaderSSA
