import Mathlib.Data.List.Pairwise
import ShaderSSA.Proofs.Handles
import ShaderSSA.Proofs.Homes
import ShaderSSA.Proofs.Twins

/-!
Whose variables a body reaches. If every variable is declared once, and a body refers only to variables of the top level
and of its own signature, then the chains that it names start at its own variables or at variables without an owner.
-/

namespace ShaderSSA
variable {x : Variable}

namespace Source

variable {source : Program}

namespace Program

/-- The variables that are declared, at the top level and by the signatures that it lists. -/
def declarations (source : Program) : List VarId :=
  stmtsDeclared source.statements ++ source.listed.flatMap source.declaredBy

/-- The variable is one of the top level or of the signature. -/
def inScope (source : Program) (id : SignatureId) (v : VarId) : Bool :=
  v ∈ stmtsDeclared source.statements || v ∈ source.declaredBy id

/-- No variable is declared twice, and every body refers to variables in its scope. -/
structure Separate (source : Program) : Prop where
  once : source.declarations.Nodup
  refers : ∀ id ∈ source.listed, stmtsEvery (source.inScope id) (fun _ _ => true) (source.bodyOf id) = true

theorem declaredBy_eq {id : SignatureId} {signature : Signature} (found : source.signature? id = some signature)
    (user : signature.isIntrinsic = false) (defined : signature.isDefined = true) :
    source.declaredBy id = signature.parameters ++ stmtsDeclared signature.body := by
  simp [declaredBy, found, Signature.declared, user, defined]

theorem Separate.not_mem_declaredBy (h : source.Separate) {id other : SignatureId} (listed : id ∈ source.listed)
    (listed' : other ∈ source.listed) (apart : other ≠ id) {v : VarId} (inside : source.inScope id v = true) :
    v ∉ source.declaredBy other := by
  obtain ⟨-, signatures, top⟩ := List.nodup_append.mp h.once
  rw [inScope, Bool.or_eq_true, decide_eq_true_eq, decide_eq_true_eq] at inside
  intro declared
  rcases inside with inside | inside
  · exact top v inside v (List.mem_flatMap.mpr ⟨other, listed', declared⟩) rfl
  · have : Std.Symm (Function.onFun List.Disjoint source.declaredBy) := ⟨fun _ _ => List.disjoint_symm⟩
    exact (List.nodup_flatMap.mp signatures).2.forall listed listed' apart.symm inside declared

end Program

end Source

namespace Target

variable {p q : Program} {f : FuncId} {v : VarId}

/-- The variable has no owner but `f`. -/
def Variable.OwnedBy (f : FuncId) (x : Variable) : Prop := ∀ g, x.owner = some g → g = f

/-- The chains that the nodes name start at variables that have no owner but `f`. -/
def Program.Rooted (p : Program) (f : FuncId) (nodes : List Node) : Prop :=
  ∀ i ∈ instrsOf nodes, ∃ instr, p.instr? i = some instr ∧ ∀ head ∈ instr.operation.locations,
    ∃ link, p.link? head = some link ∧ ∀ v, link.kind = .var v → ∃ x, p.var? v = some x ∧ x.OwnedBy f

theorem Program.Rooted.mono {nodes : List Node} (h : p.Rooted f nodes) (later : p.Extends q) : q.Rooted f nodes := by
  intro i member
  obtain ⟨instr, there, heads⟩ := h i member
  refine ⟨instr, later.instrs there, fun head named => ?_⟩
  obtain ⟨link, first, roots⟩ := heads head named
  refine ⟨link, later.links trivial first, fun v root => ?_⟩
  obtain ⟨x, found, owned⟩ := roots v root
  exact ⟨x, later.vars found, owned⟩

theorem Program.addVariable_owner {owner : Option FuncId} (added : p.addVariable x owner = (.ok v, q)) :
    ∃ o, q.vars = p.vars.push { x with owner := o } ∧ ∀ g, o = some g → owner = some g := by
  obtain ⟨-, ⟨f, b, -, rfl, -, vars, -⟩ | ⟨f, -, rfl, vars, -⟩ | ⟨-, vars, -⟩⟩ := addVariable_bodies added
  · exact ⟨_, vars, fun _ => id⟩
  · exact ⟨_, vars, fun _ => id⟩
  · exact ⟨none, vars, nofun⟩

theorem Track.Agree.start {m : Nat} (small : m < UInt32.size) {α : Type} {R : α → α → Prop} {xs : Array α}
    {old : Nat → Prop} (alike : ∀ i x, old i → xs[i]? = some x → R x x) :
    (Track.within small xs.size old).Agree R xs xs := by
  refine ⟨⟨0, rfl, rfl⟩, ?_⟩
  rintro i _ ⟨rfl, -, new | known⟩
  · rw [Array.getElem?_eq_none new]
    exact .none
  · cases there : xs[i]? with
    | none => exact .none
    | some x => exact .some (alike i x known there)

theorem Program.Homes.ownedBy (h : p.Homes) (small : p.vars.size < UInt32.size)
    (member : v ∈ p.globals.toList ∨ v ∈ p.paramsOf f ∨ v ∈ p.localsOf f) :
    ∃ x, p.vars[v.index.toNat]? = some x ∧ x.OwnedBy f := by
  rw [h.globals, h.params, h.locals, mem_handlesWhere small, mem_handlesWhere small, mem_handlesWhere small] at member
  rcases member with ⟨x, found, pass⟩ | ⟨x, found, pass⟩ | ⟨x, found, pass⟩
  · have unowned := h.owners x (Array.mem_of_getElem? found)
    refine ⟨x, found, fun g owner => ?_⟩
    simp [owner] at unowned
    simp [unowned] at pass
  · simp only [isParamOf, Bool.and_eq_true, decide_eq_true_eq] at pass
    exact ⟨x, found, fun g owner => Option.some.inj (owner.symm.trans pass.2)⟩
  · simp only [isLocalOf, Bool.and_eq_true, decide_eq_true_eq] at pass
    exact ⟨x, found, fun g owner => Option.some.inj (owner.symm.trans pass.2)⟩

end Target

namespace Lowering
open Source Target Lower

variable {source : Source.Program} {s t : State} {signature : Signature} {other : Source.VarId} {stmts : List Stmt}
  {w v : Target.VarId} {f : FuncId}

/-! ### Bindings -/

theorem bindVariable_origin {c d : Scope} {id : Source.VarId} (bound : c.bindVariable id v = .ok d)
    (there : d.vars[other.index.toNat]? = some (some w)) :
    (other = id ∧ w = v) ∨ c.vars[other.index.toNat]? = some (some w) := by
  obtain ⟨inside, rfl⟩ := bindVariable_ok bound
  dsimp only at there
  by_cases same : id.index.toNat = other.index.toNat
  · rw [← same, Array.getElem?_setIfInBounds_self_of_lt inside, Option.some.injEq, Option.some.injEq] at there
    exact .inl ⟨congrArg Source.VarId.mk (UInt32.toNat_inj.mp same.symm), there.symm⟩
  · rw [Array.getElem?_setIfInBounds_ne same] at there
    exact .inr there

theorem declare_origin {id : Source.VarId} (run : Runs (declare source id) s v t)
    (fits : t.program.Fits) (there : t.scope.vars[other.index.toNat]? = some (some w)) :
    (other = id ∧ ∃ x, t.program.var? w = some x ∧ ∀ g, x.owner = some g → s.scope.current = some g) ∨
      s.scope.vars[other.index.toNat]? = some (some w) := by
  obtain ⟨decl, x, p, scope, log, -, -, added, bound, rfl⟩ := declare_ok run
  rcases bindVariable_origin bound there with ⟨rfl, rfl⟩ | before
  · obtain ⟨o, vars, owned⟩ := Program.addVariable_owner added
    obtain ⟨rfl, -⟩ := Program.addVariable_ok added
    have small := fits.vars
    rw [vars, Array.size_push] at small
    refine .inl ⟨rfl, { x with owner := o }, ?_, owned⟩
    rw [Target.Program.var?, vars, UInt32.toNat_ofNat_of_lt' (Nat.lt_of_succ_lt small), Array.getElem?_push_size]
  · exact .inr before

theorem declareParams_origin {ids : List Source.VarId} (inside : s.scope.current = some f)
    (run : Runs (declareParams source signature f ids) s () t) (fits : t.program.Fits) {id : Source.VarId}
    (there : t.scope.vars[id.index.toNat]? = some (some v)) :
    (id ∈ ids ∧ ∃ x, t.program.var? v = some x ∧ x.OwnedBy f) ∨ s.scope.vars[id.index.toNat]? = some (some v) := by
  induction ids generalizing s with
  | nil =>
    obtain ⟨-, rfl⟩ := runs_pure.mp run
    exact .inr there
  | cons first ids ih =>
    obtain ⟨w, u, -, q, declared, -, -, listed, rest⟩ := declareParams_ok run
    obtain ⟨_, -, vars, -, -⟩ := Program.modifyBody_bodies listed
    have small : u.program.Fits :=
      .of_noLarger (((stepwise_declareParams ..).path rest).fits fits) (Program.modifyBody_noLarger listed)
    have entered := (declare_declares declared).current.trans inside
    rcases ih (s := { u with program := q }) entered rest with ⟨member, owned⟩ | before
    · exact .inl ⟨List.mem_cons_of_mem _ member, owned⟩
    rcases declare_origin declared small before with ⟨rfl, x, found, owned⟩ | before
    · refine .inl ⟨List.mem_cons_self, x, (declareParams_declares rest).vars ?_, fun g owner => ?_⟩
      · rw [vars]
        exact found
      · exact Option.some.inj ((owned g owner).symm.trans inside)
    · exact .inr before

theorem lowerStmts_origin (run : Runs (lowerStmts source stmts) s () t) {id : Source.VarId}
    (there : t.scope.vars[id.index.toNat]? = some (some v)) :
    id ∈ stmtsDeclared stmts ∨ s.scope.vars[id.index.toNat]? = some (some v) := by
  have keeps : Upkeep s.scope.current (fun _ => True) (· ∈ stmtsDeclared stmts) fun _ c =>
      ∀ (id : Source.VarId) v, c.vars[id.index.toNat]? = some (some v) →
        id ∈ stmtsDeclared stmts ∨ s.scope.vars[id.index.toNat]? = some (some v) := by
    refine ⟨fun h _ _ _ => h, trivial, fun h _ _ => h, fun h member bound other w there => ?_⟩
    rcases bindVariable_origin bound there with ⟨rfl, -⟩ | before
    · exact .inl member
    · exact h other w before
  exact keeps.lowerStmts (fun _ member => ⟨member, fun _ _ => trivial⟩) run rfl (fun _ _ => .inr) id v there

theorem lowerBody_origin (run : Runs (lowerBody source signature f) s () t) (fits : t.program.Fits)
    {id : Source.VarId} (there : t.scope.vars[id.index.toNat]? = some (some v)) :
    id ∈ signature.parameters ++ stmtsDeclared signature.body ∨ s.scope.vars[id.index.toNat]? = some (some v) := by
  obtain ⟨r, w, q, log, ⟨⟨p, u, -, params, returned⟩, small⟩, ⟨stmts, -⟩, -, rfl⟩ := lowerBody_fitting run fits
  have before := ((stepwise_declareReturn ..).path returned).fits small
  rcases lowerStmts_origin stmts there with member | there
  · exact .inl (List.mem_append_right _ member)
  have listed : u.scope.vars[id.index.toNat]? = some (some v) := declareReturn_scope returned ▸ there
  rcases declareParams_origin rfl params before listed with ⟨member, -⟩ | there
  · exact .inl (List.mem_append_left _ member)
  · exact .inr there

theorem lowerStmts_owned (run : Runs (lowerStmts source stmts) s () t) (inside : s.scope.current = some f)
    {i : Nat} (found : t.program.vars[i]? = some x) (new : s.program.vars.size ≤ i) : x.OwnedBy f := by
  have keeps : Upkeep (some f) (fun _ => True) (fun _ => True) fun p _ =>
      ∀ i x, p.vars[i]? = some x → s.program.vars.size ≤ i → x.OwnedBy f := by
    refine ⟨fun h vars _ _ => by rw [vars]; exact h, trivial, fun h _ added i x found new => ?_, fun h _ _ => h⟩
    obtain ⟨o, vars, owned⟩ := Program.addVariable_owner added
    rw [vars, Array.getElem?_push] at found
    split at found
    · obtain rfl := Option.some.inj found
      exact fun g owner => (Option.some.inj (owned g owner)).symm
    · exact h i x found new
  refine keeps.lowerStmts (fun _ _ => ⟨trivial, fun _ _ => trivial⟩) run inside (fun i x found new => ?_) i x found new
  obtain ⟨below, -⟩ := Array.getElem?_eq_some_iff.mp found
  exact absurd below (Nat.not_lt.mpr new)

/-! ### One body -/

/-- The statements of the body of `f` beside themselves. Of what was there before, only variables that have no other
owner are in step. -/
def Tracks.ofBody (start : Target.Program) {p : Target.Program} (fits : p.Fits) (f : FuncId)
    (var : Source.VarId → Bool) : Tracks p p where
  sameMode := True
  insts := .within fits.instrs start.instrs.size fun _ => False
  values := .within fits.values start.values.size fun _ => False
  vars := .within fits.vars start.vars.size fun i => ∃ x, start.vars[i]? = some x ∧ x.OwnedBy f
  links := .within fits.links start.links.size fun _ => False
  function _ := True
  fresh _ := trivial
  shared i := i = f.index.toNat
  visible id := var id = true
  infos _ _ := True
  discards _ := trivial

section
variable {f : FuncId} {p : Target.Program} {fits : p.Fits} {var : Source.VarId → Bool}

theorem Twins.ofBody {others : FuncId → Option Body} {result : Option Target.VarId}
    (fills : s.program.Fills f others result) (empty : ∀ b, s.program.body? f = some b → b.nodes = [])
    (region : s.region.toList = [])
    (free : ∀ {id : Source.VarId} {v}, var id = true → s.scope.vars[id.index.toNat]? = some (some v) →
      ∃ x, s.program.vars[v.index.toNat]? = some x ∧ x.OwnedBy f)
    (small : s.program.NoLarger p) : Twins (.ofBody s.program fits f var) s s := by
  have known : ∀ {v : Target.VarId}, (∃ x, s.program.vars[v.index.toNat]? = some x ∧ x.OwnedBy f) →
      (Tracks.ofBody s.program fits f var).pairing.var v v := by
    rintro v ⟨x, found, owned⟩
    obtain ⟨below, -⟩ := Array.getElem?_eq_some_iff.mp found
    exact ⟨rfl, Nat.lt_of_lt_of_le below small.vars, .inr ⟨x, found, owned⟩⟩
  have home : ∀ {v : Target.VarId}, v ∈ s.program.globals.toList ∨ v ∈ s.program.paramsOf f ∨ v ∈ s.program.localsOf f →
      (Tracks.ofBody s.program fits f var).pairing.var v v := fun member =>
    known (fills.homes.ownedBy (Nat.lt_of_le_of_lt small.vars fits.vars) member)
  obtain ⟨b, here, isReturn, isLocal⟩ := fills.here
  have body : Body.Alike (Tracks.ofBody s.program fits f var).pairing b b := by
    refine ⟨List.forall₂_same.mpr fun v member => home (.inr (.inl ?_)), ?_,
      List.forall₂_same.mpr fun v member => home (.inr (.inr ?_)), empty b here ▸ .nil⟩
    · rwa [Program.paramsOf, here]
    · cases returned : b.returnVar with
      | none => exact .none
      | some v =>
        refine .some (home (.inr (.inr ?_)))
        rw [Program.localsOf, here]
        exact Array.mem_toList_iff.mpr (isLocal v (isReturn.symm.trans returned))
    · rwa [Program.localsOf, here]
  -- a body names no instruction, value or link from before it
  exact {
    instrs := .start fits.instrs fun _ _ old _ => old.elim
    values := .start fits.values fun _ _ old _ => old.elim
    vars := .start fits.vars fun _ _ _ _ => ⟨rfl, rfl, fun _ => rfl, fun _ _ => trivial⟩
    links := .start fits.links fun _ _ old _ => old.elim
    globals := List.forall₂_same.mpr fun v member => home (.inl member)
    table := rfl
    functions := by
      rintro i rfl
      obtain ⟨g, there, own⟩ := Option.bind_eq_some_iff.mp here
      rw [show s.program.functions[f.index.toNat]? = some g from there]
      exact .some ⟨rfl, own ▸ .some body⟩
    infos := trivial
    nodes := by
      rw [region]
      exact .nil
    mode := fun _ => rfl
    current := rfl
    callees := rfl
    known := fun _ => trivial
    resolved := fun visible there there' => by
      obtain rfl := Option.some.inj (Option.some.inj (there.symm.trans there'))
      exact known (free visible there) }

theorem Twins.rooted {start : Target.Program} {fits : s.program.Fits} (twins : Twins (.ofBody start fits f var) s s)
    (kept : ∀ {i : Nat} {x}, start.vars[i]? = some x → s.program.vars[i]? = some x)
    (owned : ∀ {i : Nat} {x}, s.program.vars[i]? = some x → start.vars.size ≤ i → x.OwnedBy f) :
    s.program.Rooted f s.region.toList := by
  intro i member
  obtain ⟨_, -, below, inside⟩ := twins.nodes.instrs member
  have instr := Array.getElem?_eq_getElem below
  have instrs := twins.instrs.found ⟨rfl, below, inside⟩ instr instr
  refine ⟨_, instr, fun head named => ?_⟩
  obtain ⟨_, -, below, inside⟩ := instrs.operation.locations named
  have link := Array.getElem?_eq_getElem below
  have links := twins.links.found ⟨rfl, below, inside⟩ link link
  refine ⟨_, link, fun v root => ?_⟩
  obtain ⟨_, -, below, new | ⟨x, old, mine⟩⟩ := links.kind.root (v := v) (by rw [root]; rfl)
  · exact ⟨_, Array.getElem?_eq_getElem below, owned (Array.getElem?_eq_getElem below) new⟩
  · exact ⟨x, kept old, mine⟩

end

/-- A body that refers to variables without an owner, besides those of its own signature, reaches no variable of another
function. -/
theorem lowerBody_rooted {var : Source.VarId → Bool} (homes : s.program.Homes) (bound : s.Bound)
    (vacant : s.program.body? f = none) (refers : stmtsEvery var (fun _ _ => true) signature.body = true)
    (free : ∀ {id : Source.VarId} {v x}, var id = true → s.scope.vars[id.index.toNat]? = some (some v) →
      s.program.var? v = some x → x.owner = none) (run : Runs (lowerBody source signature f) s () t)
    (fits : t.program.Fits) : ∃ b, t.program.body? f = some b ∧ t.program.Rooted f b.nodes := by
  obtain ⟨v, w, q, log, ⟨head, before⟩, ⟨stmts, small⟩, changed, rfl⟩ := lowerBody_fitting run fits
  have path := (stepwise_lowerStmts ..).path stmts
  obtain ⟨inside, result, headed, -⟩ := head_fills homes vacant head before
  obtain ⟨_, filled, -⟩ := head_code bound head before
  have empty : ∀ b, v.program.body? f = some b → b.nodes = [] := by
    intro b here
    have code := filled.here
    rw [Program.code?, show v.program.functions[f.index.toNat]?.bind Function.body = some b from here] at code
    exact (Prod.mk.inj (Option.some.inj code)).2
  -- what is in scope is a parameter, or was bound before and has no owner
  have reaches : ∀ {id : Source.VarId} {a}, var id = true → v.scope.vars[id.index.toNat]? = some (some a) →
      ∃ x, v.program.vars[a.index.toNat]? = some x ∧ x.OwnedBy f := by
    intro id a visible there
    have kept := head.path.keeps
    obtain ⟨p, u, -, params, returned⟩ := head
    have last := (stepwise_declareReturn ..).path returned
    rw [declareReturn_scope returned] at there
    rcases declareParams_origin rfl params (last.fits before) there with ⟨-, x, found, owned⟩ | there
    · exact ⟨x, last.keeps.vars found, owned⟩
    · have found := Array.getElem?_eq_getElem (bound there)
      refine ⟨_, kept.vars found, ?_⟩
      rw [Variable.OwnedBy, free visible there found]
      exact nofun
  have start : Twins (.ofBody v.program small f var) { v with region := {} } { v with region := {} } :=
    .ofBody (s := { v with region := {} }) headed empty rfl reaches path.noLarger
  have home : ∀ g, some f = some g → (Tracks.ofBody v.program small f var).function g ∧
      (Tracks.ofBody v.program small f var).shared g.index.toNat := by
    intro g same
    obtain rfl := Option.some.inj same
    exact ⟨trivial, rfl⟩
  have covered : (Tracks.ofBody v.program small f var).Covered signature.body := Tracks.covered trivial id refers
  have left := (Twins.lowerStmts home ⟨start, inside⟩ (.refl source) covered stmts stmts (.refl _) (.refl _)).1
  have roots := left.rooted path.keeps.vars (lowerStmts_owned stmts inside)
  obtain ⟨b, -, written⟩ := Program.modifyBody_setBody changed
  have here := (Program.setBody_bodies written).2.2 f
  rw [if_pos rfl] at here
  exact ⟨_, here, roots.mono (Program.setBody_extends written)⟩

/-! ### The top level -/

/-- A variable with an owner is bound by a signature in `done`, and no body reaches the variables of another one. -/
structure Apart (source : Source.Program) (done : List SignatureId) (s : State) : Prop where
  bindings : ∀ {id : Source.VarId} {v x}, s.scope.vars[id.index.toNat]? = some (some v) → s.program.var? v = some x →
    x.owner.isSome = true → ∃ signature ∈ done, id ∈ source.declaredBy signature
  rooted : ∀ {f b}, s.program.body? f = some b → s.program.Rooted f b.nodes

theorem State.Bound.found (bound : s.Bound) {id : Source.VarId} (there : s.scope.vars[id.index.toNat]? = some (some v))
    (kept : ∀ {i : Nat} {x}, s.program.vars[i]? = some x → t.program.vars[i]? = some x)
    (found : t.program.var? v = some x) : s.program.var? v = some x := by
  have before := Array.getElem?_eq_getElem (bound there)
  obtain rfl := Option.some.inj ((kept before).symm.trans found)
  exact before

namespace Apart
variable {done : List SignatureId}

theorem declare (h : Apart source done s) (bound : s.Bound) (outside : s.scope.current = none) {id : Source.VarId}
    (run : Runs (declare source id) s v t) (fits : t.program.Fits) : Apart source done t := by
  have kept := declare_declares run
  refine ⟨fun {other w x} there found owned => ?_, fun here => ?_⟩
  · rcases declare_origin run fits there with ⟨rfl, y, again, mine⟩ | there
    · obtain rfl := Option.some.inj (found.symm.trans again)
      obtain ⟨g, owner⟩ := Option.isSome_iff_exists.mp owned
      cases outside.symm.trans (mine g owner)
    · exact h.bindings there (bound.found there kept.vars found) owned
  · rw [declare_bodies outside run] at here
    exact (h.rooted here).mono kept.keeps

theorem skip (h : Apart source done s) (id : SignatureId) : Apart source (done ++ [id]) s := by
  refine ⟨fun there found owned => ?_, h.rooted⟩
  obtain ⟨other, member, declared⟩ := h.bindings there found owned
  exact ⟨other, List.mem_append_left _ member, declared⟩

theorem lowerBody (h : Apart source done s) (homed : Homed source done s) (filled : Filled source done s)
    (separate : source.Separate) (listed : ∀ other ∈ done, other ∈ source.listed) {id : SignatureId}
    (here : id ∈ source.listed) (later : id ∉ done) (found : source.signature? id = some signature)
    (user : signature.isIntrinsic = false) (defined : signature.isDefined = true)
    (plain : source.declaresOnly VarMode.notParameter signature.body = true)
    (callee : s.callees id = some f) (run : Runs (lowerBody source signature f) s () t) (fits : t.program.Fits) :
    Apart source (done ++ [id]) t := by
  have vacant := homed.vacant later callee
  obtain ⟨code, lowers⟩ := lowerBody_code filled.bound run fits
  obtain ⟨_, fills, -⟩ := lowerBody_fills homed.homes vacant plain run fits
  have refers := separate.refers id here
  rw [Program.bodyOf_eq found user defined] at refers
  -- bindings survive from one signature to the next, but none of another signature is in scope
  have free : ∀ {v : Source.VarId} {w x}, source.inScope id v = true →
      s.scope.vars[v.index.toNat]? = some (some w) → s.program.var? w = some x → x.owner = none := by
    intro v w x inside there known
    by_contra owned
    obtain ⟨other, member, declared⟩ := h.bindings there known (Option.isSome_iff_ne_none.mpr owned)
    have apart : other ≠ id := fun same => later (same ▸ member)
    exact separate.not_mem_declaredBy here (listed other member) apart inside declared
  refine ⟨fun {v w x} there known owned => ?_, fun {g c} there => ?_⟩
  · rcases lowerBody_origin run fits there with declared | there
    · rw [← Program.declaredBy_eq found user defined] at declared
      exact ⟨id, List.mem_append_right _ (List.mem_singleton_self id), declared⟩
    · exact (h.skip id).bindings there (filled.bound.found there lowers.keeps.vars known) owned
  · by_cases same : g = f
    · subst same
      obtain ⟨b, own, rooted⟩ := lowerBody_rooted homed.homes filled.bound vacant refers free run fits
      obtain rfl := Option.some.inj (own.symm.trans there)
      exact rooted
    · rw [fills.elsewhere g same] at there
      exact (h.rooted there).mono lowers.keeps

end Apart

/-- How far lowering has come at the top level, if `done` are the first signatures that it lists. -/
structure Reached (source : Source.Program) (done : List SignatureId) (s : State) : Prop where
  filled : Filled source done s
  outside : s.scope.current = none
  homed : done <+: source.listed → Homed source done s
  apart : done <+: source.listed → source.Separate → Apart source done s

namespace Reached
variable {done : List SignatureId}

theorem registered (registers : Registers source (source.listed.filter source.isUser) s) : Reached source [] s := by
  have homed := registers.homed
  refine ⟨registers.filled, registers.idle, fun _ => homed, fun _ _ => ?_⟩
  refine ⟨fun there => absurd there registers.unbound, fun here => ?_⟩
  obtain ⟨_, member, -⟩ := homed.present here
  cases member

theorem declare (h : Reached source done s) {id : Source.VarId}
    (run : Runs (declare source id) s v t) (fits : t.program.Fits) : Reached source done t where
  filled := h.filled.declare run
  outside := (declare_declares run).current.trans h.outside
  homed first := (h.homed first).declare h.outside run
  apart first separate := (h.apart first separate).declare h.filled.bound h.outside run fits

theorem lowerSignature (h : Reached source done s) (once : source.listed.Nodup)
    (plain : ∀ id ∈ source.listed, source.declaresOnly VarMode.notParameter (source.bodyOf id) = true)
    {id : SignatureId} (run : Runs (lowerSignature source id) s () t) (fits : t.program.Fits) :
    Reached source (done ++ [id]) t := by
  have filled := h.filled.lowerSignature run fits
  have outside := lowerSignature_outside h.outside run
  have before : done ++ [id] <+: source.listed → done <+: source.listed := (List.prefix_append done [id]).trans
  obtain ⟨signature, found, ⟨-, rfl⟩ | ⟨user, f, resolved, ⟨-, log, rfl⟩ | ⟨defined, body⟩⟩⟩ := lowerSignature_ok run
  · exact ⟨filled, outside, fun first => (h.homed (before first)).skip id, fun first separate =>
      (h.apart (before first) separate).skip id⟩
  · exact ⟨filled, outside, fun first => { (h.homed (before first)).skip id with }, fun first separate =>
      { (h.apart (before first) separate).skip id with }⟩
  have callee : s.callees id = some f := Option.join_eq_some_iff.mpr resolved
  have listed : done ++ [id] <+: source.listed → id ∈ source.listed := fun first => first.subset (by simp)
  have later : done ++ [id] <+: source.listed → id ∉ done := fun first member =>
    (List.nodup_append.mp (first.sublist.nodup once)).2.2 id member id (List.mem_singleton_self id) rfl
  have noParam : done ++ [id] <+: source.listed → source.declaresOnly VarMode.notParameter signature.body = true :=
    fun first => Program.bodyOf_eq found user defined ▸ plain id (listed first)
  refine ⟨filled, outside, fun first => ?_, fun first separate => ?_⟩
  · exact (h.homed (before first)).lowerBody h.filled (later first) found (noParam first) callee body fits
  · exact (h.apart (before first) separate).lowerBody (h.homed (before first)) h.filled separate
      (fun _ member => (before first).subset member) (listed first) (later first) found user defined (noParam first)
      callee body fits

end Reached

/-- Every variable has exactly one home: it is a global one, or a parameter or a local variable of its function. -/
structure Housed (source : Source.Program) (p : Target.Program) : Prop where
  /-- The globals and the variables of the functions are all variables, once each. -/
  listed : (p.globals.toList ++ p.functions.toList.flatMap Function.vars).Perm
    ((List.range p.vars.size).map fun i => ⟨UInt32.ofNat i⟩)
  locals : ∀ {f v x}, p.var? v = some x → (v ∈ p.localsOf f ↔ x.storage = .functionLocal ∧ x.owner = some f)
  params : ∀ {f v x}, p.var? v = some x → (v ∈ p.paramsOf f ↔ x.storage = .param ∧ x.owner = some f)
  globals : ∀ {v x}, p.var? v = some x → (v ∈ p.globals ↔ x.storage.isFunctionOwned = false ∧ x.owner = none)
  returned : ∀ {f b v}, p.body? f = some b → b.returnVar = some v → v ∈ b.locals
  /-- A body is that of a signature, and has a return variable if this returns a value. -/
  returns : ∀ {f b}, p.body? f = some b → (∃ id ∈ source.listed, source.functionOf? id = some f) ∧
    ∀ id signature, source.functionOf? id = some f → source.signature? id = some signature →
      b.returnVar.isSome = !signature.returnType.isVoid
  /-- A chain that is named in a body and starts at a variable of a function starts at one of this function. -/
  reached : source.Separate → ∀ {f b i instr head v x}, p.body? f = some b → i ∈ instrsOf b.nodes →
    p.instr? i = some instr → head ∈ instr.operation.locations → p.links.rootVar head = .ok v → p.var? v = some x →
    x.storage.isFunctionOwned = true → x.owner = some f

/-- If no signature is listed twice and no body declares a parameter, every variable of a lowered program has exactly
one home. -/
theorem lower_housed {capabilities : Capabilities} {p : Target.Program} (once : source.listed.Nodup)
    (plain : ∀ id ∈ source.listed, source.declaresOnly VarMode.notParameter (source.bodyOf id) = true)
    (h : lower source capabilities = .ok p) (fits : p.Fits) : Housed source p := by
  obtain ⟨t, info, rfl, small, done⟩ := lower_invariant h fits Reached.registered
    (fun before run fits => before.declare run fits) fun before run fits => before.lowerSignature once plain run fits
  have homed := done.homed (List.prefix_refl _)
  have homes : ({ t.program with info } : Target.Program).Homes := { homed.homes with }
  refine ⟨homes.listed_perm fits, homes.mem_localsOf_iff fits, homes.mem_paramsOf_iff fits, homes.mem_globals_iff fits,
    homed.returned, fun {f b} here => ?_, ?_⟩
  · obtain ⟨id, member, callee, signature, found, present⟩ := homed.present here
    refine ⟨⟨id, member, done.filled.callees ▸ callee⟩, fun other signature' callee' found' => ?_⟩
    rw [← done.filled.callees] at callee'
    obtain rfl := done.filled.callee_inj small callee callee' rfl
    obtain rfl := Option.some.inj (found.symm.trans found')
    exact present
  · intro separate f b i instr head v x here member there named root found owned
    obtain ⟨_, again, heads⟩ := (done.apart (List.prefix_refl _) separate).rooted here i member
    obtain rfl := Option.some.inj (there.symm.trans again)
    obtain ⟨link, first, roots⟩ := heads head named
    obtain ⟨link', first', kind⟩ := rootVar_ok root
    obtain rfl := Option.some.inj (first.symm.trans first')
    obtain ⟨y, found', mine⟩ := roots v kind
    obtain rfl := Option.some.inj (found.symm.trans found')
    obtain ⟨g, owner⟩ := Option.isSome_iff_exists.mp ((homes.owners x (Array.mem_of_getElem? found)).symm.trans owned)
    rw [owner, mine g owner]

/-- Three global variables, and those of two functions. -/
theorem lower_housed_palette : Palette.program.Separate ∧ ∃ p, lower Palette.program {} = .ok p ∧ p.Fits ∧
    (p.globals.size, p.functions.toList.map fun f => f.vars.length) = (3, [2, 3]) ∧ Housed Palette.program p := by
  have separate : Palette.program.Separate := ⟨by decide +kernel, by decide +kernel⟩
  obtain ⟨p, lowered, fits, counts⟩ : ∃ p, lower Palette.program {} = .ok p ∧ p.Fits ∧
      (p.globals.size, p.functions.toList.map fun f => f.vars.length) = (3, [2, 3]) := lower_checked (by decide +kernel)
  exact ⟨separate, p, lowered, fits, counts, lower_housed (by decide +kernel) (by decide +kernel) lowered fits⟩

end Lowering

end ShaderSSA
