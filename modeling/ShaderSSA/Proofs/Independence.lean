import ShaderSSA.Proofs.Functions
import ShaderSSA.Proofs.Modes
import ShaderSSA.Proofs.Owners

/-!
Functions are lowered independently of each other. If the body of one signature is replaced, the other functions stay
the same up to a relocation: handles from before the statements of the body stay, and those from after it are shifted.
-/

namespace ShaderSSA

namespace Source

variable {other : SignatureId}

/-- A variable of this mode is a local one of the body that declares it. -/
def VarMode.isLocal : VarMode → Bool
  | .auto | .temporary | .constIn => true
  | _ => false

theorem Signature.lowered_withBody {signature : Signature}
    (unread : (!signature.isIntrinsic && signature.isDefined) = false) (body : List Stmt) :
    Signature.lowered { signature with body } = signature.lowered := by
  have same : Signature.isIntrinsic { signature with body } = signature.isIntrinsic := rfl
  simp only [lowered, same, unread, Bool.false_eq_true, if_false]

namespace Program

/-- Signatures are listed once, bodies keep to their scopes, and they declare local variables only. -/
structure WellScoped (source : Program) : Prop extends source.Separate where
  listedOnce : source.listed.Nodup
  locals : ∀ id ∈ source.listed, source.declaresOnly VarMode.isLocal (source.bodyOf id) = true

/-- The program with another body for one signature. -/
def withBody (source : Program) (id : SignatureId) (body : List Stmt) : Program :=
  { source with signatures := source.signatures.modify id.index.toNat fun s => { s with body } }

section
variable (source : Program) (id : SignatureId) (body : List Stmt)

theorem withBody_akin : source.Akin (source.withBody id body) := by
  refine ⟨rfl, Array.ext_getElem? fun i => ?_⟩
  rw [withBody, Array.getElem?_map, Array.getElem?_map, Array.getElem?_modify]
  split
  · cases source.signatures[i]? <;> rfl
  · rfl

theorem withBody_signature? (other : SignatureId) : (source.withBody id body).signature? other =
    if id = other then (source.signature? other).map fun s => { s with body } else source.signature? other := by
  rw [withBody, signature?, signature?, Array.getElem?_modify]
  have same : id.index.toNat = other.index.toNat ↔ id = other :=
    ⟨fun h => congrArg SignatureId.mk (UInt32.toNat_inj.mp h), fun h => h ▸ rfl⟩
  simp only [same]

/-- The signature gets a function, whose body is that of the source. -/
def isLowered (source : Program) (id : SignatureId) : Bool :=
  id ∈ source.listed && (source.signature? id).any fun s => !s.isIntrinsic && s.isDefined

theorem withBody_isUser : (source.withBody id body).isUser = source.isUser := by
  funext other
  rw [isUser, isUser, withBody_signature?]
  split
  · cases source.signature? other <;> rfl
  · rfl

theorem withBody_functionOf? : (source.withBody id body).functionOf? = source.functionOf? := by
  funext other
  rw [functionOf?, functionOf?, withBody_isUser]
  rfl

theorem withBody_isLowered : (source.withBody id body).isLowered = source.isLowered := by
  funext other
  rw [isLowered, isLowered, withBody_signature?]
  split
  · cases source.signature? other <;> rfl
  · rfl

theorem withBody_bodyOf (apart : other ≠ id) : (source.withBody id body).bodyOf other = source.bodyOf other := by
  rw [bodyOf, bodyOf, withBody_signature?, if_neg apart.symm]

theorem withBody_inScope (apart : other ≠ id) : (source.withBody id body).inScope other = source.inScope other := by
  funext v
  rw [inScope, inScope, declaredBy, declaredBy, withBody_signature?, if_neg apart.symm]
  rfl

theorem withBody_bodyOf_of_not_lowered (none : source.isLowered id = false) (listed : other ∈ source.listed) :
    (source.withBody id body).bodyOf other = source.bodyOf other := by
  by_cases apart : other = id
  · subst apart
    rw [bodyOf, bodyOf, withBody_signature?, if_pos rfl]
    cases found : source.signature? other with
    | none => rfl
    | some signature =>
      simp only [isLowered, found, listed, decide_true, Bool.true_and, Option.any_some] at none
      exact Signature.lowered_withBody none body
  · exact source.withBody_bodyOf id body apart

end

theorem WellScoped.not_mem_declared {source : Program} (h : source.WellScoped) {id : SignatureId}
    (listed : id ∈ source.listed) (listed' : other ∈ source.listed) (apart : other ≠ id) {v : VarId}
    (inside : source.inScope id v = true) : v ∉ stmtsDeclared (source.bodyOf other) := by
  intro member
  refine h.not_mem_declaredBy listed listed' apart inside ?_
  cases found : source.signature? other with
  | none =>
    rw [bodyOf, found] at member
    cases member
  | some signature =>
    rw [bodyOf, found, Option.map_some, Option.getD_some, Signature.lowered] at member
    rw [declaredBy, found, Option.map_some, Option.getD_some, Signature.declared]
    split at member
    · rename_i read
      rw [if_pos read]
      exact List.mem_append_right _ member
    · cases member

end Program

end Source

namespace Target

variable {a b b' : Nat}

/-- Positions below `a` stay, and those from `b` on are moved to `b'` and on. -/
def Shift (a b b' i j : Nat) : Prop := i < a ∧ j = i ∨ b ≤ i ∧ i + b' = j + b

theorem Shift.unique (left : a ≤ b) (right : a ≤ b') {i j i' j' : Nat} (h : Shift a b b' i j)
    (h' : Shift a b b' i' j') : i = i' ↔ j = j' := by
  unfold Shift at h h'
  omega

/-- Handles from before `a` stay. Those from after `b` are shifted to after `b'`. -/
def Pairing.relocation (a b b' : Program) : Pairing where
  sameMode := True
  inst i j := Shift a.instrs.size b.instrs.size b'.instrs.size i.index.toNat j.index.toNat
  value i j := Shift a.values.size b.values.size b'.values.size i.index.toNat j.index.toNat
  var i j := Shift a.vars.size b.vars.size b'.vars.size i.index.toNat j.index.toNat
  link i j := Shift a.links.size b.links.size b'.links.size i.index.toNat j.index.toNat
  function _ := True

/-- But for the body of one function, the programs are the same up to the pairing of handles. -/
structure Program.Relocates (h : Pairing) (exempt : Option FuncId) (p q : Program) : Prop where
  names : p.functions.map Function.name = q.functions.map Function.name
  functions : ∀ {f}, exempt ≠ some f → Option.Rel (Function.Alike h) (p.function? f) (q.function? f)
  globals : List.Forall₂ h.var p.globals.toList q.globals.toList
  instrs : ∀ {i j}, h.inst i j → Option.Rel (Instr.Alike h) (p.instr? i) (q.instr? j)
  values : ∀ {v w}, h.value v w → Option.Rel (ValueDef.Alike h) (p.value? v) (q.value? w)
  vars : ∀ {v w}, h.var v w → Option.Rel (Variable.Alike h) (p.var? v) (q.var? w)
  links : ∀ {v w}, h.link v w → Option.Rel (Link.Alike h) (p.link? v) (q.link? w)

def Track.ahead {a b b' : Nat} (small : a < UInt32.size) (left : a ≤ b) (right : a ≤ b') : Track a a where
  rel := Shift a b b'
  left := 0
  right := 0
  unique := Shift.unique left right
  step below _ := .inl ⟨below, rfl⟩
  handle {k} below _ := by
    rw [UInt32.toNat_ofNat_of_lt' (Nat.lt_trans below small)]
    exact .inl ⟨below, rfl⟩

def Track.behind {a b b' m n : Nat} (small : m < UInt32.size) (small' : n < UInt32.size) (left : a ≤ b)
    (right : a ≤ b') : Track m n where
  rel := Shift a b b'
  left := b
  right := b'
  unique := Shift.unique left right
  step {k} _ _ := .inr ⟨Nat.le_add_right b k, by omega⟩
  handle {k} below below' := by
    rw [UInt32.toNat_ofNat_of_lt' (Nat.lt_trans below small), UInt32.toNat_ofNat_of_lt' (Nat.lt_trans below' small')]
    exact .inr ⟨Nat.le_add_right b k, by omega⟩

/-- Behind what the bodies have made, arenas that were in step are in step again. -/
theorem Track.Agree.resume {m n : Nat} (small : a < UInt32.size) (smallM : m < UInt32.size) (smallN : n < UInt32.size)
    (left : a ≤ b) (right : a ≤ b') {α : Type} {R : α → α → Prop} {xs ys xs' ys' : Array α}
    (agree : (Track.ahead small left right).Agree R xs ys) (size : xs.size = a) (size' : ys.size = a)
    (grown : xs'.size = b) (grown' : ys'.size = b') (keeps : ∀ {i : Nat} {x}, xs[i]? = some x → xs'[i]? = some x)
    (keeps' : ∀ {i : Nat} {x}, ys[i]? = some x → ys'[i]? = some x) :
    (Track.behind smallM smallN left right).Agree R xs' ys' := by
  refine ⟨⟨0, grown, grown'⟩, fun {i j} rel => ?_⟩
  rcases rel with ⟨below, rfl⟩ | ⟨above, shifted⟩
  · have entry := agree.entries (.inl ⟨below, rfl⟩)
    have here : xs[j]? = some xs[j] := Array.getElem?_eq_getElem (size ▸ below)
    have here' : ys[j]? = some ys[j] := Array.getElem?_eq_getElem (size' ▸ below)
    rw [keeps here, keeps' here']
    rwa [here, here'] at entry
  · rw [Array.getElem?_eq_none (by omega), Array.getElem?_eq_none (by omega)]
    exact .none

end Target

namespace Lowering
open Source Target Lower

variable {source source' : Source.Program} {capabilities : Capabilities} {g id : SignatureId} {q b b' : Target.Program}
  {s t v' v : State} {declared : List Source.VarId} {items : List Item} {f : FuncId}

/-! ### In front of the body -/

/-- After the given items, `v` is the state in front of the statements of the body of `g`, which is that of `f`. -/
def Entry (source : Source.Program) (capabilities : Capabilities) (g : SignatureId) (items : List Item) (f : FuncId)
    (v : State) : Prop :=
  ∃ r s signature, Runs (registerAll source source.statements) (.initial source capabilities) () r ∧
    Passes source items r s ∧ source.signature? g = some signature ∧ s.callees g = some f ∧ Heads source signature f s v

theorem Entry.twins {p : Target.Program} {T : Tracks p q} {f' : FuncId}
    (start : T.AtStart) (akin : source.Akin source') (statements : source.statements = source'.statements)
    (infos : T.infos (State.initial source capabilities).program.info (State.initial source' capabilities).program.info)
    (mode : T.sameMode) (visible : ∀ id, T.visible id) (home : ∀ f, T.function f ∧ T.shared f.index.toNat)
    (bodies : ∀ id, .signature id ∈ items → source'.bodyOf id = source.bodyOf id)
    (entry : Entry source capabilities g items f v) (entry' : Entry source' capabilities g items f' v')
    (small : v.program.NoLarger p) (small' : v'.program.NoLarger q) :
    f = f' ∧ Twins T v v' ∧ v.scope.current = some f := by
  obtain ⟨r, s, signature, registered, passes, found, callee, head⟩ := entry
  obtain ⟨r', s', signature', registered', passes', found', callee', head'⟩ := entry'
  have twins := Twins.program start akin statements (fun _ => rfl) infos
    (fun id member => ⟨bodies id member, Tracks.covered mode (fun _ => visible _) (stmtsEvery_true _)⟩)
    (fun _ f _ _ => (home f).2) registered registered' passes passes' (head.path.noLarger.trans small)
    (head'.path.noLarger.trans small')
  obtain rfl : f = f' := by
    rw [State.callees, twins.callees] at callee
    exact Option.some.inj (callee.symm.trans callee')
  obtain ⟨_, rfl⟩ := akin.signature? found found'
  have headed := twins.head (fun f _ => home f) akin head head' small small'
  exact ⟨rfl, headed⟩

theorem Twins.program_eq {p : Target.Program} (twins : Twins (.same True p q) s t)
    (limits : s.program.instrLimit = t.program.instrLimit) : s.program = t.program := by
  have exact := @Tracks.same_exact True p q
  have instrs := twins.instrs.map_eq (f := id) (Instr.Alike.eq exact trivial)
  have values := twins.values.map_eq (f := id) fun alike => alike.1.eq exact trivial
  have vars := twins.vars.map_eq (f := id) (Variable.Alike.eq trivial)
  have rest : s.program.info = t.program.info := twins.infos
  rw [Array.map_id, Array.map_id] at instrs values vars
  change Target.Program.mk s.program.info s.program.globals s.program.functions s.program.vars s.program.instrs
    s.program.values s.program.links s.program.instrLimit = t.program
  rw [rest, twins.globals_eq, twins.functions_eq, vars, instrs, values, twins.links_eq, limits]

/-! ### The body -/

/-- From `v` to `w`, only the body of `f` was changed, and only the given variables were bound. -/
structure Spares (f : FuncId) (declared : List Source.VarId) (v w : State) : Prop where
  keeps : v.program.Extends w.program
  globals : w.program.globals = v.program.globals
  table : w.program.functions.map Function.name = v.program.functions.map Function.name
  functions : ∀ {i : Nat}, i ≠ f.index.toNat → w.program.functions[i]? = v.program.functions[i]?
  native : w.scope.nativeIntegers = v.scope.nativeIntegers
  callees : w.scope.functions = v.scope.functions
  bindings : ∀ {id : Source.VarId} {a}, id ∉ declared → w.scope.vars[id.index.toNat]? = some (some a) →
    v.scope.vars[id.index.toNat]? = some (some a)

theorem lowerStmts_spares {stmts : List Stmt} {result : Option Target.VarId}
    (locals : source.declaresOnly VarMode.isLocal stmts = true) (current : s.scope.current = some f)
    (inside : s.Inside result) (run : Runs (lowerStmts source stmts) s () t) (fits : t.program.Fits) :
    Spares f (stmtsDeclared stmts) s t := by
  have path := (stepwise_lowerStmts ..).path run
  obtain ⟨_, _, -, code, -⟩ := @lowerStmts_code s.env result source stmts _ _ inside run fits
  have keeps : Upkeep (some f) (· = .functionLocal) (fun _ => True) fun p _ => p.globals = s.program.globals ∧
      ∀ i, i ≠ f.index.toNat → p.functions[i]? = s.program.functions[i]? := by
    refine ⟨fun h _ globals functions => by rw [globals, functions]; exact h, rfl, fun h stored added => ?_,
      fun h _ _ => h⟩
    obtain ⟨rfl, ⟨e, b, body, -, same, -, -, rfl⟩ | ⟨e, isParam, -⟩ | ⟨free, -⟩⟩ := Program.addVariable_ok added
    · obtain rfl := Option.some.inj same
      exact ⟨h.1, fun i apart => (Array.getElem?_setIfInBounds_ne apart.symm).trans (h.2 i apart)⟩
    · simp [stored] at isParam
    · simp [stored, StorageClass.isFunctionOwned] at free
  have kept := keeps.lowerStmts (fun id member => ⟨trivial, fun decl found => ?_⟩) run current ⟨rfl, fun _ _ => rfl⟩
  · exact ⟨code.keeps, kept.1, path.names_eq (by simp), kept.2 _, path.steady.native, by rw [path.scope_frame],
      fun absent there => (lowerStmts_origin run there).resolve_left absent⟩
  · have isLocal := Program.declaresOnly.allowed locals member found
    cases mode : decl.mode <;> simp_all [storageOf, VarMode.isLocal]

theorem Spares.modifyBody {w : State} (h : Spares f declared v w) {change : Body → Body}
    (changed : w.program.modifyBody f change = .ok q) (region : Region) (log : Array Event) :
    Spares f declared v { program := q, scope := w.scope.leaveFunction, region, log } := by
  obtain ⟨_, -, written⟩ := Program.modifyBody_setBody changed
  have names := Program.setBody_names written
  have extends' := Program.setBody_extends written
  obtain ⟨e, found, rfl⟩ := Program.setBody_ok written
  exact { h with
    keeps := h.keeps.trans extends' fun _ => id
    table := names.trans h.table
    functions := fun apart => (Array.getElem?_setIfInBounds_ne apart.symm).trans (h.functions apart) }

/-! ### Behind the body -/

def Tracks.ahead {a b b' : Target.Program} (fits : a.Fits) (left : a.NoLarger b) (right : a.NoLarger b') :
    Tracks a a where
  sameMode := True
  insts := .ahead fits.instrs left.instrs right.instrs
  values := .ahead fits.values left.values right.values
  vars := .ahead fits.vars left.vars right.vars
  links := .ahead fits.links left.links right.links
  function _ := True
  fresh _ := trivial
  shared _ := True
  visible _ := True
  infos _ _ := True
  discards _ := trivial

theorem Tracks.ahead_atStart {a : Target.Program} {fits : a.Fits} {left : a.NoLarger b} {right : a.NoLarger b'} :
    (ahead fits left right).AtStart := ⟨⟨rfl, rfl⟩, ⟨rfl, rfl⟩, ⟨rfl, rfl⟩, ⟨rfl, rfl⟩⟩

def Tracks.behind {a b b' p q : Target.Program} (fits : p.Fits) (fits' : q.Fits) (left : a.NoLarger b)
    (right : a.NoLarger b') (f : FuncId) (visible : Source.VarId → Prop) : Tracks p q where
  sameMode := True
  insts := .behind fits.instrs fits'.instrs left.instrs right.instrs
  values := .behind fits.values fits'.values left.values right.values
  vars := .behind fits.vars fits'.vars left.vars right.vars
  links := .behind fits.links fits'.links left.links right.links
  function _ := True
  fresh _ := trivial
  shared i := i ≠ f.index.toNat
  visible
  infos _ _ := True
  discards _ := trivial

/-- Once the two bodies of `f` are lowered, the states are in step again. -/
theorem Twins.resume {x x' : State} {p : Target.Program} (smallP : p.Fits) (smallQ : q.Fits) {fits : v.program.Fits}
    {left : v.program.NoLarger b} {right : v.program.NoLarger b'} {declared' : List Source.VarId}
    (twins : Twins (.ahead fits left right) v v') (same : v.program = v'.program) (spares : Spares f declared v x)
    (spares' : Spares f declared' v' x') (sizes : x.program.NoLarger b ∧ b.NoLarger x.program)
    (sizes' : x'.program.NoLarger b' ∧ b'.NoLarger x'.program) (region : x.region = v.region ∧ x'.region = v'.region)
    (outside : x.scope.current = x'.scope.current) :
    Twins (.behind smallP smallQ left right f fun id => id ∉ declared ∧ id ∉ declared') x x' where
  instrs := twins.instrs.resume fits.instrs smallP.instrs smallQ.instrs left.instrs right.instrs rfl (by rw [same])
    (Nat.le_antisymm sizes.1.instrs sizes.2.instrs) (Nat.le_antisymm sizes'.1.instrs sizes'.2.instrs)
    spares.keeps.instrs spares'.keeps.instrs
  values := twins.values.resume fits.values smallP.values smallQ.values left.values right.values rfl (by rw [same])
    (Nat.le_antisymm sizes.1.values sizes.2.values) (Nat.le_antisymm sizes'.1.values sizes'.2.values)
    spares.keeps.values spares'.keeps.values
  vars := twins.vars.resume fits.vars smallP.vars smallQ.vars left.vars right.vars rfl (by rw [same])
    (Nat.le_antisymm sizes.1.vars sizes.2.vars) (Nat.le_antisymm sizes'.1.vars sizes'.2.vars)
    spares.keeps.vars spares'.keeps.vars
  links := twins.links.resume fits.links smallP.links smallQ.links left.links right.links rfl (by rw [same])
    (Nat.le_antisymm sizes.1.links sizes.2.links) (Nat.le_antisymm sizes'.1.links sizes'.2.links)
    (spares.keeps.links trivial) (spares'.keeps.links trivial)
  globals := by
    rw [spares.globals, spares'.globals]
    exact twins.globals
  table := by
    rw [size_eq_of_names spares.table, size_eq_of_names spares'.table]
    exact twins.table
  functions {i} apart := by
    rw [spares.functions apart, spares'.functions apart]
    exact twins.functions trivial
  infos := trivial
  nodes := by
    rw [region.1, region.2]
    exact twins.nodes
  mode _ := by
    rw [spares.native, spares'.native]
    exact twins.mode trivial
  current := outside
  callees := by
    rw [spares.callees, spares'.callees]
    exact twins.callees
  known _ := trivial
  resolved visible there there' :=
    twins.resolved trivial (spares.bindings visible.1 there) (spares'.bindings visible.2 there')

/-! ### The top level -/

def Item.signature? : Item → Option SignatureId
  | .signature id => some id
  | .declaration _ => none

theorem filterMap_items (source : Source.Program) :
    (source.statements.flatMap itemsOf).filterMap Item.signature? = source.listed := by
  rw [Program.listed]
  induction source.statements with
  | nil => rfl
  | cons stmt stmts ih =>
    rw [List.flatMap_cons, List.flatMap_cons, List.filterMap_append, ih]
    congr 1
    cases stmt with
    | function name ids => simp [itemsOf, Stmt.signatures, List.filterMap_map, Item.signature?, Function.comp_def]
    | _ => rfl

theorem mem_listed_of_item (member : .signature id ∈ source.statements.flatMap itemsOf) : id ∈ source.listed := by
  rw [← filterMap_items]
  exact List.mem_filterMap.mpr ⟨_, member, rfl⟩

theorem ne_of_place (once : source.listed.Nodup) {more : List Item}
    (place : source.statements.flatMap itemsOf = items ++ .signature g :: more)
    (member : .signature id ∈ items ∨ .signature id ∈ more) : id ≠ g := by
  have here : Item.signature? (.signature g) = some g := rfl
  rw [← filterMap_items, place, List.filterMap_append, List.filterMap_cons_some here, List.nodup_append] at once
  obtain ⟨-, behind, apart⟩ := once
  rintro rfl
  rcases member with member | member
  · exact apart id (List.mem_filterMap.mpr ⟨_, member, rfl⟩) id List.mem_cons_self rfl
  · exact (List.nodup_cons.mp behind).1 (List.mem_filterMap.mpr ⟨_, member, rfl⟩)

/-- What the statements of the body of `g` are lowered from, and what to. -/
inductive Mints (source : Source.Program) (capabilities : Capabilities) (g : SignatureId) :
    Target.Program → Target.Program → Prop where
  | body {items more f v w} (place : source.statements.flatMap itemsOf = items ++ .signature g :: more)
      (entry : Entry source capabilities g items f v)
      (run : Runs (lowerStmts source (source.bodyOf g)) { v with region := {} } () w) :
      Mints source capabilities g v.program w.program
  | nothing {p} (none : source.isLowered g = false) : Mints source capabilities g p p

/-- The stages around the body of a signature that is lowered. -/
theorem around_body {r : State} {more : List Item} (wellScoped : source.WellScoped)
    (isLowered : source.isLowered g = true)
    (registered : Runs (registerAll source source.statements) (.initial source capabilities) () r)
    (lowered : Runs (lowerAll source source.statements) r () t) (fits : t.program.Fits)
    (place : source.statements.flatMap itemsOf = items ++ .signature g :: more) :
    ∃ f v w x, Entry source capabilities g items f v ∧ r.callees g = some f ∧
      Runs (lowerStmts source (source.bodyOf g)) { v with region := {} } () w ∧
      (x.program.NoLarger w.program ∧ w.program.NoLarger x.program) ∧
      Spares f (stmtsDeclared (source.bodyOf g)) v x ∧ x.region = v.region ∧ x.scope.current = none ∧
      Passes source more x t := by
  have passes := Passes.ofAll lowered
  rw [place] at passes
  obtain ⟨s, before, after⟩ := passes.split
  rw [Program.isLowered, Bool.and_eq_true, decide_eq_true_eq] at isLowered
  obtain ⟨listed, hasBody⟩ := isLowered
  cases after with
  | signature run rest =>
    have small := rest.path.fits fits
    obtain ⟨signature, found, h⟩ := lowerSignature_ok run
    simp only [found, Option.any_some, Bool.and_eq_true, Bool.not_eq_true'] at hasBody
    rcases h with ⟨builtin, -⟩ | ⟨-, f, resolved, ⟨declared, -⟩ | ⟨-, body⟩⟩
    · simp [hasBody.1] at builtin
    · simp [hasBody.2] at declared
    have own := Program.bodyOf_eq found hasBody.1 hasBody.2
    have callee : s.callees g = some f := Option.join_eq_some_iff.mpr resolved
    obtain ⟨v, w, q, log, ⟨head, fitsV⟩, ⟨stmts, fitsW⟩, changed, rfl⟩ := lowerBody_fitting body small
    have sizes := Program.modifyBody_noLarger changed
    have bound : s.Bound := before.path.bound
      (((stepwise_registerAll ..).path registered).bound (initial_bound source capabilities))
    obtain ⟨result, -, inside, -, current, -⟩ := head_code bound head fitsV
    have locals := wellScoped.locals g listed
    rw [← own] at stmts
    have spares := lowerStmts_spares (s := { v with region := {} }) locals current (inside.inRegion {}) stmts fitsW
    have back : q.NoLarger w.program := by
      obtain ⟨_, -, written⟩ := Program.modifyBody_setBody changed
      obtain ⟨e, -, rfl⟩ := Program.setBody_ok written
      constructor <;> simp
    have entry : Entry source capabilities g items f v :=
      ⟨r, s, signature, registered, before, found, callee, head⟩
    rw [before.callees] at callee
    exact ⟨f, v, w, _, entry, callee, stmts, ⟨back, sizes⟩, { spares.modifyBody changed v.region log with }, rfl, rfl,
      rest⟩

theorem Entry.path (entry : Entry source capabilities g items f v) :
    Path .program (.initial source capabilities) v := by
  obtain ⟨r, s, signature, registered, passes, -, -, head⟩ := entry
  exact (((stepwise_registerAll ..).path registered).trans passes.path).trans head.path

theorem Twins.relocates {p : Target.Program} {T : Tracks p q} (twins : Twins T s t)
    (names : s.program.functions.map Function.name = t.program.functions.map Function.name) {exempt : Option FuncId}
    (shared : ∀ {f}, exempt ≠ some f → T.shared f.index.toNat) :
    s.program.Relocates T.pairing exempt t.program where
  names
  functions other := twins.functions (shared other)
  globals := twins.globals
  instrs := twins.instrs.entries
  values {v w} rel := by
    have entry := twins.values.entries rel
    change Option.Rel _ s.program.values[v.index.toNat]? t.program.values[w.index.toNat]?
    generalize s.program.values[v.index.toNat]? = x, t.program.values[w.index.toNat]? = y at entry
    cases entry with
    | none => exact .none
    | some alike => exact .some alike.1
  vars := twins.vars.entries
  links := twins.links.entries

theorem Filled.names_withBody {done done' : List SignatureId} {body : List Stmt} (h : Filled source done s)
    (h' : Filled (source.withBody g body) done' t) :
    s.program.functions.map Function.name = t.program.functions.map Function.name := by
  have named : ∀ id, ((source.withBody g body).signature? id).map Signature.name =
      (source.signature? id).map Signature.name := by
    intro id
    rw [source.withBody_signature?]
    split
    · cases source.signature? id <;> rfl
    · rfl
  have same := h'.names_eq
  simp only [named, source.withBody_isUser] at same
  have names := congrArg (List.map fun name => name.getD "") (h.names_eq.trans same.symm)
  simpa [← Array.toList_inj, Function.comp_def] using names

section
variable {body : List Stmt} {r t r' t' : State}

theorem relocates_of_not_lowered (unread : source.isLowered g = false)
    (registered : Runs (registerAll source source.statements) (.initial source capabilities) () r)
    (registered' : Runs (registerAll (source.withBody g body) source.statements)
      (.initial (source.withBody g body) capabilities) () r')
    (lowered : Runs (lowerAll source source.statements) r () t)
    (lowered' : Runs (lowerAll (source.withBody g body) source.statements) r' () t') (fits : t.program.Fits)
    (names : t.program.functions.map Function.name = t'.program.functions.map Function.name) (exempt : Option FuncId) :
    t.program.Relocates (.relocation t.program t.program t.program) exempt t'.program := by
  have akin := source.withBody_akin g body
  have bodies : ∀ id, .signature id ∈ source.statements.flatMap itemsOf →
      (source.withBody g body).bodyOf id = source.bodyOf id := fun id member =>
    source.withBody_bodyOf_of_not_lowered g body unread (mem_listed_of_item member)
  have path : Path .program _ t :=
    ((stepwise_registerAll ..).path registered).trans ((stepwise_lowerAll ..).path lowered)
  have path' : Path .program _ t' :=
    ((stepwise_registerAll ..).path registered').trans ((stepwise_lowerAll ..).path lowered')
  -- the programs are equal, so that both are within the sizes of the relocation
  have equal := Twins.program (T := .same True t.program t'.program) Tracks.same_atStart akin rfl (fun _ => rfl)
    (by rfl) (fun id member => ⟨bodies id member, Tracks.covered trivial (fun _ => trivial) (stmtsEvery_true _)⟩)
    (fun _ _ _ _ => trivial) registered registered' (.ofAll lowered) (.ofAll lowered') (.refl _) (.refl _)
  have same := equal.program_eq (path.steady.limit.trans path'.steady.limit.symm)
  have twins := Twins.program (T := .ahead fits (.refl t.program) (.refl t.program))
    Tracks.ahead_atStart akin rfl (fun _ => rfl) trivial
    (fun id member => ⟨bodies id member, Tracks.covered trivial (fun _ => trivial) (stmtsEvery_true _)⟩)
    (fun _ _ _ _ => trivial) registered registered' (.ofAll lowered) (.ofAll lowered') (.refl _) (same ▸ .refl _)
  exact twins.relocates names fun _ => trivial

/-- A signature with a body: before it the runs are the same, and behind it they are in step again. -/
theorem relocates_of_lowered (wellScoped : source.WellScoped) (wellScoped' : (source.withBody g body).WellScoped)
    (read : source.isLowered g = true)
    (registered : Runs (registerAll source source.statements) (.initial source capabilities) () r)
    (registered' : Runs (registerAll (source.withBody g body) source.statements)
      (.initial (source.withBody g body) capabilities) () r')
    (lowered : Runs (lowerAll source source.statements) r () t)
    (lowered' : Runs (lowerAll (source.withBody g body) source.statements) r' () t') (fits : t.program.Fits)
    (fits' : t'.program.Fits)
    (names : t.program.functions.map Function.name = t'.program.functions.map Function.name) :
    ∃ a b b', Mints source capabilities g a b ∧ Mints (source.withBody g body) capabilities g a b' ∧
      a.NoLarger b ∧ a.NoLarger b' ∧ t.program.Relocates (.relocation a b b') (r.callees g) t'.program := by
  have akin := source.withBody_akin g body
  have read' : (source.withBody g body).isLowered g = true := by rw [source.withBody_isLowered, read]
  have listed : g ∈ source.listed := by
    rw [Program.isLowered, Bool.and_eq_true, decide_eq_true_eq] at read
    exact read.1
  obtain ⟨items, more, place⟩ : ∃ items more, source.statements.flatMap itemsOf = items ++ .signature g :: more := by
    rw [← filterMap_items, List.mem_filterMap] at listed
    obtain ⟨item, member, isItem⟩ := listed
    cases item with
    | declaration id => cases isItem
    | signature id =>
      obtain rfl := Option.some.inj isItem
      exact List.append_of_mem member
  obtain ⟨f, v, w, x, entry, callee, run, sizes, spares, region, outside, rest⟩ :=
    around_body wellScoped read registered lowered fits place
  obtain ⟨f', v', w', x', entry', -, run', sizes', spares', region', outside', rest'⟩ :=
    around_body wellScoped' read' registered' lowered' fits' place
  have apart : ∀ {id}, .signature id ∈ items ∨ .signature id ∈ more → id ≠ g := ne_of_place wellScoped.listedOnce place
  have bodies : ∀ id, .signature id ∈ items → (source.withBody g body).bodyOf id = source.bodyOf id := fun id member =>
    source.withBody_bodyOf g body (apart (.inl member))
  -- in front of the body, the programs are equal
  obtain ⟨rfl, equal, -⟩ := Entry.twins (T := .same True v.program v'.program) Tracks.same_atStart akin rfl (by rfl)
    trivial (fun _ => trivial) (fun _ => ⟨trivial, trivial⟩) bodies entry entry' (.refl _) (.refl _)
  have same := equal.program_eq (entry.path.steady.limit.trans entry'.path.steady.limit.symm)
  have left : v.program.NoLarger w.program := ((stepwise_lowerStmts ..).path run).noLarger
  have right : v.program.NoLarger w'.program := same ▸ ((stepwise_lowerStmts ..).path run').noLarger
  have small : v.program.Fits := .of_noLarger (.of_noLarger (rest.path.fits fits) sizes.2) left
  obtain ⟨-, twins, -⟩ := Entry.twins (T := .ahead small left right) Tracks.ahead_atStart akin
    rfl trivial trivial (fun _ => trivial) (fun _ => ⟨trivial, trivial⟩) bodies entry entry' (.refl _) (same ▸ .refl _)
  have resumed := twins.resume fits fits' same spares spares' sizes sizes' ⟨region, region'⟩
    (outside.trans outside'.symm)
  -- behind the body, the scopes differ in what it has declared, which no other body refers to
  have every : ∀ id, .signature id ∈ more → (source.withBody g body).bodyOf id = source.bodyOf id ∧
      (Tracks.behind fits fits' left right f fun id => id ∉ stmtsDeclared (source.bodyOf g) ∧
        id ∉ stmtsDeclared ((source.withBody g body).bodyOf g)).Covered (source.bodyOf id) := by
    intro id member
    have other := apart (.inr member)
    have here : id ∈ source.listed := mem_listed_of_item (by rw [place]; simp [member])
    have unseen : ∀ {v}, source.inScope id v = true → v ∉ stmtsDeclared (source.bodyOf g) ∧
        v ∉ stmtsDeclared ((source.withBody g body).bodyOf g) := by
      refine fun inside => ⟨wellScoped.not_mem_declared here listed other.symm inside, ?_⟩
      rw [← source.withBody_inScope g body other] at inside
      exact wellScoped'.not_mem_declared here listed other.symm inside
    exact ⟨source.withBody_bodyOf g body other, Tracks.covered trivial unseen (wellScoped.refers id here)⟩
  have callees : x.callees = r.callees := rest.callees.symm.trans (Passes.ofAll lowered).callees
  have filled := (registerAll_registers (initial_registers source capabilities) registered).filled
  have final := resumed.passes akin every outside (fun id f' member callee' same => ?_) rest rest' (.refl _) (.refl _)
  · refine ⟨v.program, w.program, w'.program, .body place entry run, same ▸ .body place entry' run', left, right, ?_⟩
    refine final.relocates names fun {f'} other index => other ?_
    exact callee.trans (congrArg (some ∘ FuncId.mk) (UInt32.toNat_inj.mp index.symm))
  · rw [callees] at callee'
    have small := ((stepwise_lowerAll ..).path lowered).fits fits
    exact apart (.inr member) (filled.callee_inj small callee' callee same)

end

/-- If the body of one signature is replaced, all signatures keep their functions, and all other functions, with the
instructions, values, variables and links that they reach, are the same after a relocation. This keeps the handles from
before the statements of the body, and shifts those from after it by the difference of what the two bodies make. -/
theorem lower_relocates {body : List Stmt} {p p' : Target.Program} (wellScoped : source.WellScoped)
    (wellScoped' : (source.withBody g body).WellScoped) (h : lower source capabilities = .ok p)
    (h' : lower (source.withBody g body) capabilities = .ok p') (fits : p.Fits) (fits' : p'.Fits) :
    (source.withBody g body).functionOf? = source.functionOf? ∧
      ∃ a b b', Mints source capabilities g a b ∧ Mints (source.withBody g body) capabilities g a b' ∧
        a.NoLarger b ∧ a.NoLarger b' ∧ p.Relocates (.relocation a b b') (source.functionOf? g) p' := by
  refine ⟨source.withBody_functionOf? g body, ?_⟩
  obtain ⟨z, filled, -, -, functions⟩ := lower_filled h fits
  obtain ⟨z', filled', -, -, functions'⟩ := lower_filled h' fits'
  have names := filled.names_withBody filled'
  rw [← functions, ← functions'] at names
  obtain ⟨r, t, info, registered, lowered, rfl⟩ := lower_ok h
  obtain ⟨r', t', info', registered', lowered', rfl⟩ := lower_ok h'
  have small : t.program.Fits := ⟨fits.instrs, fits.values, fits.vars, fits.links, fits.functions⟩
  have small' : t'.program.Fits := ⟨fits'.instrs, fits'.values, fits'.vars, fits'.links, fits'.functions⟩
  have callees := (registerAll_registers (initial_registers source capabilities) registered).filled.callees
  by_cases read : source.isLowered g = true
  · obtain ⟨a, b, b', mints, mints', left, right, relocates⟩ :=
      relocates_of_lowered wellScoped wellScoped' read registered registered' lowered lowered' small small' names
    rw [callees] at relocates
    exact ⟨a, b, b', mints, mints', left, right, { relocates with }⟩
  · have unread : source.isLowered g = false := by simpa using read
    have unread' : (source.withBody g body).isLowered g = false := by rw [source.withBody_isLowered, unread]
    have relocates := relocates_of_not_lowered unread registered registered' lowered lowered' small names
      (source.functionOf? g)
    exact ⟨_, _, _, .nothing unread, .nothing unread', .refl _, .refl _, { relocates with }⟩

def Palette.short : Source.Program := Palette.program.withBody ⟨0⟩ [.ret (some (.place Palette.result))]

theorem lower_relocates_palette : Palette.program.WellScoped ∧ Palette.short.WellScoped ∧ ∃ p p',
    lower Palette.program {} = .ok p ∧ lower Palette.short {} = .ok p' ∧ (p.instrs.size, p'.instrs.size) = (32, 23) ∧
    ∃ a b b', Mints Palette.program {} ⟨0⟩ a b ∧ Mints Palette.short {} ⟨0⟩ a b' ∧
      p.Relocates (.relocation a b b') (some ⟨0⟩) p' := by
  have wellScoped : Palette.program.WellScoped := ⟨⟨by decide +kernel, by decide +kernel⟩, by decide, by decide +kernel⟩
  have wellScoped' : Palette.short.WellScoped := ⟨⟨by decide +kernel, by decide +kernel⟩, by decide, by decide +kernel⟩
  obtain ⟨p, lowered, fits, size⟩ : ∃ p, lower Palette.program {} = .ok p ∧ p.Fits ∧ p.instrs.size = 32 :=
    lower_checked (by decide +kernel)
  obtain ⟨p', lowered', fits', size'⟩ : ∃ p, lower Palette.short {} = .ok p ∧ p.Fits ∧ p.instrs.size = 23 :=
    lower_checked (by decide +kernel)
  obtain ⟨-, a, b, b', mints, mints', -, -, relocates⟩ :=
    lower_relocates wellScoped wellScoped' lowered lowered' fits fits'
  exact ⟨wellScoped, wellScoped', p, p', lowered, lowered', by rw [size, size'], a, b, b', mints, mints', relocates⟩

end Lowering

end ShaderSSA
