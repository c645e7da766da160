import ShaderSSA.Proofs.ParallelStatements
import ShaderSSA.Proofs.Success

/-!
Twin runs of lowering, whose programs correspond position by position. A `Track` says which positions of two arenas
correspond; from some position on both grow in step. Lowering keeps such a correspondence.
-/

namespace ShaderSSA

namespace Source

/-- The statements that lowering a signature lowers. -/
def Signature.lowered (signature : Signature) : List Stmt :=
  if !signature.isIntrinsic && signature.isDefined then signature.body else []

def Program.bodyOf (source : Program) (id : SignatureId) : List Stmt :=
  ((source.signature? id).map Signature.lowered).getD []

theorem Program.bodyOf_eq {source : Program} {id : SignatureId} {signature : Signature}
    (found : source.signature? id = some signature) (user : signature.isIntrinsic = false)
    (defined : signature.isDefined = true) : source.bodyOf id = signature.body := by
  simp [bodyOf, found, Signature.lowered, user, defined]

end Source

namespace Target

/-- Which positions of two arenas correspond. The arenas grow in step from `left` and `right` on, until they have the
sizes `m` and `n`. -/
structure Track (m n : Nat) where
  rel : Nat → Nat → Prop
  left : Nat
  right : Nat
  unique : ∀ {i j i' j'}, rel i j → rel i' j' → (i = i' ↔ j = j')
  step : ∀ {k}, left + k < m → right + k < n → rel (left + k) (right + k)
  handle : ∀ {k}, left + k < m → right + k < n →
    rel (UInt32.ofNat (left + k)).toNat (UInt32.ofNat (right + k)).toNat

/-- The arenas are in step, and what stands at corresponding positions is in `R`. -/
structure Track.Agree {m n : Nat} (track : Track m n) {α : Type} (R : α → α → Prop) (xs ys : Array α) : Prop where
  level : ∃ k, xs.size = track.left + k ∧ ys.size = track.right + k
  entries : ∀ {i j : Nat}, track.rel i j → Option.Rel R xs[i]? ys[j]?

theorem size_lt_of_push {α : Type} {xs : Array α} {x : α} {n : Nat} (small : (xs.push x).size ≤ n) : xs.size < n := by
  rw [Array.size_push] at small
  exact small

/-- Every position in range stands for itself, from `start` on and before that if it is an `old` one. -/
def Track.within {m : Nat} (small : m < UInt32.size) (start : Nat) (old : Nat → Prop) : Track m m where
  rel i j := i = j ∧ i < m ∧ (start ≤ i ∨ old i)
  left := start
  right := start
  unique := by
    rintro _ _ _ _ ⟨rfl, -⟩ ⟨rfl, -⟩
    rfl
  step {k} below _ := ⟨rfl, below, .inl (Nat.le_add_right start k)⟩
  handle {k} below _ := by
    rw [UInt32.toNat_ofNat_of_lt' (Nat.lt_trans below small)]
    exact ⟨rfl, below, .inl (Nat.le_add_right start k)⟩

namespace Track.Agree
variable {m n i j : Nat} {track : Track m n} {α : Type} {R : α → α → Prop} {xs ys : Array α}

theorem empty (start : track.left = 0 ∧ track.right = 0) (R : α → α → Prop) : track.Agree R #[] #[] :=
  ⟨⟨0, by simp [start.1], by simp [start.2]⟩, fun _ => .none⟩

theorem found (agree : track.Agree R xs ys) (rel : track.rel i j) {x y : α} (there : xs[i]? = some x)
    (there' : ys[j]? = some y) : R x y := by
  have entry := agree.entries rel
  rw [there, there'] at entry
  cases entry with
  | some alike => exact alike

theorem next (agree : track.Agree R xs ys) (small : xs.size < m) (small' : ys.size < n) :
    track.rel (UInt32.ofNat xs.size).toNat (UInt32.ofNat ys.size).toNat := by
  obtain ⟨k, size, size'⟩ := agree.level
  rw [size, size']
  exact track.handle (size ▸ small) (size' ▸ small')

theorem push (agree : track.Agree R xs ys) (small : xs.size < m) (small' : ys.size < n) {x y : α} (alike : R x y) :
    track.Agree R (xs.push x) (ys.push y) := by
  obtain ⟨k, size, size'⟩ := agree.level
  have last : track.rel xs.size ys.size := by
    rw [size, size']
    exact track.step (size ▸ small) (size' ▸ small')
  refine ⟨⟨k + 1, ?_, ?_⟩, fun {i j} rel => ?_⟩
  · rw [Array.size_push, size, Nat.add_assoc]
  · rw [Array.size_push, size', Nat.add_assoc]
  · have both := track.unique rel last
    rw [Array.getElem?_push, Array.getElem?_push]
    by_cases here : i = xs.size
    · rw [if_pos here, if_pos (both.mp here)]
      exact .some alike
    · rw [if_neg here, if_neg fun there => here (both.mpr there)]
      exact agree.entries rel

theorem modify (agree : track.Agree R xs ys) (rel : track.rel i j) {f g : α → α}
    (alike : ∀ {x y}, R x y → R (f x) (g y)) : track.Agree R (xs.modify i f) (ys.modify j g) := by
  refine ⟨by simpa using agree.level, fun {a b} other => ?_⟩
  have entry := agree.entries other
  have both := track.unique other rel
  rw [Array.getElem?_modify, Array.getElem?_modify]
  by_cases here : i = a
  · rw [if_pos here, if_pos (both.mp here.symm).symm]
    generalize xs[a]? = x, ys[b]? = y at entry
    cases entry with
    | none => exact .none
    | some known => exact .some (alike known)
  · rw [if_neg here, if_neg fun there => here (both.mpr there.symm).symm]
    exact entry

theorem whole (small : m < UInt32.size) {old : Nat → Prop} (agree : (Track.within small 0 old).Agree R xs xs)
    (size : xs.size = m) {x : α} (member : x ∈ xs) : R x x := by
  obtain ⟨i, below, rfl⟩ := Array.mem_iff_getElem.mp member
  exact agree.found ⟨rfl, size ▸ below, .inl (Nat.zero_le i)⟩ (Array.getElem?_eq_getElem below)
    (Array.getElem?_eq_getElem below)

end Track.Agree

end Target

namespace Lowering
open Source Target Lower

variable {p' q' : Target.Program} {signature signature' : Signature} {stmts : List Stmt} {ids : List SignatureId}
  {op op' : Operation} {s' t' : State}

/-- How two programs correspond that grow up to `p` and `q`. -/
structure Tracks (p q : Target.Program) where
  sameMode : Prop
  insts : Track p.instrs.size q.instrs.size
  values : Track p.values.size q.values.size
  vars : Track p.vars.size q.vars.size
  links : Track p.links.size q.links.size
  function : FuncId → Prop
  fresh : ∀ {i}, i < p.functions.size → function ⟨UInt32.ofNat i⟩
  /-- The functions whose bodies correspond. -/
  shared : Nat → Prop
  visible : Source.VarId → Prop
  infos : Info → Info → Prop
  discards : ∀ {a b}, infos a b → infos { a with usesDiscard := true } { b with usesDiscard := true }

namespace Tracks
variable {p q : Target.Program}

def pairing (T : Tracks p q) : Pairing where
  sameMode := T.sameMode
  inst i j := T.insts.rel i.index.toNat j.index.toNat
  value v w := T.values.rel v.index.toNat w.index.toNat
  var v w := T.vars.rel v.index.toNat w.index.toNat
  link a b := T.links.rel a.index.toNat b.index.toNat
  function := T.function

end Tracks

/-- The states correspond along the tracks. -/
structure Twins {p q : Target.Program} (T : Tracks p q) (s t : State) : Prop where
  instrs : T.insts.Agree (Instr.Alike T.pairing) s.program.instrs t.program.instrs
  values : T.values.Agree (fun a b => a.Alike T.pairing b ∧ ¬ (a.width = 0 ∨ 4 < a.width)) s.program.values
    t.program.values
  vars : T.vars.Agree (Variable.Alike T.pairing) s.program.vars t.program.vars
  links : T.links.Agree (Link.Alike T.pairing) s.program.links t.program.links
  globals : List.Forall₂ T.pairing.var s.program.globals.toList t.program.globals.toList
  table : s.program.functions.size = t.program.functions.size
  functions : ∀ {i : Nat}, T.shared i →
    Option.Rel (Function.Alike T.pairing) s.program.functions[i]? t.program.functions[i]?
  infos : T.infos s.program.info t.program.info
  nodes : NodesAlike T.pairing s.region.toList t.region.toList
  mode : T.sameMode → s.scope.nativeIntegers = t.scope.nativeIntegers
  current : s.scope.current = t.scope.current
  callees : s.scope.functions = t.scope.functions
  known : ∀ {i : Nat} {f}, s.scope.functions[i]? = some (some f) → T.function f
  resolved : ∀ {id : Source.VarId} {v w}, T.visible id → s.scope.vars[id.index.toNat]? = some (some v) →
    t.scope.vars[id.index.toNat]? = some (some w) → T.pairing.var v w

namespace Twins
variable {p q : Target.Program} {T : Tracks p q} {s t : State} {type : ShaderType} {v w : Target.VarId}

theorem effect (twins : Twins T s t) (ops : op.Alike T.pairing op') (small : (s.withEffect op).program.NoLarger p)
    (small' : (t.withEffect op').program.NoLarger q) : Twins T (s.withEffect op) (t.withEffect op') := by
  have room : s.program.instrs.size < p.instrs.size := size_lt_of_push small.instrs
  have room' : t.program.instrs.size < q.instrs.size := size_lt_of_push small'.instrs
  exact { twins with
    instrs := twins.instrs.push room room' ⟨ops, .none⟩
    nodes := twins.nodes.push (.instr (twins.instrs.next room room')) }

theorem define (twins : Twins T s t) {width bits bits' : UInt8} (ops : op.Alike T.pairing op')
    (narrow : ¬ (width = 0 ∨ 4 < width)) (sizes : T.sameMode → bits = bits')
    (small : (s.withValue op width bits).program.NoLarger p)
    (small' : (t.withValue op' width bits').program.NoLarger q) :
    T.pairing.value s.nextValue t.nextValue ∧ Twins T (s.withValue op width bits) (t.withValue op' width bits') := by
  have room : s.program.instrs.size < p.instrs.size ∧ s.program.values.size < p.values.size :=
    ⟨size_lt_of_push small.instrs, size_lt_of_push small.values⟩
  have room' : t.program.instrs.size < q.instrs.size ∧ t.program.values.size < q.values.size :=
    ⟨size_lt_of_push small'.instrs, size_lt_of_push small'.values⟩
  have inst := twins.instrs.next room.1 room'.1
  have value := twins.values.next room.2 room'.2
  exact ⟨value, { twins with
    instrs := twins.instrs.push room.1 room'.1 ⟨ops, .some value⟩
    values := twins.values.push room.2 room'.2 ⟨⟨rfl, sizes, inst⟩, narrow⟩
    nodes := twins.nodes.push (.instr inst) }⟩

theorem root (twins : Twins T s t) (vars : T.pairing.var v w) (room : s.program.links.size < p.links.size)
    (room' : t.program.links.size < q.links.size) :
    T.pairing.link s.program.links.nextId t.program.links.nextId ∧
      Twins T { s with program := { s.program with links := s.program.links.push ⟨.var v, type, none⟩ } }
        { t with program := { t.program with links := t.program.links.push ⟨.var w, type, none⟩ } } :=
  ⟨twins.links.next room room', { twins with links := twins.links.push room room' ⟨.var vars, rfl, .none⟩ }⟩

theorem append (twins : Twins T s t) {c c' d d' : Chain} {kind kind' : LinkKind} {ls ls' : Links}
    (chains : c.Alike T.pairing c') (kinds : kind.Alike T.pairing kind')
    (appended : s.program.links.append c kind type = .ok (d, ls))
    (appended' : t.program.links.append c' kind' type = .ok (d', ls'))
    (small : { s.program with links := ls }.NoLarger p) (small' : { t.program with links := ls' }.NoLarger q) :
    d.Alike T.pairing d' ∧ Twins T { s with program := { s.program with links := ls } }
      { t with program := { t.program with links := ls' } } := by
  obtain ⟨parent, -, -, rfl, rfl⟩ := append_ok appended
  obtain ⟨parent', -, -, rfl, rfl⟩ := append_ok appended'
  have room : s.program.links.size < p.links.size := size_lt_of_push (Array.size_modify ▸ small.links)
  have room' : t.program.links.size < q.links.size := size_lt_of_push (Array.size_modify ▸ small'.links)
  have next : T.pairing.link s.program.links.nextId t.program.links.nextId := twins.links.next room room'
  have pushed := twins.links.push room room' (x := ⟨kind, type, none⟩) (y := ⟨kind', type, none⟩) ⟨kinds, rfl, .none⟩
  have chained := pushed.modify chains.tail (f := fun l => { l with child := some s.program.links.nextId })
    (g := fun l => { l with child := some t.program.links.nextId }) fun alike => ⟨alike.kind, alike.type, .some next⟩
  exact ⟨⟨chains.head, next⟩, { twins with links := chained }⟩

theorem function_set {xs ys : Array Function} (table : xs.size = ys.size)
    (functions : ∀ {i : Nat}, T.shared i → Option.Rel (Function.Alike T.pairing) xs[i]? ys[i]?) {i : Nat}
    {f g : Function} (alike : T.shared i → f.Alike T.pairing g) {j : Nat} (shared : T.shared j) :
    Option.Rel (Function.Alike T.pairing) (xs.setIfInBounds i f)[j]? (ys.setIfInBounds i g)[j]? := by
  rw [Array.getElem?_setIfInBounds, Array.getElem?_setIfInBounds, table]
  by_cases here : i = j
  · subst here
    rw [if_pos rfl, if_pos rfl]
    split
    · exact .some (alike shared)
    · exact .none
  · rw [if_neg here, if_neg here]
    exact functions shared

theorem modifyBody (twins : Twins T s t) {f : FuncId} {change change' : Body → Body}
    (changed : s.program.modifyBody f change = .ok p') (changed' : t.program.modifyBody f change' = .ok q')
    (alike : ∀ {b b'}, T.shared f.index.toNat → b.Alike T.pairing b' → (change b).Alike T.pairing (change' b')) :
    Twins T { s with program := p' } { t with program := q' } := by
  obtain ⟨g, b, found, body, rfl⟩ := Program.modifyBody_ok changed
  obtain ⟨g', b', found', body', rfl⟩ := Program.modifyBody_ok changed'
  refine { twins with
    table := by simpa using twins.table
    functions := function_set twins.table twins.functions fun shared => ?_ }
  have both := twins.functions shared
  rw [found, found'] at both
  rcases both with ⟨name, bodies⟩ | _
  rw [body, body'] at bodies
  rcases bodies with bodies | _
  exact ⟨name, .some (alike shared bodies)⟩

theorem add (twins : Twins T s t) {x y : Variable} {owner : Option FuncId} (home : ∀ f, owner = some f → T.function f)
    (vars : x.Alike T.pairing y) (added : s.program.addVariable x owner = (.ok v, p'))
    (added' : t.program.addVariable y owner = (.ok w, q')) (small : p'.NoLarger p) (small' : q'.NoLarger q) :
    T.pairing.var v w ∧ Twins T { s with program := p' } { t with program := q' } := by
  have owned : ∀ o, (∀ f, o = some f → T.function f) →
      { x with owner := o }.Alike T.pairing { y with owner := o } := fun o known =>
    ⟨by have same := congrArg (fun z : Variable => { z with owner := o }) vars.rest; exact same, vars.nesting,
      vars.initializer, known⟩
  have storage := vars.storage
  obtain ⟨_, here, -⟩ := Program.addVariable_vars added
  obtain ⟨_, here', -⟩ := Program.addVariable_vars added'
  have room : s.program.vars.size < p.vars.size := size_lt_of_push (here ▸ small.vars)
  have room' : t.program.vars.size < q.vars.size := size_lt_of_push (here' ▸ small'.vars)
  have next : T.pairing.var ⟨UInt32.ofNat s.program.vars.size⟩ ⟨UInt32.ofNat t.program.vars.size⟩ :=
    twins.vars.next room room'
  obtain ⟨rfl, ⟨f, g, b, stored, rfl, found, body, rfl⟩ | ⟨f, stored, rfl, rfl⟩ | ⟨free, rfl⟩⟩ :=
    Program.addVariable_ok added
  · obtain ⟨rfl, ⟨f', g', b', -, same, found', body', rfl⟩ | ⟨f', other, -, -⟩ | ⟨other, -⟩⟩ :=
      Program.addVariable_ok added'
    · obtain rfl := Option.some.inj same
      refine ⟨next, { twins with
        vars := twins.vars.push room room' (owned _ home)
        table := by simpa using twins.table
        functions := function_set twins.table twins.functions fun shared => ?_ }⟩
      have both := twins.functions shared
      rw [found, found'] at both
      rcases both with ⟨name, bodies⟩ | _
      rw [body, body'] at bodies
      rcases bodies with ⟨params, returned, locals, nodes⟩ | _
      exact ⟨name, .some ⟨params, returned, by simpa using List.rel_append locals (.cons next .nil), nodes⟩⟩
    · simp [← storage, stored] at other
    · simp [← storage, stored, StorageClass.isFunctionOwned] at other
  · obtain ⟨rfl, ⟨f', g', b', other, -⟩ | ⟨f', -, same, rfl⟩ | ⟨other, -⟩⟩ := Program.addVariable_ok added'
    · simp [← storage, stored] at other
    · obtain rfl := Option.some.inj same
      exact ⟨next, { twins with vars := twins.vars.push room room' (owned _ home) }⟩
    · simp [← storage, stored, StorageClass.isFunctionOwned] at other
  · obtain ⟨rfl, ⟨f', g', b', other, -⟩ | ⟨f', other, -, -⟩ | ⟨-, rfl⟩⟩ := Program.addVariable_ok added'
    · simp [storage, other, StorageClass.isFunctionOwned] at free
    · simp [storage, other, StorageClass.isFunctionOwned] at free
    · exact ⟨next, { twins with
        vars := twins.vars.push room room' (owned _ (by rintro f ⟨⟩))
        globals := by simpa using List.rel_append twins.globals (.cons next .nil) }⟩

theorem bind (twins : Twins T s t) {id : Source.VarId} {v w : Target.VarId} {c d : Scope} (vars : T.pairing.var v w)
    (bound : s.scope.bindVariable id v = .ok c) (bound' : t.scope.bindVariable id w = .ok d) :
    Twins T { s with scope := c } { t with scope := d } := by
  obtain ⟨inside, rfl⟩ := bindVariable_ok bound
  obtain ⟨inside', rfl⟩ := bindVariable_ok bound'
  refine { twins with resolved := fun {i a b} visible there there' => ?_ }
  dsimp only at there there'
  by_cases same : id.index.toNat = i.index.toNat
  · rw [← same, Array.getElem?_setIfInBounds_self_of_lt inside, Option.some.injEq, Option.some.injEq] at there
    rw [← same, Array.getElem?_setIfInBounds_self_of_lt inside', Option.some.injEq, Option.some.injEq] at there'
    exact there ▸ there' ▸ vars
  · rw [Array.getElem?_setIfInBounds_ne same] at there there'
    exact twins.resolved visible there there'

end Twins

namespace Tracks
variable {p q : Target.Program}

/-- Lowering keeps twins inside a shared function, and outside all functions. -/
def likeness (T : Tracks p q) (current : Option FuncId)
    (home : ∀ f, current = some f → T.function f ∧ T.shared f.index.toNat) : Likeness where
  toPairing := T.pairing
  alike s t := Twins T s t ∧ s.scope.current = current
  left := p
  right := q
  current
  visible := T.visible
  stores _ := True
  binds _ := True
  temporary := trivial
  mode alike := alike.1.mode
  inside alike := ⟨alike.2, alike.1.current ▸ alike.2⟩
  resolved alike := alike.1.resolved
  callees alike there there' := by
    rw [← alike.1.callees, there, Option.some.injEq, Option.some.injEq] at there'
    exact ⟨there', alike.1.known there⟩
  values alike rel there there' := (alike.1.values.found rel there there').1
  links alike rel there there' := alike.1.links.found rel there there'
  vars alike rel there there' := alike.1.vars.found rel there there'
  returned {s t f v w ns ns'} alike inside there there' := by
    have both := alike.1.functions (home f inside).2
    rw [Program.code?, Option.map_eq_some_iff] at there there'
    obtain ⟨b, there, at_b⟩ := there
    obtain ⟨b', there', at_b'⟩ := there'
    obtain ⟨g, found, body⟩ := Option.bind_eq_some_iff.mp there
    obtain ⟨g', found', body'⟩ := Option.bind_eq_some_iff.mp there'
    rw [found, found'] at both
    rcases both with ⟨-, bodies⟩ | _
    rw [body, body'] at bodies
    rcases bodies with ⟨-, returned, -, -⟩ | _
    rw [(Prod.mk.inj at_b).1, (Prod.mk.inj at_b').1] at returned
    rcases returned with vars | _
    exact vars
  nodes alike := alike.1.nodes
  effect alike ops small small' := ⟨alike.1.effect ops small small', alike.2⟩
  define alike ops narrow sizes small small' :=
    have ⟨value, twins⟩ := alike.1.define ops narrow sizes small small'
    ⟨value, twins, alike.2⟩
  root alike vars left right small small' := by
    subst left right
    obtain ⟨link, twins⟩ := alike.1.root vars (size_lt_of_push small.links)
      (size_lt_of_push small'.links)
    exact ⟨link, twins, alike.2⟩
  append alike chains kinds appended appended' small small' :=
    have ⟨chain, twins⟩ := alike.1.append chains kinds appended appended' small small'
    ⟨chain, twins, alike.2⟩
  add alike vars _ added added' small small' :=
    have ⟨var, twins⟩ := alike.1.add (fun f inside => (home f inside).1) vars added added' small small'
    ⟨var, twins, alike.2⟩
  bind alike _ vars bound bound' :=
    ⟨alike.1.bind vars bound bound', by
      obtain ⟨-, rfl⟩ := bindVariable_ok bound
      exact alike.2⟩
  region alike nodes := ⟨{ alike.1 with nodes }, alike.2⟩
  log alike := ⟨{ alike.1 with }, alike.2⟩
  discards alike := ⟨{ alike.1 with infos := T.discards alike.1.infos }, alike.2⟩

/-- What `var` and `node` hold of is lowered in step along the tracks. -/
structure Covers (T : Tracks p q) (var : Source.VarId → Bool) (node : ExprOp → ShaderType → Bool) : Prop where
  vars : ∀ {id}, var id = true → T.visible id
  conversions : ∀ {type}, node .convert type = true → T.sameMode ∨ type.baseType? ≠ some .bool

/-- The statements are lowered in step along the tracks. -/
def Covered (T : Tracks p q) (stmts : List Stmt) : Prop :=
  ∃ var node, T.Covers var node ∧ stmtsEvery var node stmts = true

theorem covered {T : Tracks p q} (mode : T.sameMode) {var : Source.VarId → Bool}
    (visible : ∀ {id}, var id = true → T.visible id) (every : stmtsEvery var (fun _ _ => true) stmts = true) :
    T.Covered stmts :=
  ⟨var, fun _ _ => true, ⟨visible, fun _ => .inl mode⟩, every⟩

end Tracks

namespace Twins
variable {p q : Target.Program} {T : Tracks p q} {source source' : Source.Program} {s t s' t' : State} {f : FuncId}
  {id : SignatureId}

/-! ### Functions -/

theorem registerSignature (twins : Twins T s t) (akin : source.Akin source')
    (run : Runs (registerSignature source id) s () s') (run' : Runs (registerSignature source' id) t () t')
    (small : s'.program.NoLarger p) : Twins T s' t' := by
  obtain ⟨signature, found, h⟩ := registerSignature_ok run
  obtain ⟨signature', found', h'⟩ := registerSignature_ok run'
  obtain ⟨_, rfl⟩ := akin.signature? found found'
  rcases h with ⟨builtin, rfl⟩ | ⟨user, scope, log, bound, rfl⟩ <;>
    rcases h' with ⟨builtin', rfl⟩ | ⟨user', scope', log', bound', rfl⟩
  · exact twins
  · cases builtin.symm.trans user'
  · cases user.symm.trans builtin'
  obtain ⟨inside, rfl⟩ := bindFunction_ok bound
  obtain ⟨inside', rfl⟩ := bindFunction_ok bound'
  have room : s.program.functions.size < p.functions.size := size_lt_of_push small.functions
  refine { twins with table := ?_, functions := ?_, callees := ?_, known := ?_ }
  · simp [Program.addFunction, twins.table]
  · intro i shared
    simp only [Program.addFunction, Array.getElem?_push, twins.table]
    split
    · exact .some ⟨rfl, .none⟩
    · exact twins.functions shared
  · simp only [twins.callees, twins.table]
  · intro i f there
    dsimp only at there
    rw [Array.getElem?_setIfInBounds] at there
    split at there
    · rw [Option.some.injEq, Option.some.injEq] at there
      exact there ▸ T.fresh room
    · exact twins.known there

theorem registerSignatures (twins : Twins T s t) (akin : source.Akin source')
    (run : Runs (registerSignatures source ids) s () s') (run' : Runs (registerSignatures source' ids) t () t')
    (small : s'.program.NoLarger p) : Twins T s' t' := by
  induction ids generalizing s t with
  | nil =>
    obtain ⟨-, rfl⟩ := runs_pure.mp run
    obtain ⟨-, rfl⟩ := runs_pure.mp run'
    exact twins
  | cons id ids ih =>
    obtain ⟨_, u, first, rest⟩ := runs_bind.mp run
    obtain ⟨_, u', first', rest'⟩ := runs_bind.mp run'
    have later := ((stepwise_registerSignatures source ids).path rest).noLarger.trans small
    exact ih (twins.registerSignature akin first first' later) rest rest'

theorem registerAll (twins : Twins T s t) (akin : source.Akin source') (run : Runs (registerAll source stmts) s () s')
    (run' : Runs (registerAll source' stmts) t () t') (small : s'.program.NoLarger p) : Twins T s' t' := by
  rw [registerAll_eq] at run run'
  exact twins.registerSignatures akin run run' small

theorem setBody (twins : Twins T s t) (emptied : s.program.setBody f (some {}) = .ok p')
    (emptied' : t.program.setBody f (some {}) = .ok q') :
    Twins T { s with program := p', scope := { s.scope with current := some f } }
      { t with program := q', scope := { t.scope with current := some f } } := by
  obtain ⟨g, found, rfl⟩ := Program.setBody_ok emptied
  obtain ⟨g', found', rfl⟩ := Program.setBody_ok emptied'
  refine { twins with
    current := rfl
    table := by simpa using twins.table
    functions := function_set twins.table twins.functions fun shared => ?_ }
  have both := twins.functions shared
  rw [found, found'] at both
  rcases both with ⟨name, -⟩ | _
  exact ⟨name, .some ⟨.nil, .none, .nil, .nil⟩⟩

section
variable {f : FuncId} (home : ∀ g, some f = some g → T.function g ∧ T.shared g.index.toNat)

theorem declareParams (akin : source.Akin source') {ids : List Source.VarId}
    (alike : (T.likeness (some f) home).alike s t) (run : Runs (declareParams source signature f ids) s () s')
    (run' : Runs (declareParams source' signature' f ids) t () t') (small : s'.program.NoLarger p)
    (small' : t'.program.NoLarger q) : (T.likeness (some f) home).alike s' t' := by
  induction ids generalizing s t with
  | nil =>
    obtain ⟨-, rfl⟩ := runs_pure.mp run
    obtain ⟨-, rfl⟩ := runs_pure.mp run'
    exact alike
  | cons id ids ih =>
    obtain ⟨v, u, -, p', declared, -, -, listed, rest⟩ := declareParams_ok run
    obtain ⟨w, u', -, q', declared', -, -, listed', rest'⟩ := declareParams_ok run'
    have later := ((stepwise_declareParams ..).path rest).noLarger.trans small
    have later' := ((stepwise_declareParams ..).path rest').noLarger.trans small'
    have sizes := (Program.modifyBody_noLarger listed).trans later
    have sizes' := (Program.modifyBody_noLarger listed').trans later'
    obtain ⟨vars, alike⟩ := parallel_declare akin ⟨trivial, fun _ _ => trivial⟩ declared declared' sizes sizes' alike
    refine ih ⟨alike.1.modifyBody listed listed' fun _ bodies => ?_, alike.2⟩ rest rest'
    exact { bodies with params := by simpa using List.rel_append bodies.params (.cons vars .nil) }

theorem declareReturn {type : ShaderType} (alike : (T.likeness (some f) home).alike s t)
    (run : Runs (declareReturn f type) s () s') (run' : Runs (declareReturn f type) t () t')
    (small : s'.program.NoLarger p) (small' : t'.program.NoLarger q) : (T.likeness (some f) home).alike s' t' := by
  obtain ⟨void, rfl⟩ | ⟨valued, v, u, added, changed⟩ := declareReturn_ok run <;>
    obtain ⟨void', rfl⟩ | ⟨valued', w, u', added', changed'⟩ := declareReturn_ok run'
  · exact alike
  · exact absurd (valued'.symm.trans void) Bool.false_ne_true
  · exact absurd (valued.symm.trans void') Bool.false_ne_true
  · have sizes := ((stepwise_modifyBody ..).path changed).noLarger.trans small
    have sizes' := ((stepwise_modifyBody ..).path changed').noLarger.trans small'
    have same : Variable.Alike T.pairing { name := "return_var", type, storage := .functionLocal }
        { name := "return_var", type, storage := .functionLocal } := ⟨rfl, rfl, fun _ => rfl, nofun⟩
    have adds := parallel_addVariable (L := T.likeness (some f) home) same trivial
    obtain ⟨vars, alike⟩ := adds added added' sizes sizes' alike
    obtain ⟨p', listed, rfl⟩ := modifyBody_ok changed
    obtain ⟨q', listed', rfl⟩ := modifyBody_ok changed'
    refine ⟨alike.1.modifyBody listed listed' fun _ bodies => ?_, alike.2⟩
    exact { bodies with returnVar := .some vars }

theorem head (twins : Twins T s t) (akin : source.Akin source') {body : List Stmt}
    (head : Heads source signature f s s') (head' : Heads source' { signature with body } f t t')
    (small : s'.program.NoLarger p) (small' : t'.program.NoLarger q) : (T.likeness (some f) home).alike s' t' := by
  obtain ⟨_, u, emptied, params, returned⟩ := head
  obtain ⟨_, u', emptied', params', returned'⟩ := head'
  have sizes := ((stepwise_declareReturn ..).path returned).noLarger.trans small
  have sizes' := ((stepwise_declareReturn ..).path returned').noLarger.trans small'
  have listed := declareParams home akin ⟨twins.setBody emptied emptied', rfl⟩ params params' sizes sizes'
  exact declareReturn home listed returned returned' small small'

theorem lowerStmts (alike : (T.likeness (some f) home).alike s t) (akin : source.Akin source')
    (covered : T.Covered stmts) (run : Runs (Lowering.lowerStmts source stmts) s () s')
    (run' : Runs (Lowering.lowerStmts source' stmts) t () t') (small : s'.program.NoLarger p)
    (small' : t'.program.NoLarger q) : (T.likeness (some f) home).alike s' t' := by
  obtain ⟨var, node, covers, every⟩ := covered
  have lowered := parallel_lowerStmts (L := T.likeness (some f) home) ⟨covers.vars, covers.conversions⟩ akin stmts every
    fun _ _ => ⟨trivial, fun _ _ => trivial⟩
  exact (lowered run run' small small' alike).2

end

theorem finish (twins : Twins T s t) {region region' : Region}
    (outer : NodesAlike T.pairing region.toList region'.toList)
    (changed : s.program.modifyBody f (fun b => { b with nodes := s.region.toList }) = .ok p')
    (changed' : t.program.modifyBody f (fun b => { b with nodes := t.region.toList }) = .ok q')
    (log log' : Array Event) : Twins T { program := p', scope := s.scope.leaveFunction, region, log }
      { program := q', scope := t.scope.leaveFunction, region := region', log := log' } := by
  have written := twins.modifyBody changed changed' fun _ bodies => { bodies with nodes := twins.nodes }
  exact { written with nodes := outer, current := rfl }

theorem lowerBody (twins : Twins T s t) (akin : source.Akin source') (covered : T.Covered signature.body)
    (home : T.function f ∧ T.shared f.index.toNat) (run : Runs (lowerBody source signature f) s () s')
    (run' : Runs (lowerBody source' signature f) t () t') (small : s'.program.NoLarger p)
    (small' : t'.program.NoLarger q) : Twins T s' t' := by
  obtain ⟨v, w, _, log, head, stmts, changed, rfl⟩ := lowerBody_ok run
  obtain ⟨v', w', _, log', head', stmts', changed', rfl⟩ := lowerBody_ok run'
  have sizes := (Program.modifyBody_noLarger changed).trans small
  have sizes' := (Program.modifyBody_noLarger changed').trans small'
  have above := ((stepwise_lowerStmts ..).path stmts).noLarger.trans sizes
  have above' := ((stepwise_lowerStmts ..).path stmts').noLarger.trans sizes'
  have inside : ∀ g, some f = some g → T.function g ∧ T.shared g.index.toNat := fun g same =>
    Option.some.inj same ▸ home
  have headed := twins.head inside akin head head' above above'
  have entered : (T.likeness (some f) inside).alike { v with region := {} } { v' with region := {} } :=
    (T.likeness (some f) inside).region headed .nil
  have left := lowerStmts inside entered akin covered stmts stmts' sizes sizes'
  exact left.1.finish headed.1.nodes changed changed' log log'

theorem lowerSignature (twins : Twins T s t) (akin : source.Akin source') (same : source'.bodyOf id = source.bodyOf id)
    (covered : T.Covered (source.bodyOf id))
    (shared : ∀ f, s.scope.functions[id.index.toNat]? = some (some f) → T.shared f.index.toNat)
    (run : Runs (lowerSignature source id) s () s') (run' : Runs (lowerSignature source' id) t () t')
    (small : s'.program.NoLarger p) (small' : t'.program.NoLarger q) : Twins T s' t' := by
  obtain ⟨signature, found, h⟩ := lowerSignature_ok run
  obtain ⟨signature', found', h'⟩ := lowerSignature_ok run'
  obtain ⟨_, rfl⟩ := akin.signature? found found'
  -- the signatures agree in all but their bodies, so both runs take the same way
  rcases h with ⟨builtin, rfl⟩ | ⟨user, f, resolved, h⟩ <;>
    rcases h' with ⟨builtin', rfl⟩ | ⟨user', g, resolved', h'⟩
  · exact twins
  · cases builtin.symm.trans user'
  · cases user.symm.trans builtin'
  obtain rfl : f = g := by
    rw [← twins.callees, resolved] at resolved'
    simpa using resolved'
  rcases h with ⟨declared, log, rfl⟩ | ⟨defined, body⟩ <;>
    rcases h' with ⟨declared', log', rfl⟩ | ⟨defined', body'⟩
  · exact { twins with }
  · cases declared.symm.trans defined'
  · cases defined.symm.trans declared'
  have home := And.intro (twins.known resolved) (shared f resolved)
  rw [Program.bodyOf_eq found user defined] at same covered
  rw [Program.bodyOf_eq found' user' defined'] at same
  obtain rfl := same
  exact twins.lowerBody akin covered home body body' small small'

theorem declare (twins : Twins T s t) (akin : source.Akin source') (outside : s.scope.current = none)
    {id : Source.VarId} {v w : Target.VarId} (run : Runs (declare source id) s v s')
    (run' : Runs (declare source' id) t w t') (small : s'.program.NoLarger p) (small' : t'.program.NoLarger q) :
    Twins T s' t' :=
  (parallel_declare (L := T.likeness none nofun) akin ⟨trivial, fun _ _ => trivial⟩ run run' small small'
    ⟨twins, outside⟩).2.1

end Twins

/-! ### The top level -/

/-- What lowering meets at the top level. -/
inductive Item where
  | declaration (id : Source.VarId)
  | signature (id : SignatureId)

def itemsOf : Stmt → List Item
  | .declare id => [.declaration id]
  | .function _ ids => ids.map .signature
  | _ => []

/-- The items are lowered one after the other, from `s` to `t`. -/
inductive Passes (source : Source.Program) : List Item → State → State → Prop where
  | nil {s} : Passes source [] s s
  | declaration {s t u id v items} (run : Runs (declare source id) s v t) (rest : Passes source items t u) :
      Passes source (.declaration id :: items) s u
  | signature {s t u id items} (run : Runs (lowerSignature source id) s () t) (rest : Passes source items t u) :
      Passes source (.signature id :: items) s u

theorem lowerSignature_callees {source : Source.Program} {s t : State} {id : SignatureId}
    (run : Runs (lowerSignature source id) s () t) : t.callees = s.callees := by
  obtain ⟨signature, -, ⟨-, rfl⟩ | ⟨-, f, -, ⟨-, log, rfl⟩ | ⟨-, body⟩⟩⟩ := lowerSignature_ok run
  · rfl
  · rfl
  obtain ⟨v, w, q, log, ⟨p, u, -, params, returned⟩, stmts, -, rfl⟩ := lowerBody_ok body
  have listed := (declareParams_declares params).callees
  have entered : v.callees = u.callees := by
    funext id
    rw [State.callees, State.callees, declareReturn_scope returned]
  have left := ((stepwise_lowerStmts ..).path stmts).callees_eq
  exact left.trans (entered.trans listed)

namespace Passes
variable {source : Source.Program} {s t u : State} {items more : List Item}

theorem append (h : Passes source items s t) (h' : Passes source more t u) : Passes source (items ++ more) s u := by
  induction h with
  | nil => exact h'
  | declaration run _ ih => exact .declaration run (ih h')
  | signature run _ ih => exact .signature run (ih h')

theorem split (h : Passes source (items ++ more) s u) :
    ∃ t, Passes source items s t ∧ Passes source more t u := by
  induction items generalizing s with
  | nil => exact ⟨s, .nil, h⟩
  | cons item items ih =>
    cases h with
    | declaration run rest =>
      obtain ⟨t, first, second⟩ := ih rest
      exact ⟨t, .declaration run first, second⟩
    | signature run rest =>
      obtain ⟨t, first, second⟩ := ih rest
      exact ⟨t, .signature run first, second⟩

theorem ofSignatures (run : Runs (lowerSignatures source ids) s () t) : Passes source (ids.map .signature) s t := by
  induction ids generalizing s with
  | nil =>
    obtain ⟨-, rfl⟩ := runs_pure.mp run
    exact .nil
  | cons id ids ih =>
    obtain ⟨_, u, first, rest⟩ := runs_bind.mp run
    exact .signature first (ih rest)

theorem ofAll (run : Runs (lowerAll source stmts) s () t) : Passes source (stmts.flatMap itemsOf) s t := by
  fun_induction lowerAll source stmts generalizing s with
  | case1 =>
    obtain ⟨-, rfl⟩ := runs_pure.mp run
    exact .nil
  | case2 id rest ih =>
    obtain ⟨v, u, first, after⟩ := runs_bind.mp run
    exact .declaration first (ih after)
  | case3 name ids rest ih =>
    obtain ⟨_, u, first, after⟩ := runs_bind.mp run
    exact (ofSignatures first).append (ih after)
  | case4 => exact (runs_abort run).elim

theorem path (h : Passes source items s t) : Path .program s t := by
  induction h with
  | nil => rfl
  | declaration run _ ih => exact ((stepwise_declare ..).lift.path run).trans ih
  | signature run _ ih => exact ((stepwise_lowerSignature ..).path run).trans ih

theorem callees (h : Passes source items s t) : t.callees = s.callees := by
  induction h with
  | nil => rfl
  | declaration run _ ih => exact ih.trans (declare_declares run).callees
  | signature run _ ih => exact ih.trans (lowerSignature_callees run)

end Passes

/-- Twins stay twins while the same items are lowered, if these are covered and get shared functions. -/
theorem Twins.passes {p q : Target.Program} {T : Tracks p q} {source source' : Source.Program} {items : List Item}
    {s t : State} (akin : source.Akin source')
    (every : ∀ id, .signature id ∈ items → source'.bodyOf id = source.bodyOf id ∧ T.Covered (source.bodyOf id))
    (twins : Twins T s t) (outside : s.scope.current = none)
    (shared : ∀ id f, .signature id ∈ items → s.callees id = some f → T.shared f.index.toNat)
    (passes : Passes source items s s') (passes' : Passes source' items t t') (small : s'.program.NoLarger p)
    (small' : t'.program.NoLarger q) : Twins T s' t' := by
  -- both runs take the same item, and the sizes that they have after it are bounded by what follows
  induction passes generalizing t with
  | nil =>
    cases passes'
    exact twins
  | declaration run rest ih =>
    cases passes' with
    | declaration run' rest' =>
      have sizes := rest.path.noLarger.trans small
      have sizes' := rest'.path.noLarger.trans small'
      have kept := declare_declares run
      refine ih (fun id there => every id (by simp [there])) ?_ ?_ ?_ rest' small
      · exact twins.declare akin outside run run' sizes sizes'
      · exact kept.current.trans outside
      · rw [kept.callees]
        exact fun id f there => shared id f (by simp [there])
  | signature run rest ih =>
    cases passes' with
    | signature run' rest' =>
      have sizes := rest.path.noLarger.trans small
      have sizes' := rest'.path.noLarger.trans small'
      refine ih (fun id there => every id (by simp [there])) ?_ ?_ ?_ rest' small
      · have here := every _ List.mem_cons_self
        refine twins.lowerSignature akin here.1 here.2 (fun f resolved => ?_) run run' sizes sizes'
        exact shared _ f (by simp) (Option.join_eq_some_iff.mpr resolved)
      · exact lowerSignature_outside outside run
      · rw [lowerSignature_callees run]
        exact fun id f there => shared id f (by simp [there])

/-- The tracks begin with empty arenas. -/
structure Tracks.AtStart {p q : Target.Program} (T : Tracks p q) : Prop where
  insts : T.insts.left = 0 ∧ T.insts.right = 0
  values : T.values.left = 0 ∧ T.values.right = 0
  vars : T.vars.left = 0 ∧ T.vars.right = 0
  links : T.links.left = 0 ∧ T.links.right = 0

namespace Twins
variable {p q : Target.Program} {T : Tracks p q} {source source' : Source.Program} {c c' : Capabilities}

theorem initial (start : T.AtStart) (akin : source.Akin source')
    (mode : T.sameMode → c.nativeIntegers = c'.nativeIntegers)
    (infos : T.infos (State.initial source c).program.info (State.initial source' c').program.info) :
    Twins T (.initial source c) (.initial source' c') where
  instrs := .empty start.insts _
  values := .empty start.values _
  vars := .empty start.vars _
  links := .empty start.links _
  globals := .nil
  table := rfl
  functions _ := .none
  infos
  nodes := .nil
  mode
  current := rfl
  callees := by
    have sizes := congrArg Array.size akin.signatures
    rw [Array.size_map, Array.size_map] at sizes
    simp only [State.initial, Scope.new, sizes]
  known there := by
    simp only [State.initial, Scope.new, Array.getElem?_replicate] at there
    split at there <;> cases there
  resolved _ there := by
    simp only [State.initial, Scope.new, Array.getElem?_replicate] at there
    split at there <;> cases there

/-- Two lowerings are in step for as long as they lower the same items. -/
theorem program (start : T.AtStart) (akin : source.Akin source') (statements : source.statements = source'.statements)
    (mode : T.sameMode → c.nativeIntegers = c'.nativeIntegers)
    (infos : T.infos (State.initial source c).program.info (State.initial source' c').program.info) {items : List Item}
    (every : ∀ id, .signature id ∈ items → source'.bodyOf id = source.bodyOf id ∧ T.Covered (source.bodyOf id))
    {s t : State} (shared : ∀ id f, .signature id ∈ items → s.callees id = some f → T.shared f.index.toNat)
    (registered : Runs (Lowering.registerAll source source.statements) (.initial source c) () s)
    (registered' : Runs (Lowering.registerAll source' source'.statements) (.initial source' c') () t)
    (passes : Passes source items s s') (passes' : Passes source' items t t') (small : s'.program.NoLarger p)
    (small' : t'.program.NoLarger q) : Twins T s' t' := by
  rw [← statements] at registered'
  have twins := (initial start akin mode infos).registerAll akin registered registered'
    (passes.path.noLarger.trans small)
  have registers := registerAll_registers (initial_registers source c) registered
  exact twins.passes akin every registers.idle shared passes passes' small small'

end Twins

end Lowering

end ShaderSSA
