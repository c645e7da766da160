import ShaderSSA.Proofs.Inventory

/-!
Ledgers. A ledger says what holds of a state once certain products have been made, while certain chains wait for their
instructions. What single steps keep is kept by all computations that are put together from them, as long as each
hands its chains on.
-/

namespace ShaderSSA
variable {type : ShaderType}

namespace Target

namespace Operation

/-- The locations that the operation writes to. -/
def destinations : Operation → List LinkId
  | .intrinsic .storeDeref (.location d :: _) _ | .intrinsic .copyDeref (.location d :: _) _ => [d]
  | .call _ _ result => result.toList
  | _ => []

def operands : Operation → List AluSrc
  | .alu _ srcs => srcs
  | _ => []

end Operation

def AluOp.isMove : AluOp → Bool
  | .imov | .fmov => true
  | _ => false

/-- How a computation of `width` components reads its operands. -/
inductive Fetches (p : Program) (op : AluOp) (width : UInt8) : AluSrc → Prop where
  | first (v : ValueId) : Fetches p op width ⟨v, .all 0⟩
  | spread {v : ValueId} {d : ValueDef} (found : p.value? v = some d) : Fetches p op width (.broadcast v d.width)
  | channel {v : ValueId} {d : ValueDef} {i : UInt8} (found : p.value? v = some d) (inside : i < d.width) :
    Fetches p op width ⟨v, .all i⟩
  | moved {v : ValueId} {d : ValueDef} {lanes : Lanes} (move : op.isMove = true) (found : p.value? v = some d)
    (inside : ∀ c ∈ lanes.take width, c < d.width) : Fetches p op width ⟨v, lanes⟩

def Links.Roots (links : Links) (head : LinkId) (v : VarId) : Prop :=
  ∃ link, links[head.index.toNat]? = some link ∧ link.kind = .var v

namespace Links.Roots
variable {links : Links} {head : LinkId} {v : VarId}

theorem push (h : links.Roots head v) (link : Link) : Links.Roots (links.push link) head v := by
  obtain ⟨root, found, kind⟩ := h
  exact ⟨root, getElem?_push_of_some found, kind⟩

theorem append (h : links.Roots head v) {c d : Chain} {kind : LinkKind} {longer : Links}
    (appended : links.append c kind type = .ok (d, longer)) : longer.Roots head v := by
  obtain ⟨parent, -, -, -, rfl⟩ := Lowering.append_ok appended
  obtain ⟨root, found, isRoot⟩ := h.push ⟨kind, type, none⟩
  rw [Roots, Array.getElem?_modify, found]
  split
  · exact ⟨_, rfl, isRoot⟩
  · exact ⟨root, rfl, isRoot⟩

theorem rootVar (h : links.Roots head v) : links.rootVar head = .ok v := by
  obtain ⟨root, found, kind⟩ := h
  simp [Links.rootVar, Links.get, found, kind]

end Links.Roots

end Target

namespace Lowering
open Source Target Lower

variable {source : Source.Program} {s u t : State} {held : Chain → Held} {srcs : List AluSrc} {v : Target.VarId}

/-! ### Steps of lowering -/

/-- A chain that waits for its instruction. It is writable unless it starts at a constant. -/
structure Held where
  chain : Chain
  writable : Bool
  inBuffer : Bool

def Held.head (h : Held) : LinkId := h.chain.head

def Product.isLiteral : Product → Bool
  | .literal .. => true
  | .declared _ | .returned _ | .test => false

/-- The variable is that of the product. -/
def Product.Makes (source : Source.Program) (nativeIntegers : Bool) (x : Variable) : Product → Prop
  | .declared id => ∃ decl owner, source.var? id = some decl ∧ StandsFor x decl owner
  | .returned owner => x.storage = .functionLocal ∧ x.owner = owner
  | .literal owner l => x.storage = .functionLocal ∧ x.readOnly = true ∧ x.owner = owner ∧
    owner.isSome = true ∧ x.type = l.type ∧ ∃ k, constantOf nativeIntegers l = .ok k ∧ x.initializer = some k
  | .test => False

/-- Statements can write to the variable: it is in scope or holds the result of the function. -/
def State.Writable (s : State) (v : Target.VarId) : Prop :=
  (∃ i : Nat, s.scope.vars[i]? = some (some v)) ∨ s.returnVar? = some v

/-- From `s` to `t`, the variable of the product is added. -/
structure Creates (source : Source.Program) (product : Product) (s t : State) : Prop where
  vars : ∃ x, t.program.vars = s.program.vars.push x ∧ product.Makes source s.scope.nativeIntegers x
  instrs : t.program.instrs = s.program.instrs
  values : t.program.values = s.program.values
  links : t.program.links = s.program.links
  native : t.scope.nativeIntegers = s.scope.nativeIntegers
  writable : ∀ v, t.Writable v → s.Writable v ∨ v = s.nextVar ∧ product.isLiteral = false

/-- From `s` to `t`, no arena changes and no variable becomes writable. -/
structure Frames (s t : State) : Prop where
  vars : t.program.vars = s.program.vars
  instrs : t.program.instrs = s.program.instrs
  values : t.program.values = s.program.values
  links : t.program.links = s.program.links
  native : t.scope.nativeIntegers = s.scope.nativeIntegers
  bound : t.scope.vars = s.scope.vars
  returns : ∀ v, t.returnVar? = some v → s.returnVar? = some v

/-- The operation is issued for the chains `takes`, and its instruction makes the products. -/
structure Issue (s : State) (takes : List Held) (op : Operation) (width : UInt8) (makes : List Product) : Prop where
  names : op.locations = takes.map Held.head
  writes : ∀ d ∈ op.destinations, ∃ h ∈ takes, h.head = d ∧ h.writable = true
  reads : ∀ o, op.opcode? = some o → ∀ src ∈ op.operands, Fetches s.program o width src
  makes : makes = [] ∧ (s.scope.nativeIntegers = false → ∀ o, op.opcode? = some o → o.isInteger = false) ∨
    makes = [.test] ∧ op.opcode? = some .ine

/-- From `s` to `t`, an instruction of the given width is issued. -/
structure Issued (s t : State) (op : Operation) (width : UInt8) (dest : Option ValueId) : Prop
    extends Emits s t op dest where
  scope : t.scope = s.scope
  functions : t.program.functions = s.program.functions
  defines : ∀ o, op.opcode? = some o → ∃ v d, dest = some v ∧ t.program.value? v = some d ∧ d.width = width

theorem Issue.plain {takes : List Held} {op : Operation} (names : op.locations = takes.map Held.head)
    (writes : ∀ d ∈ op.destinations, ∃ h ∈ takes, h.head = d ∧ h.writable = true) (plain : op.opcode? = none)
    (s : State) (width : UInt8) : Issue s takes op width [] where
  names := names
  writes := writes
  reads _ isOp := by simp [plain] at isOp
  makes := .inl ⟨rfl, fun _ _ isOp => by simp [plain] at isOp⟩

theorem Issue.compute {o : AluOp} {width : UInt8} (reads : ∀ src ∈ srcs, Fetches s.program o width src)
    (floats : s.scope.nativeIntegers = false → o.isInteger = false) : Issue s [] (.alu o srcs) width [] where
  names := rfl
  writes := by simp [Operation.destinations]
  reads _ isOp := Option.some.inj isOp ▸ reads
  makes := .inl ⟨rfl, fun mode _ isOp => Option.some.inj isOp ▸ floats mode⟩

/-! ### Ledgers -/

/-- What holds of a state in which the products have been made while the chains wait, and that every step keeps it. If
the source is `fine`, roots have the types of their variables. -/
structure Ledger (source : Source.Program) where
  fine : Prop
  holds : State → List Product → List Held → Prop
  frame : ∀ {s t done live}, Frames s t → holds s done live → holds t done live
  add : ∀ {s t product done live}, Creates source product s t → product.isLiteral = false → t.program.Fits →
    holds s done live → holds t (done ++ [product]) live
  root : ∀ {s t v type c inBuffer done live}, s.Writable v → (fine → ∃ x, s.program.var? v = some x ∧ x.type = type) →
    Runs (rootChain v type) s c t → t.program.Fits → holds s done live →
    holds t done (live ++ [⟨c, true, inBuffer⟩])
  constant : ∀ {s u t f l c done live}, Creates source (.literal f l) s u →
    Runs (rootChain s.nextVar l.type) u c t → t.program.Fits → holds s done live →
    holds t (done ++ [.literal f l]) (live ++ [⟨c, false, false⟩])
  append : ∀ {s t h d kind type done live}, Runs (appendLink h.chain kind type) s d t → t.program.Fits →
    holds s done (live ++ [h]) → holds t done (live ++ [{ h with chain := d }])
  emit : ∀ {s t takes op width dest makes done live}, Issue s takes op width makes → Issued s t op width dest →
    holds s done (live ++ takes) → holds t (done ++ makes) live

variable {L : Ledger source} {f : Option FuncId} {done : List Product} {live takes : List Held}

/-- The chain starts at a variable that is where the chain says. -/
def State.Rooted (s : State) (h : Held) : Prop :=
  ∃ v x, s.program.links.Roots h.head v ∧ s.program.var? v = some x ∧ x.storage.isBuffer = h.inBuffer

/-- The ledger holds, in the given function, and variables are as their declarations say. -/
structure State.Carries (L : Ledger source) (f : Option FuncId) (s : State) (done : List Product) (live : List Held) :
    Prop where
  current : s.scope.current = f
  binds : s.Binds source fun decl x => x.type = decl.type ∧ x.storage.isBuffer = decl.inBuffer
  rooted : ∀ h ∈ live, s.Rooted h
  holds : L.holds s done live

theorem State.Rooted.mono {h : Held} (rooted : s.Rooted h)
    (vars : ∀ {i : Nat} {x}, s.program.vars[i]? = some x → t.program.vars[i]? = some x)
    (links : ∀ {v}, s.program.links.Roots h.head v → t.program.links.Roots h.head v) : t.Rooted h := by
  obtain ⟨v, x, roots, there, stored⟩ := rooted
  exact ⟨v, x, links roots, vars there, stored⟩

theorem rootChain_roots {c : Chain} (run : Runs (rootChain v type) s c t)
    (fits : t.program.Fits) : t.program.links.Roots c.head v := by
  obtain ⟨rfl, rfl⟩ := rootChain_ok run
  have small := fits.links
  rw [Array.size_push] at small
  refine ⟨⟨.var v, type, none⟩, ?_, rfl⟩
  rw [Links.nextId, UInt32.toNat_ofNat_of_lt' (Nat.lt_of_succ_lt small), Array.getElem?_push_size]

namespace State.Carries

variable {type : ShaderType} {width : UInt8} {c : Chain} {op : Operation} {v : Target.VarId} {x : Variable}

theorem frame (h : s.Carries L f done live) (frames : Frames s t) {g : Option FuncId} (current : t.scope.current = g) :
    t.Carries L g done live where
  current := current
  binds := by
    intro id v found
    rw [frames.bound] at found
    obtain ⟨decl, x, declared, there, same⟩ := h.binds found
    exact ⟨decl, x, declared, by rwa [Target.Program.var?, frames.vars], same⟩
  rooted held member := (h.rooted held member).mono (by rw [frames.vars]; exact id) (by rw [frames.links]; exact id)
  holds := L.frame frames h.holds

theorem inRegion (h : s.Carries L f done live) (region : Region) :
    State.Carries L f { s with region } done live :=
  h.frame (t := { s with region }) ⟨rfl, rfl, rfl, rfl, rfl, rfl, fun _ => id⟩ h.current

theorem rooted_push (h : ∀ held ∈ live, s.Rooted held) (there : s.program.var? v = some x)
    (run : Runs (Lower.rootChain v type) s c t) (fits : t.program.Fits) (writable : Bool) :
    ∀ held ∈ live ++ [⟨c, writable, x.storage.isBuffer⟩], t.Rooted held := by
  have roots := rootChain_roots run fits
  obtain ⟨rfl, rfl⟩ := rootChain_ok run
  intro held member
  rcases List.mem_append.mp member with old | new
  · exact (h held old).mono id (·.push _)
  · obtain rfl := List.mem_singleton.mp new
    exact ⟨v, x, roots, there, rfl⟩

theorem rootChain (h : s.Carries L f done live) (writable : s.Writable v) (there : s.program.var? v = some x)
    (typed : L.fine → x.type = type) (run : Runs (rootChain v type) s c t) (fits : t.program.Fits) :
    t.Carries L f done (live ++ [⟨c, true, x.storage.isBuffer⟩]) := by
  have holds : L.holds t done (live ++ [⟨c, true, x.storage.isBuffer⟩]) :=
    L.root writable (fun isFine => ⟨x, there, typed isFine⟩) run fits h.holds
  have rooted := rooted_push h.rooted there run fits true
  obtain ⟨rfl, rfl⟩ := rootChain_ok run
  exact ⟨h.current, h.binds, rooted, holds⟩

theorem appendLink {held : Held} (h : s.Carries L f done (live ++ [held])) {kind : LinkKind} {d : Chain}
    (run : Runs (appendLink held.chain kind type) s d t) (fits : t.program.Fits) :
    t.Carries L f done (live ++ [{ held with chain := d }]) := by
  have holds := L.append run fits h.holds
  obtain ⟨links, appended, rfl⟩ := appendLink_ok run
  have head : d.head = held.chain.head := by
    obtain ⟨_, -, -, rfl, -⟩ := append_ok appended
    rfl
  refine ⟨h.current, h.binds, fun other member => ?_, holds⟩
  rcases List.mem_append.mp member with old | new
  · exact (h.rooted other (List.mem_append_left _ old)).mono id (·.append appended)
  · obtain rfl := List.mem_singleton.mp new
    obtain ⟨v, x, roots, there, stored⟩ := h.rooted held (by simp)
    refine ⟨v, x, ?_, there, stored⟩
    rw [Held.head, head]
    exact roots.append appended

theorem emit {makes : List Product} (h : s.Carries L f done (live ++ takes)) {dest : Option ValueId}
    (issue : Issue s takes op width makes) (issued : Issued s t op width dest) :
    t.Carries L f (done ++ makes) live where
  current := by rw [issued.scope, h.current]
  binds := by
    intro id v found
    rw [issued.scope] at found
    obtain ⟨decl, x, declared, there, same⟩ := h.binds found
    exact ⟨decl, x, declared, by rwa [Target.Program.var?, issued.vars], same⟩
  rooted held member := (h.rooted held (List.mem_append_left _ member)).mono (by rw [issued.vars]; exact id)
    (by rw [issued.links]; exact id)
  holds := L.emit issue issued h.holds

theorem effect (h : s.Carries L f done (live ++ takes)) (issue : Issue s takes op width [])
    (plain : op.opcode? = none) : (s.withEffect op).Carries L f done live := by
  have issued : Issued s (s.withEffect op) op width none :=
    ⟨emits_effect s op, rfl, rfl, fun _ isOp => by simp [plain] at isOp⟩
  simpa using h.emit issue issued

theorem value {makes : List Product} (h : s.Carries L f done (live ++ takes)) {op : Operation} {width bitSize : UInt8}
    (issue : Issue s takes op width makes) (fits : (s.withValue op width bitSize).program.Fits) :
    (s.withValue op width bitSize).Carries L f (done ++ makes) live := by
  refine h.emit issue
    ⟨emits_value s op width bitSize, rfl, rfl, fun _ _ => ⟨_, ⟨width, bitSize, s.nextInst⟩, rfl, ?_, rfl⟩⟩
  have small := fits.values
  simp only [State.withValue, State.pushed, Array.size_push] at small
  simp [State.withValue, State.pushed, Program.value?, State.nextValue,
    UInt32.toNat_ofNat_of_lt' (Nat.lt_of_succ_lt small)]

theorem compute (h : s.Carries L f done live) {o : AluOp} {bitSize : UInt8}
    (reads : ∀ src ∈ srcs, Fetches s.program o width src)
    (floats : s.scope.nativeIntegers = false → o.isInteger = false)
    (fits : (s.withValue (.alu o srcs) width bitSize).program.Fits) :
    (s.withValue (.alu o srcs) width bitSize).Carries L f done live := by
  rw [← List.append_nil live] at h
  simpa using h.value (.compute reads floats) fits

theorem add (h : s.Carries L f done live) {product : Product} (creates : Creates source product s t)
    (plain : product.isLiteral = false) (fits : t.program.Fits) (current : t.scope.current = f)
    (binds : t.Binds source fun decl x => x.type = decl.type ∧ x.storage.isBuffer = decl.inBuffer) :
    t.Carries L f (done ++ [product]) live := by
  obtain ⟨x, vars, -⟩ := creates.vars
  refine ⟨current, binds, fun held member => ?_, L.add creates plain fits h.holds⟩
  exact (h.rooted held member).mono (by rw [vars]; exact getElem?_push_of_some) (by rw [creates.links]; exact id)

end State.Carries

/-! ### New variables -/

theorem declare_creates {id : Source.VarId} (run : Runs (declare source id) s v t) :
    Creates source (.declared id) s t := by
  have path := (stepwise_declare source id).path run
  have returns := path.returnVar?_eq
  obtain ⟨decl, x, p, scope, log, found, stands, added, named, rfl⟩ := declare_ok run
  obtain ⟨owner, vars, instrs, values, links⟩ := Program.addVariable_vars added
  obtain ⟨rfl, -⟩ := Program.addVariable_ok added
  obtain ⟨within, rfl⟩ := bindVariable_ok named
  refine ⟨⟨_, vars, decl, s.scope.current, found, stands.name, stands.storage, stands.type, stands.interfaceBlock⟩,
    instrs, values, links, rfl, ?_⟩
  rintro w (⟨i, bound⟩ | isReturn)
  · simp only [Array.getElem?_setIfInBounds, within, if_true] at bound
    split at bound
    · exact .inr ⟨(Option.some.inj (Option.some.inj bound)).symm, rfl⟩
    · exact .inl (.inl ⟨i, bound⟩)
  · rw [returns] at isReturn
    exact .inl (.inr isReturn)

theorem constant_creates {f : FuncId} {l : Literal} {k : Constant}
    (copied : constantOf s.scope.nativeIntegers l = .ok k) (run : Runs (addVariable
      { name := "const_temp", type := l.type, storage := .functionLocal, readOnly := true,
        initializer := some k } (some f)) s v u) : v = s.nextVar ∧ Creates source (.literal (some f) l) s u := by
  obtain ⟨p, added, rfl⟩ := addVariable_ok run
  have returns : State.returnVar? { s with program := p } = s.returnVar? := by
    rw [State.returnVar?, (addVariable_declares added).code?]
    rfl
  obtain ⟨_, -, instrs, values, links⟩ := Program.addVariable_vars added
  obtain ⟨rfl, ⟨g, _, _, -, owner, -, -, rfl⟩ | ⟨_, storage, -⟩ | ⟨free, -⟩⟩ := Program.addVariable_ok added
  · obtain rfl := Option.some.inj owner
    refine ⟨rfl, ⟨_, rfl, rfl, rfl, rfl, rfl, rfl, k, copied, rfl⟩, instrs, values, links, rfl, ?_⟩
    rintro w (bound | isReturn)
    · exact .inl (.inl bound)
    · rw [returns] at isReturn
      exact .inl (.inr isReturn)
  · cases storage
  · cases free

theorem return_creates {f : FuncId} (valued : type.isVoid = false)
    (current : s.scope.current = some f) (run : Runs (declareReturn f type) s () t) :
    Creates source (.returned (some f)) s t := by
  obtain ⟨void, -⟩ | ⟨-, v, u, addRun, changeRun⟩ := declareReturn_ok run
  · exact absurd (valued.symm.trans void) Bool.false_ne_true
  obtain ⟨p, added, rfl⟩ := addVariable_ok addRun
  obtain ⟨_, -, instrs, values, links⟩ := Program.addVariable_vars added
  obtain ⟨rfl, ⟨g, _, _, -, owner, -, -, rfl⟩ | ⟨_, storage, -⟩ | ⟨free, -⟩⟩ := Program.addVariable_ok added
  · obtain rfl := Option.some.inj owner
    obtain ⟨q, changed, rfl⟩ := modifyBody_ok changeRun
    obtain ⟨b, -, written⟩ := Program.modifyBody_code? changed
    have code := Program.setBody_code? written
    obtain ⟨_, -, rfl⟩ := Program.setBody_ok written
    refine ⟨⟨_, rfl, rfl, rfl⟩, instrs, values, links, rfl, ?_⟩
    rintro w (bound | isReturn)
    · exact .inl (.inl bound)
    · refine .inr ⟨?_, rfl⟩
      simp only [State.returnVar?, current, Option.bind_some, code, if_true, Option.map_some] at isReturn
      exact (Option.some.inj isReturn).symm
  · cases storage
  · cases free

/-! ### Computations that hand chains on -/

/-- In the function `f`, `m` takes over the chains `takes`, leaves the chains `gives` and makes the products. Other
chains that wait are left alone. -/
structure Weaves {α : Type} (L : Ledger source) (f : Option FuncId) (makes : List Product) (takes : List Held)
    (m : Lower α) (gives : α → List Held) : Prop where
  grows : ∀ ⦃s a t⦄, Runs m s a t → s.program.NoLarger t.program
  weaves : ∀ ⦃s a t done live⦄, Runs m s a t → t.program.Fits → s.Carries L f done (live ++ takes) →
    t.Carries L f (done ++ makes) (live ++ gives a)

/-- `m` hands the chains `takes` to its instructions, along with all that it builds. -/
abbrev Spends {α : Type} (L : Ledger source) (f : Option FuncId) (makes : List Product) (takes : List Held)
    (m : Lower α) : Prop :=
  Weaves L f makes takes m fun _ => []

/-- `m` builds a chain and leaves it to wait. -/
abbrev Builds (L : Ledger source) (f : Option FuncId) (makes : List Product) (m : Lower Chain) (held : Chain → Held) :
    Prop :=
  Weaves L f makes [] m fun c => [held c]

/-- `m` makes nothing and needs no chains of others. -/
abbrev Quiet {α : Type} (L : Ledger source) (f : Option FuncId) (m : Lower α) : Prop := Spends L f [] [] m

section
variable {α β : Type} {makes more : List Product} {m : Lower α} {g : α → Lower β} {gives : β → List Held}
  {op : Operation}

/-- What takes no chains and leaves none keeps those that wait. -/
theorem Weaves.keeps (h : Spends L f makes [] m) {a : α} (run : Runs m s a t) (fits : t.program.Fits)
    (carries : s.Carries L f done live) : t.Carries L f (done ++ makes) live := by
  rw [← List.append_nil live] at carries ⊢
  exact h.weaves run fits carries

theorem weaves_bind (kept : List Held) {mid : List Held} {between : α → List Held}
    (hm : Weaves L f makes mid m between) (hg : ∀ a, Weaves L f more (kept ++ between a) (g a) gives) :
    Weaves L f (makes ++ more) (kept ++ mid) (m >>= g) gives where
  grows s b t run := by
    obtain ⟨a, u, first, next⟩ := runs_bind.mp run
    exact (hm.grows first).trans ((hg a).grows next)
  weaves s b t done live run fits carries := by
    obtain ⟨a, u, first, next⟩ := runs_bind.mp run
    rw [← List.append_assoc] at carries
    have between := hm.weaves first (fits.of_noLarger ((hg a).grows next)) carries
    rw [List.append_assoc] at between
    rw [← List.append_assoc]
    exact (hg a).weaves next fits between

theorem weaves_next (hm : Spends L f makes [] m) (hg : ∀ a, Weaves L f more takes (g a) gives) :
    Weaves L f (makes ++ more) takes (m >>= g) gives := by
  have both := weaves_bind takes hm fun a => by
    rw [List.append_nil]
    exact hg a
  rwa [List.append_nil] at both

theorem weaves_quiet (hm : Quiet L f m) (hg : ∀ a, Weaves L f makes takes (g a) gives) :
    Weaves L f makes takes (m >>= g) gives :=
  weaves_next hm hg

theorem weaves_last (hm : Spends L f makes [] m) (hg : ∀ a, Weaves L f [] takes (g a) gives) :
    Weaves L f makes takes (m >>= g) gives := by
  simpa using weaves_next hm hg

/-- A new chain waits behind the others. -/
theorem weaves_chain {m : Lower Chain} {g : Chain → Lower β} (hm : Builds L f makes m held)
    (hg : ∀ c, Weaves L f more (takes ++ [held c]) (g c) gives) : Weaves L f (makes ++ more) takes (m >>= g) gives := by
  have both := weaves_bind takes hm hg
  rwa [List.append_nil] at both

theorem weaves_chain_last {m : Lower Chain} {g : Chain → Lower β} (hm : Builds L f makes m held)
    (hg : ∀ c, Weaves L f [] (takes ++ [held c]) (g c) gives) : Weaves L f makes takes (m >>= g) gives := by
  simpa using weaves_chain hm hg

theorem spends_bind (hm : Spends L f makes takes m) (hg : ∀ a, Quiet L f (g a)) : Spends L f makes takes (m >>= g) := by
  simpa using weaves_bind [] hm hg

theorem weaves_unless {c : Prop} [Decidable c] {d : Defect} {g : β → Lower α} {gives : α → List Held}
    (hm : Weaves L f makes takes m gives) : Weaves L f makes takes (if c then abort d >>= g else m) gives where
  grows _ _ _ run := hm.grows (runs_unless.mp run).2
  weaves _ _ _ _ _ run := hm.weaves (runs_unless.mp run).2

theorem spends_inRegion {m : Lower Unit} (hm : Spends L f makes takes m) : Spends L f makes takes (inRegion m) where
  grows s r t run := by
    obtain ⟨u, inner, -, rfl⟩ := runs_inRegion.mp run
    have grown := hm.grows inner
    exact grown
  weaves s r t done live run fits carries := by
    obtain ⟨u, inner, -, rfl⟩ := runs_inRegion.mp run
    exact (hm.weaves inner fits (carries.inRegion {})).inRegion _

/-! ### Single computations -/

theorem weaves_abort (d : Defect) (gives : α → List Held) : Weaves L f makes takes (abort d) gives :=
  ⟨fun _ _ _ run => (runs_abort run).elim, fun _ _ _ _ _ run => (runs_abort run).elim⟩

theorem spends_of_runs (plain : Stepwise .statement m)
    (h : ∀ {s a t done live}, Runs m s a t → t.program.Fits → s.Carries L f done live →
      t.Carries L f (done ++ makes) live) : Spends L f makes [] m where
  grows _ _ _ run := run.noLarger plain
  weaves s a t done live run fits carries := by
    rw [List.append_nil] at carries ⊢
    exact h run fits carries

theorem quiet_of_same (h : ∀ {s a t}, Runs m s a t → t = s) : Quiet L f m where
  grows s a t run := by
    rw [h run]
    exact .refl _
  weaves s a t done live run _ carries := by
    rw [h run, List.append_nil]
    exact carries

theorem quiet_pure (x : α) : Quiet L f (pure x) := quiet_of_same (by simp)

theorem quiet_check (e : Except Fault α) : Quiet L f (check e) := quiet_of_same (by simp)

theorem weaves_check {e : Except Fault α} (hg : ∀ a, e = .ok a → Weaves L f makes takes (g a) gives) :
    Weaves L f makes takes (check e >>= g) gives := by
  cases e with
  | ok a => exact hg a rfl
  | error fault =>
    have never : ∀ {s b t}, ¬ Runs (check (.error fault) >>= g) s b t := by simp
    exact ⟨fun _ _ _ run => (never run).elim, fun _ _ _ _ _ run => (never run).elim⟩

theorem quiet_scope : Quiet L f scope := quiet_of_same (by simp)

theorem quiet_nativeIntegers : Quiet L f nativeIntegers := quiet_of_same (by simp)

theorem quiet_valueDef (v : ValueId) : Quiet L f (valueDef v) := quiet_of_same (by simp)

theorem quiet_modifyRegion (change : Region → Region) : Quiet L f (modifyRegion change) where
  grows s a t run := by
    obtain rfl := runs_modifyRegion.mp run
    exact .refl _
  weaves s a t done live run _ carries := by
    obtain rfl := runs_modifyRegion.mp run
    rw [List.append_nil]
    exact carries.inRegion _

theorem spends_emitEffect (names : op.locations = takes.map Held.head)
    (writes : ∀ d ∈ op.destinations, ∃ h ∈ takes, h.head = d ∧ h.writable = true) (plain : op.opcode? = none) :
    Spends L f [] takes (emitEffect op) where
  grows _ _ _ run := run.noLarger (by simp)
  weaves s a t done live run _ carries := by
    obtain rfl := emitEffect_ok run
    rw [List.append_nil, List.append_nil]
    exact carries.effect (.plain names writes plain s 0) plain

theorem spends_emitValue (names : op.locations = takes.map Held.head) (still : op.destinations = [])
    (plain : op.opcode? = none) (width bitSize : UInt8) : Spends L f [] takes (emitValue op width bitSize) where
  grows _ _ _ run := run.noLarger (by simp)
  weaves s a t done live run fits carries := by
    obtain ⟨-, rfl, -⟩ := emitValue_ok run
    simpa using carries.value (.plain names (by simp [still]) plain s width) fits

theorem weaves_appendLink (held : Held) (kind : LinkKind) (type : ShaderType) :
    Weaves L f [] [held] (appendLink held.chain kind type) fun d => [{ held with chain := d }] where
  grows _ _ _ run := run.noLarger (by simp)
  weaves _ _ _ _ _ run fits carries := by
    rw [List.append_nil]
    exact carries.appendLink run fits

end

end Lowering

end ShaderSSA
