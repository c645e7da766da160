import Mathlib.Data.List.Forall2
import Mathlib.Data.Option.Defs
import ShaderSSA.Proofs.Invariants

/-!
Two runs of lowering, side by side. A `Pairing` says which handles of one program stand for which handles of
another; what the programs hold is alike if it is the same up to such handles and, unless both runs are for the
same mode, up to opcodes, bit sizes and bit patterns. A `Likeness` is a relation of states that the steps of
lowering keep, and so every run of lowering keeps it (`Parallel`).
-/

namespace ShaderSSA

namespace Target

mutual

/-- The nesting of a constant, its columns and rows, and how many components it has. -/
def Constant.shape : Constant → Constant
  | .numeric _ columns rows bits => .numeric 0 columns rows (bits.map fun _ => 0)
  | .aggregate elements => .aggregate (shapesOf elements)

def shapesOf : List Constant → List Constant
  | [] => []
  | c :: cs => c.shape :: shapesOf cs

end

/-- The handles of two programs that stand for each other. -/
structure Pairing where
  /-- Both programs are for the same mode. -/
  sameMode : Prop
  inst : InstId → InstId → Prop
  value : ValueId → ValueId → Prop
  var : VarId → VarId → Prop
  link : LinkId → LinkId → Prop
  /-- Functions keep their handles. -/
  function : FuncId → Prop

variable (h : Pairing)

/-! ### Operands and instructions -/

structure AluSrc.Alike (a b : AluSrc) : Prop where
  value : h.value a.value b.value
  lanes : a.lanes = b.lanes

inductive Src.Alike : Src → Src → Prop where
  | ssa {v w} (values : h.value v w) : Alike (.ssa v) (.ssa w)
  | location {a b} (heads : h.link a b) : Alike (.location a) (.location b)

structure TexSrc.Alike (a b : TexSrc) : Prop where
  kind : a.kind = b.kind
  value : h.value a.value b.value

inductive Operation.Alike : Operation → Operation → Prop where
  | alu {op op' srcs srcs'} (opcode : h.sameMode → op = op') (operands : List.Forall₂ (AluSrc.Alike h) srcs srcs') :
      Alike (.alu op srcs) (.alu op' srcs')
  | intrinsic {op srcs srcs' indices} (operands : List.Forall₂ (Src.Alike h) srcs srcs') :
      Alike (.intrinsic op srcs indices) (.intrinsic op srcs' indices)
  | tex {t : TexInstr} {texture srcs} (location : h.link t.texture texture)
      (operands : List.Forall₂ (TexSrc.Alike h) t.srcs srcs) : Alike (.tex t) (.tex { t with texture, srcs })
  | call {f params params' result result'} (callee : h.function f) (arguments : List.Forall₂ h.link params params')
      (target : Option.Rel h.link result result') : Alike (.call f params result) (.call f params' result')
  | jump {kind} : Alike (.jump kind) (.jump kind)
  | undef : Alike .undef .undef
  | loadConst {bitSize bits} : Alike (.loadConst bitSize bits) (.loadConst bitSize bits)

structure Instr.Alike (a b : Instr) : Prop where
  operation : a.operation.Alike h b.operation
  dest : Option.Rel h.value a.dest b.dest

structure ValueDef.Alike (a b : ValueDef) : Prop where
  width : a.width = b.width
  bitSize : h.sameMode → a.bitSize = b.bitSize
  producer : h.inst a.producer b.producer

/-! ### Chains and variables -/

inductive LinkKind.Alike : LinkKind → LinkKind → Prop where
  | var {v w} (vars : h.var v w) : Alike (.var v) (.var w)
  | struct {index} : Alike (.struct index) (.struct index)
  | direct {index} : Alike (.array (.direct index)) (.array (.direct index))
  | indirect {v w} (values : h.value v w) : Alike (.array (.indirect v)) (.array (.indirect w))

structure Link.Alike (a b : Link) : Prop where
  kind : a.kind.Alike h b.kind
  type : a.type = b.type
  child : Option.Rel h.link a.child b.child

structure Chain.Alike (a b : Chain) : Prop where
  head : h.link a.head b.head
  tail : h.link a.tail b.tail

/-- Alike but for what a constant initializer is made of. -/
structure Variable.Alike (a b : Variable) : Prop where
  rest : { a with initializer := none } = { b with initializer := none }
  nesting : a.initializer.map Constant.shape = b.initializer.map Constant.shape
  initializer : h.sameMode → a.initializer = b.initializer
  owner : ∀ f, a.owner = some f → h.function f

/-! ### Functions -/

mutual

inductive Node.Alike : Node → Node → Prop where
  | instr {i j} (insts : h.inst i j) : Node.Alike (.instr i) (.instr j)
  | branch {c c' a a' b b'} (conditions : h.value c c') (first : NodesAlike a a') (second : NodesAlike b b') :
      Node.Alike (.branch c a b) (.branch c' a' b')
  | loop {a a'} (body : NodesAlike a a') : Node.Alike (.loop a) (.loop a')

inductive NodesAlike : List Node → List Node → Prop where
  | nil : NodesAlike [] []
  | cons {n n' ns ns'} (first : Node.Alike n n') (rest : NodesAlike ns ns') : NodesAlike (n :: ns) (n' :: ns')

end

structure Body.Alike (a b : Body) : Prop where
  params : List.Forall₂ h.var a.params.toList b.params.toList
  returnVar : Option.Rel h.var a.returnVar b.returnVar
  locals : List.Forall₂ h.var a.locals.toList b.locals.toList
  nodes : NodesAlike h a.nodes b.nodes

structure Function.Alike (a b : Function) : Prop where
  name : a.name = b.name
  body : Option.Rel (Body.Alike h) a.body b.body

section
variable {h : Pairing}

theorem NodesAlike.append {a a' b b' : List Node} (first : NodesAlike h a a') (second : NodesAlike h b b') :
    NodesAlike h (a ++ b) (a' ++ b') := by
  induction a generalizing a' with
  | nil =>
    cases first
    exact second
  | cons n a ih =>
    cases first with
    | cons node rest => exact .cons node (ih rest)

theorem NodesAlike.push {a b : Region} (nodes : NodesAlike h a.toList b.toList) {n m : Node} (node : n.Alike h m) :
    NodesAlike h (a.push n).toList (b.push m).toList := by
  rw [Region.toList_push, Region.toList_push]
  exact nodes.append (.cons node .nil)

/-! ### Handles that stand for themselves -/

/-- Every handle stands for itself alone. -/
structure Pairing.Exact (h : Pairing) : Prop where
  inst : ∀ {i j}, h.inst i j → i = j
  value : ∀ {v w}, h.value v w → v = w
  var : ∀ {v w}, h.var v w → v = w
  link : ∀ {a b}, h.link a b → a = b

theorem eq_of_forall₂ {α : Type} {R : α → α → Prop} (exact : ∀ {a b}, R a b → a = b) {xs ys : List α}
    (all : List.Forall₂ R xs ys) : xs = ys := by
  rw [← List.forall₂_eq_eq_eq]
  exact all.imp fun _ _ => exact

theorem eq_of_rel {α : Type} {R : α → α → Prop} (exact : ∀ {a b}, R a b → a = b) {x y : Option α}
    (rel : Option.Rel R x y) : x = y := by
  cases rel with
  | none => rfl
  | some rel => rw [exact rel]

theorem AluSrc.Alike.eq (exact : h.Exact) {a b : AluSrc} (alike : a.Alike h b) : a = b := by
  cases a
  cases b
  rw [AluSrc.mk.injEq]
  exact ⟨exact.value alike.value, alike.lanes⟩

theorem Src.Alike.eq (exact : h.Exact) {a b : Src} (alike : a.Alike h b) : a = b := by
  cases alike with
  | ssa values => rw [exact.value values]
  | location heads => rw [exact.link heads]

theorem TexSrc.Alike.eq (exact : h.Exact) {a b : TexSrc} (alike : a.Alike h b) : a = b := by
  cases a
  cases b
  rw [TexSrc.mk.injEq]
  exact ⟨alike.kind, exact.value alike.value⟩

theorem Operation.Alike.eq_or_alu (exact : h.Exact) {a b : Operation} (alike : a.Alike h b) :
    a = b ∨ ∃ op op' srcs, a = .alu op srcs ∧ b = .alu op' srcs ∧ (h.sameMode → op = op') := by
  cases alike with
  | alu opcode operands => exact .inr ⟨_, _, _, rfl, by rw [eq_of_forall₂ (AluSrc.Alike.eq exact) operands], opcode⟩
  | intrinsic operands => exact .inl (by rw [eq_of_forall₂ (Src.Alike.eq exact) operands])
  | tex location operands =>
    exact .inl (by rw [← exact.link location, ← eq_of_forall₂ (TexSrc.Alike.eq exact) operands])
  | call callee arguments target =>
    exact .inl (by rw [eq_of_forall₂ exact.link arguments, eq_of_rel exact.link target])
  | jump => exact .inl rfl
  | undef => exact .inl rfl
  | loadConst => exact .inl rfl

theorem Operation.Alike.eq (exact : h.Exact) (mode : h.sameMode) {a b : Operation} (alike : a.Alike h b) : a = b := by
  obtain rfl | ⟨op, op', srcs, rfl, rfl, same⟩ := alike.eq_or_alu exact
  · rfl
  · rw [same mode]

theorem Instr.Alike.eq (exact : h.Exact) (mode : h.sameMode) {a b : Instr} (alike : a.Alike h b) : a = b := by
  cases a
  cases b
  rw [Instr.mk.injEq]
  exact ⟨alike.operation.eq exact mode, eq_of_rel exact.value alike.dest⟩

theorem ValueDef.Alike.eq (exact : h.Exact) (mode : h.sameMode) {a b : ValueDef} (alike : a.Alike h b) : a = b := by
  cases a
  cases b
  rw [ValueDef.mk.injEq]
  exact ⟨alike.width, alike.bitSize mode, exact.inst alike.producer⟩

theorem LinkKind.Alike.eq (exact : h.Exact) {a b : LinkKind} (alike : a.Alike h b) : a = b := by
  cases alike with
  | var vars => rw [exact.var vars]
  | struct => rfl
  | direct => rfl
  | indirect values => rw [exact.value values]

theorem Link.Alike.eq (exact : h.Exact) {a b : Link} (alike : a.Alike h b) : a = b := by
  cases a
  cases b
  rw [Link.mk.injEq]
  exact ⟨alike.kind.eq exact, alike.type, eq_of_rel exact.link alike.child⟩

mutual

theorem Node.Alike.eq (exact : h.Exact) {n n' : Node} : n.Alike h n' → n = n'
  | .instr insts => by rw [exact.inst insts]
  | .branch conditions first second => by
    rw [exact.value conditions, NodesAlike.eq exact first, NodesAlike.eq exact second]
  | .loop body => by rw [NodesAlike.eq exact body]

theorem NodesAlike.eq (exact : h.Exact) {ns ns' : List Node} : NodesAlike h ns ns' → ns = ns'
  | .nil => rfl
  | .cons first rest => by rw [Node.Alike.eq exact first, NodesAlike.eq exact rest]

end

theorem Body.Alike.eq (exact : h.Exact) {a b : Body} (alike : a.Alike h b) : a = b := by
  cases a
  cases b
  rw [Body.mk.injEq]
  exact ⟨Array.toList_inj.mp (eq_of_forall₂ exact.var alike.params), eq_of_rel exact.var alike.returnVar,
    Array.toList_inj.mp (eq_of_forall₂ exact.var alike.locals), alike.nodes.eq exact⟩

theorem Function.Alike.eq (exact : h.Exact) {a b : Function} (alike : a.Alike h b) : a = b := by
  cases a
  cases b
  rw [Function.mk.injEq]
  exact ⟨alike.name, eq_of_rel (Body.Alike.eq exact) alike.body⟩

/-! ### Variables -/

theorem Variable.Alike.eq (mode : h.sameMode) {a b : Variable} (alike : a.Alike h b) : a = b := by
  have same := congrArg (fun x : Variable => { x with initializer := b.initializer }) alike.rest
  rw [← alike.initializer mode] at same
  exact same.trans (by rw [alike.initializer mode])

theorem Variable.Alike.storage {a b : Variable} (alike : a.Alike h b) : a.storage = b.storage := by
  have same := congrArg Variable.storage alike.rest
  exact same

theorem Variable.Alike.type {a b : Variable} (alike : a.Alike h b) : a.type = b.type := by
  have same := congrArg Variable.type alike.rest
  exact same

end

end Target

namespace Lowering
open Target

/-- A relation of two states that every step of lowering keeps, as long as the two programs are no larger than `left`
and `right`. The steps are those of the body of `current`, or those outside all bodies. -/
structure Likeness extends Pairing where
  alike : State → State → Prop
  left : Target.Program
  right : Target.Program
  current : Option FuncId
  /-- The variables that may be referred to. -/
  visible : Source.VarId → Prop
  /-- The storage classes that variables may be declared in. -/
  stores : StorageClass → Prop
  /-- The variables that may be declared. -/
  binds : Source.VarId → Prop
  temporary : stores .functionLocal
  -- what is found in states that are alike
  mode : ∀ {s t}, alike s t → sameMode → s.scope.nativeIntegers = t.scope.nativeIntegers
  inside : ∀ {s t}, alike s t → s.scope.current = current ∧ t.scope.current = current
  resolved : ∀ {s t id v w}, alike s t → visible id → s.scope.vars[id.index.toNat]? = some (some v) →
    t.scope.vars[id.index.toNat]? = some (some w) → var v w
  callees : ∀ {s t} {i : Nat} {f g}, alike s t → s.scope.functions[i]? = some (some f) →
    t.scope.functions[i]? = some (some g) → f = g ∧ function f
  values : ∀ {s t v w a b}, alike s t → value v w → s.program.value? v = some a → t.program.value? w = some b →
    a.Alike toPairing b
  links : ∀ {s t v w a b}, alike s t → link v w → s.program.link? v = some a → t.program.link? w = some b →
    a.Alike toPairing b
  vars : ∀ {s t v w a b}, alike s t → var v w → s.program.var? v = some a → t.program.var? w = some b →
    a.Alike toPairing b
  returned : ∀ {s t f v w ns ns'}, alike s t → current = some f → s.program.code? f.index.toNat = some (some v, ns) →
    t.program.code? f.index.toNat = some (some w, ns') → var v w
  nodes : ∀ {s t}, alike s t → NodesAlike toPairing s.region.toList t.region.toList
  -- what keeps states alike
  effect : ∀ {s t op op'}, alike s t → op.Alike toPairing op' → (s.withEffect op).program.NoLarger left →
    (t.withEffect op').program.NoLarger right → alike (s.withEffect op) (t.withEffect op')
  define : ∀ {s t op op' width bits bits'}, alike s t → op.Alike toPairing op' → ¬ (width = 0 ∨ 4 < width) →
    (sameMode → bits = bits') → (s.withValue op width bits).program.NoLarger left →
    (t.withValue op' width bits').program.NoLarger right →
    value s.nextValue t.nextValue ∧ alike (s.withValue op width bits) (t.withValue op' width bits')
  root : ∀ {s t v w type p q}, alike s t → var v w →
    p = { s.program with links := s.program.links.push ⟨.var v, type, none⟩ } →
    q = { t.program with links := t.program.links.push ⟨.var w, type, none⟩ } → p.NoLarger left → q.NoLarger right →
    link s.program.links.nextId t.program.links.nextId ∧ alike { s with program := p } { t with program := q }
  append : ∀ {s t c c' d d' kind kind' type ls ls'}, alike s t → c.Alike toPairing c' → kind.Alike toPairing kind' →
    s.program.links.append c kind type = .ok (d, ls) → t.program.links.append c' kind' type = .ok (d', ls') →
    { s.program with links := ls }.NoLarger left → { t.program with links := ls' }.NoLarger right →
    d.Alike toPairing d' ∧ alike { s with program := { s.program with links := ls } }
      { t with program := { t.program with links := ls' } }
  add : ∀ {s t x y v w p q}, alike s t → x.Alike toPairing y → stores x.storage →
    s.program.addVariable x current = (.ok v, p) → t.program.addVariable y current = (.ok w, q) →
    p.NoLarger left → q.NoLarger right → var v w ∧ alike { s with program := p } { t with program := q }
  bind : ∀ {s t id v w c d}, alike s t → binds id → var v w → s.scope.bindVariable id v = .ok c →
    t.scope.bindVariable id w = .ok d → alike { s with scope := c } { t with scope := d }
  region : ∀ {s t r r'}, alike s t → NodesAlike toPairing r.toList r'.toList →
    alike { s with region := r } { t with region := r' }
  log : ∀ {s t log log'}, alike s t → alike { s with log } { t with log := log' }
  discards : ∀ {s t}, alike s t →
    alike { s with program := { s.program with info := { s.program.info with usesDiscard := true } } }
      { t with program := { t.program with info := { t.program.info with usesDiscard := true } } }

end Lowering

end ShaderSSA
