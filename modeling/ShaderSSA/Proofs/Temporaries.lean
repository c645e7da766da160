import Mathlib.Data.List.Nodup
import ShaderSSA.Proofs.Functions
import ShaderSSA.Proofs.Linear

/-!
Variables for literals. A literal that is read gets a variable of its own, and one instruction reads its chain. No
instruction writes there. A literal that stands for an index, a stream, a component or a mask gets nothing.
-/

namespace ShaderSSA

namespace Target.Links
variable {links : Links} {test : LinkKind → Bool} {head : LinkId} {v : VarId}

theorem mem_handles :
    head ∈ links.handles test ↔ ∃ i link, links[i]? = some link ∧ test link.kind = true ∧ head = ⟨UInt32.ofNat i⟩ := by
  simp only [handles, List.mem_map, List.mem_filter, List.mem_range, Option.any_eq_true]
  constructor
  · rintro ⟨i, ⟨-, link, found, passes⟩, rfl⟩
    exact ⟨i, link, found, passes, rfl⟩
  · rintro ⟨i, link, found, passes, rfl⟩
    exact ⟨i, ⟨(Array.getElem?_eq_some_iff.mp found).1, link, found, passes⟩, rfl⟩

theorem handles_push (link : Link) :
    Links.handles (links.push link) test = links.handles test ++ if test link.kind then [links.nextId] else [] := by
  have old : ∀ i ∈ List.range links.size, ((links.push link)[i]?.any fun l => test l.kind) =
      links[i]?.any fun l => test l.kind := by
    intro i member
    rw [Array.getElem?_push, if_neg (Nat.ne_of_lt (List.mem_range.mp member))]
  rw [handles, Array.size_push, List.range_succ, List.filter_append, List.map_append, List.filter_congr old]
  cases passes : test link.kind <;> simp [handles, passes, nextId]

theorem handles_modify {i : Nat} {change : Link → Link} (kept : ∀ l, (change l).kind = l.kind) :
    Links.handles (links.modify i change) test = links.handles test := by
  rw [handles, handles, Array.size_modify]
  congr 1
  refine List.filter_congr fun j _ => ?_
  rw [Array.getElem?_modify]
  split <;> cases links[j]? <;> simp [kept]

theorem handles_append {c d : Chain} {kind : LinkKind} {type : ShaderType} {longer : Links}
    (appended : links.append c kind type = .ok (d, longer)) (v : VarId) :
    longer.handles (· = .var v) = links.handles (· = .var v) := by
  obtain ⟨parent, -, narrowed, -, rfl⟩ := Lowering.append_ok appended
  rw [handles_modify (by simp), handles_push]
  cases kind with
  | var w => cases narrowed
  | struct _ | array _ => simp

theorem roots_of_handles (small : links.size < UInt32.size) (member : head ∈ links.handles (· = .var v)) :
    links.Roots head v := by
  obtain ⟨i, link, found, kind, rfl⟩ := mem_handles.mp member
  refine ⟨link, ?_, of_decide_eq_true kind⟩
  rwa [UInt32.toNat_ofNat_of_lt' (Nat.lt_trans (Array.getElem?_eq_some_iff.mp found).1 small)]

theorem Roots.unique {w : VarId} (h : links.Roots head v) (h' : links.Roots head w) : v = w := by
  obtain ⟨link, found, kind⟩ := h
  obtain ⟨other, there, kind'⟩ := h'
  obtain rfl := Option.some.inj (found.symm.trans there)
  exact LinkKind.var.inj (kind.symm.trans kind')

end Target.Links

/-- One chain starts at the variable. One operand of one instruction names it, and no instruction writes to it. -/
def Target.Program.Reserves (p : Target.Program) (v : Target.VarId) : Prop :=
  ∃ head, p.links.handles (· = .var v) = [head] ∧ p.locations.count head = 1 ∧
    ∀ x ∈ p.instrs, head ∉ x.operation.destinations

/-- The variables that the program asks for, in the order in which they are made. -/
def Source.Program.variables (source : Source.Program) : List Lowering.Product :=
  source.products.filter fun m => !m.isTest

namespace Lowering
open Source Target Lower

variable {source : Source.Program} {s t : State} {made : List Product} {live : List Held} {v : Target.VarId} {b : Bool}

/-! ### Which variables are for literals -/

/-- Whether the variable is that of a literal, if it is made. -/
def literal? (made : List Product) (v : Target.VarId) : Option Bool := made[v.index.toNat]?.map Product.isLiteral

theorem literal?_append (h : literal? made v = some b) (more : List Product) : literal? (made ++ more) v = some b := by
  obtain ⟨m, found, is⟩ := Option.map_eq_some_iff.mp h
  rw [literal?, List.getElem?_append_left (List.getElem?_eq_some_iff.mp found).1, found, Option.map_some, is]

theorem literal?_concat {m : Product} (h : literal? (made ++ [m]) v = some b) :
    literal? made v = some b ∨ v.index.toNat = made.length ∧ m.isLiteral = b := by
  obtain ⟨x, found, is⟩ := Option.map_eq_some_iff.mp h
  rw [List.getElem?_append] at found
  split at found
  · exact .inl (Option.map_eq_some_iff.mpr ⟨x, found, is⟩)
  · rw [List.getElem?_singleton] at found
    split at found
    · obtain rfl := Option.some.inj found
      exact .inr ⟨by omega, is⟩
    · cases found

/-- The variables are those of the products. Those for literals have one chain each, and nothing writes there. -/
structure State.Protects (source : Source.Program) (s : State) (made : List Product) (live : List Held) : Prop where
  vars : List.Forall₂ (Product.Makes source s.scope.nativeIntegers) s.program.vars.toList made
  writable : ∀ v, s.Writable v → literal? made v = some false
  fresh : ∀ v : Target.VarId, made.length ≤ v.index.toNat → s.program.links.handles (· = .var v) = []
  once : ∀ v, literal? made v = some true → ∃ head, s.program.links.handles (· = .var v) = [head]
  writes : ∀ x ∈ s.program.instrs, ∀ d ∈ x.operation.destinations, ∃ v, s.program.links.Roots d v ∧
    literal? made v = some false
  waits : ∀ h ∈ live, h.writable = true → ∃ v, s.program.links.Roots h.head v ∧ literal? made v = some false

namespace State.Protects

variable {type : ShaderType}

theorem initial {ids : List SignatureId} (registers : Registers source ids s) : s.Protects source [] [] where
  vars := by rw [registers.vars]; exact .nil
  writable v isWritable := by
    rcases isWritable with ⟨i, bound⟩ | isReturn
    · exact absurd bound registers.unbound
    · rw [State.returnVar?, registers.idle] at isReturn
      cases isReturn
  fresh v _ := by rw [registers.links]; rfl
  once v isLiteral := by cases isLiteral
  writes x member := by simp [registers.instrs] at member
  waits _ member := by cases member

theorem length_eq (h : s.Protects source made live) : s.program.vars.size = made.length := by
  simpa using h.vars.length_eq

theorem frame (h : s.Protects source made live) (frames : Frames s t) : t.Protects source made live := by
  refine ⟨?_, fun v isWritable => h.writable v ?_, ?_, ?_, ?_, ?_⟩
  · rw [frames.native, frames.vars]
    exact h.vars
  · rcases isWritable with ⟨i, bound⟩ | isReturn
    · exact .inl ⟨i, by rwa [← frames.bound]⟩
    · exact .inr (frames.returns v isReturn)
  · rw [frames.links]
    exact h.fresh
  · rw [frames.links]
    exact h.once
  · rw [frames.instrs, frames.links]
    exact h.writes
  · rw [frames.links]
    exact h.waits

section
variable {m : Product} (h : s.Protects source made live) (creates : Creates source m s t) (fits : t.program.Fits)
include h creates

theorem vars_creates :
    List.Forall₂ (Product.Makes source t.scope.nativeIntegers) t.program.vars.toList (made ++ [m]) := by
  obtain ⟨x, vars, makes⟩ := creates.vars
  rw [vars, Array.toList_push, creates.native]
  exact List.rel_append h.vars (.cons makes .nil)

include fits

theorem nextVar_index : s.nextVar.index.toNat = made.length := by
  obtain ⟨x, vars, -⟩ := creates.vars
  have small := fits.vars
  rw [vars, Array.size_push] at small
  rw [← h.length_eq, State.nextVar, UInt32.toNat_ofNat_of_lt' (Nat.lt_of_succ_lt small)]

theorem writable_creates (isWritable : t.Writable v) : literal? (made ++ [m]) v = some false := by
  obtain before | ⟨rfl, free⟩ := creates.writable v isWritable
  · exact literal?_append (h.writable v before) [m]
  · rw [literal?, h.nextVar_index creates fits, List.getElem?_concat_length, Option.map_some, free]

theorem add (plain : m.isLiteral = false) : t.Protects source (made ++ [m]) live where
  vars := h.vars_creates creates
  writable _ := h.writable_creates creates fits
  fresh v beyond := by
    rw [List.length_append] at beyond
    rw [creates.links]
    exact h.fresh v (Nat.le_of_add_right_le beyond)
  once v isLiteral := by
    rw [creates.links]
    obtain old | ⟨-, is⟩ := literal?_concat isLiteral
    · exact h.once v old
    · rw [plain] at is
      cases is
  writes x member d writes := by
    rw [creates.instrs] at member
    obtain ⟨v, roots, free⟩ := h.writes x member d writes
    exact ⟨v, creates.links ▸ roots, literal?_append free [m]⟩
  waits held member isWritable := by
    obtain ⟨v, roots, free⟩ := h.waits held member isWritable
    exact ⟨v, creates.links ▸ roots, literal?_append free [m]⟩

end

theorem root (h : s.Protects source made live) (free : literal? made v = some false) {c : Chain}
    (run : Runs (rootChain v type) s c t) (fits : t.program.Fits) (inBuffer : Bool) :
    t.Protects source made (live ++ [⟨c, true, inBuffer⟩]) := by
  have roots := rootChain_roots run fits
  obtain ⟨rfl, rfl⟩ := rootChain_ok run
  have apart : ∀ w, w ≠ v → Links.handles (s.program.links.push ⟨.var v, type, none⟩) (· = .var w) =
      s.program.links.handles (· = .var w) := by
    intro w different
    rw [Links.handles_push, if_neg (by simpa using different.symm), List.append_nil]
  refine ⟨h.vars, h.writable, fun w beyond => ?_, fun w isLiteral => ?_, ?_, ?_⟩
  · rw [apart w, h.fresh w beyond]
    rintro rfl
    rw [literal?, List.getElem?_eq_none beyond] at free
    cases free
  · rw [apart w]
    · exact h.once w isLiteral
    · rintro rfl
      rw [free] at isLiteral
      cases isLiteral
  · intro x member d writes
    obtain ⟨w, rooted, free⟩ := h.writes x member d writes
    exact ⟨w, rooted.push _, free⟩
  · intro held member isWritable
    rcases List.mem_append.mp member with old | new
    · obtain ⟨w, rooted, free⟩ := h.waits held old isWritable
      exact ⟨w, rooted.push _, free⟩
    · obtain rfl := List.mem_singleton.mp new
      exact ⟨v, roots, free⟩

theorem constant {u : State} {f : Option FuncId} {l : Literal} (h : s.Protects source made live)
    (creates : Creates source (.literal f l) s u) {c : Chain} (run : Runs (rootChain s.nextVar l.type) u c t)
    (fits : t.program.Fits) : t.Protects source (made ++ [.literal f l]) (live ++ [⟨c, false, false⟩]) := by
  have before := run.fits_before (by simp) fits
  have index := h.nextVar_index creates before
  have vars := h.vars_creates creates
  have writable := fun v => h.writable_creates (v := v) creates before
  obtain ⟨rfl, rfl⟩ := rootChain_ok run
  have handles : ∀ w, Links.handles (u.program.links.push ⟨.var s.nextVar, l.type, none⟩) (· = .var w) =
      s.program.links.handles (· = .var w) ++ if s.nextVar = w then [s.program.links.nextId] else [] := by
    intro w
    rw [Links.handles_push, creates.links]
    simp
  refine ⟨vars, writable, fun w beyond => ?_, fun w isLiteral => ?_, ?_, ?_⟩
  · rw [List.length_append, List.length_singleton] at beyond
    rw [handles, h.fresh w (Nat.le_of_succ_le beyond), if_neg, List.nil_append]
    rintro rfl
    omega
  · rw [handles]
    obtain old | ⟨position, -⟩ := literal?_concat isLiteral
    · rw [if_neg, List.append_nil]
      · exact h.once w old
      · rintro rfl
        rw [literal?, index, List.getElem?_eq_none (Nat.le_refl _)] at old
        cases old
    · have same : s.nextVar = w := congrArg Target.VarId.mk (UInt32.toNat_inj.mp (index.trans position.symm))
      rw [if_pos same, h.fresh w (Nat.le_of_eq position.symm)]
      exact ⟨_, rfl⟩
  · intro x member d writes
    have there : x ∈ s.program.instrs := creates.instrs ▸ member
    obtain ⟨w, rooted, free⟩ := h.writes x there d writes
    exact ⟨w, (creates.links ▸ rooted : u.program.links.Roots d w).push _, literal?_append free _⟩
  · intro held member isWritable
    rcases List.mem_append.mp member with old | new
    · obtain ⟨w, rooted, free⟩ := h.waits held old isWritable
      exact ⟨w, (creates.links ▸ rooted : u.program.links.Roots held.head w).push _, literal?_append free _⟩
    · obtain rfl := List.mem_singleton.mp new
      cases isWritable

theorem append {held : Held} (h : s.Protects source made (live ++ [held])) {kind : LinkKind} {d : Chain}
    (run : Runs (appendLink held.chain kind type) s d t) :
    t.Protects source made (live ++ [{ held with chain := d }]) := by
  obtain ⟨links, appended, rfl⟩ := appendLink_ok run
  have head : d.head = held.chain.head := by
    obtain ⟨_, -, -, rfl, -⟩ := append_ok appended
    rfl
  refine ⟨h.vars, h.writable, ?_, ?_, ?_, ?_⟩
  · intro v beyond
    rw [Links.handles_append appended]
    exact h.fresh v beyond
  · intro v isLiteral
    rw [Links.handles_append appended]
    exact h.once v isLiteral
  · intro x member d writes
    obtain ⟨v, roots, free⟩ := h.writes x member d writes
    exact ⟨v, roots.append appended, free⟩
  · intro other member isWritable
    rcases List.mem_append.mp member with old | new
    · obtain ⟨v, roots, free⟩ := h.waits other (List.mem_append_left _ old) isWritable
      exact ⟨v, roots.append appended, free⟩
    · obtain rfl := List.mem_singleton.mp new
      obtain ⟨v, roots, free⟩ := h.waits held (by simp) isWritable
      rw [Held.head, head]
      exact ⟨v, roots.append appended, free⟩

theorem emit {takes : List Held} {op : Operation} {width : UInt8} {dest : Option ValueId} {makes : List Product}
    (h : s.Protects source made (live ++ takes)) (issue : Issue s takes op width makes)
    (issued : Issued s t op width dest) : t.Protects source made live := by
  refine ⟨?_, ?_, ?_, ?_, ?_, ?_⟩
  · rw [issued.scope, issued.vars]
    exact h.vars
  · have same : t.Writable = s.Writable := by
      funext v
      simp only [State.Writable, State.returnVar?, Program.code?, issued.scope, issued.functions]
    rw [same]
    exact h.writable
  · rw [issued.links]
    exact h.fresh
  · rw [issued.links]
    exact h.once
  · intro x member d writes
    rw [issued.instrs] at member
    rw [issued.links]
    obtain old | rfl := Array.mem_push.mp member
    · exact h.writes x old d writes
    · obtain ⟨held, taken, rfl, isWritable⟩ := issue.writes d writes
      exact h.waits held (List.mem_append_right _ taken) isWritable
  · rw [issued.links]
    exact fun held member => h.waits held (List.mem_append_left _ member)

/-- Where every chain is named once, the chain of a literal is. -/
theorem reserves (h : s.Protects source made live) (linear : s.program.Linear) (fits : s.program.Fits)
    (isLiteral : literal? made v = some true) : s.program.Reserves v := by
  obtain ⟨head, only⟩ := h.once v isLiteral
  have member : head ∈ s.program.links.handles (· = .var v) := by simp [only]
  have roots := Links.roots_of_handles fits.links member
  refine ⟨head, only, ?_, fun x there writes => ?_⟩
  · have isRoot : head ∈ s.program.links.handles LinkKind.isRoot := by
      obtain ⟨i, link, found, kind, rfl⟩ := Links.mem_handles.mp member
      exact Links.mem_handles.mpr ⟨i, link, found, by simp_all [LinkKind.isRoot], rfl⟩
    rw [linear.named.count_eq]
    exact List.count_eq_one_of_mem (s.program.links.handles_nodup fits.links _) isRoot
  · obtain ⟨w, other, free⟩ := h.writes x there head writes
    rw [roots.unique other, free] at isLiteral
    cases isLiteral

end State.Protects

def temporaryLedger (source : Source.Program) : Ledger source where
  fine := False
  holds s done live := s.Protects source (done.filter fun m => !m.isTest) live
  frame frames h := h.frame frames
  add {s t product done live} creates plain fits h := by
    have kept : !product.isTest := by
      obtain ⟨x, -, makes⟩ := creates.vars
      cases product <;> first | rfl | exact makes.elim
    rw [List.filter_append, List.filter_singleton, kept]
    exact h.add creates fits plain
  root isWritable _ run fits h := h.root (h.writable _ isWritable) run fits _
  constant creates run fits h := by
    rw [List.filter_append]
    exact h.constant creates run fits
  append run _ h := h.append run
  emit issue issued h := by
    have nothing : ∀ makes : List Product, makes = [] ∨ makes = [.test] → (makes.filter fun m => !m.isTest) = [] := by
      rintro _ (rfl | rfl) <;> rfl
    rw [List.filter_append, nothing _ (issue.makes.imp And.left And.left), List.append_nil]
    exact h.emit issue issued

/-! ### Immediates -/

/-- The literal as an index, a stream, a gathered component or a mask is read on the spot: beside what its surroundings
need, no variable is added and no instruction is emitted. -/
structure Immediate (source : Source.Program) (l : Literal) : Prop where
  index : ∀ {array type s c t}, Runs (placeChain source (.element array (.constant l) type)) s c t → ∃ b u,
    Runs (placeChain source array) s b u ∧ t.program.vars = u.program.vars ∧ t.program.instrs = u.program.instrs
  stream : ∀ {op kind s a t}, Runs (emitStream op kind (.constant l)) s a t → t.program.vars = s.program.vars ∧
    ∃ indices, t.program.instrs = s.program.instrs.push ⟨.intrinsic op [] indices, none⟩
  component : ∀ {op s a t}, Runs (lodSources source op (.component (.constant l))) s a t → t = s
  mask : ∀ {id op base address value s a t}, Runs (memoryStore source id op base address value (.constant l)) s a t →
    ∃ srcs u v w, Runs (valueSources source address) s srcs u ∧ Runs (evaluate source value) u v w ∧
      t.program.vars = w.program.vars ∧
      ∃ indices, t.program.instrs = w.program.instrs.push ⟨.intrinsic op (.ssa v :: srcs) indices, none⟩

theorem immediate (source : Source.Program) (l : Literal) : Immediate source l where
  index run := by
    simp only [placeChain, runs_bind, runs_check] at run
    obtain ⟨b, u, inner, _, _, ⟨-, rfl⟩, run⟩ := run
    obtain ⟨links, -, rfl⟩ := appendLink_ok run
    exact ⟨b, _, inner, rfl, rfl⟩
  stream run := by
    unfold emitStream at run
    split at run
    · obtain rfl := emitEffect_ok run
      exact ⟨rfl, _, rfl⟩
    · exact (runs_abort run).elim
  component run := by
    simp only [lodSources, runs_unless, runs_bind, runs_check, runs_pure] at run
    obtain ⟨-, _, _, ⟨-, rfl⟩, -, rfl⟩ := run
    rfl
  mask run := by
    simp only [memoryStore, emitNoResult, runs_bind, runs_check, runs_valueDef, runs_pure] at run
    obtain ⟨srcs, u, addressRun, v, w, valueRun, _, _, ⟨-, rfl⟩, _, _, ⟨-, rfl⟩, _, _, run, -, rfl⟩ := run
    obtain rfl := emitEffect_ok run
    exact ⟨srcs, u, v, _, addressRun, valueRun, rfl, _, rfl⟩

/-! ### Programs -/

/-- Every variable of a lowered program is declared in the source, holds the result of a function or is made for a
literal that is read. A variable for a literal is a constant of the function that reads the literal, and nothing but one
operand of one instruction knows it. -/
theorem lower_temporaries {capabilities : Capabilities} {p : Target.Program} (h : lower source capabilities = .ok p)
    (fits : p.Fits) :
    List.Forall₂ (Product.Makes source capabilities.nativeIntegers) p.vars.toList source.variables ∧
      (∀ v owner l, source.variables[v.index.toNat]? = some (.literal owner l) → ∃ x f k, p.var? v = some x ∧
        x.storage = .functionLocal ∧ x.readOnly = true ∧ owner = some f ∧ x.owner = some f ∧
        constantOf capabilities.nativeIntegers l = .ok k ∧ x.initializer = some k ∧ p.Reserves v) ∧
      ∀ l, Immediate source l := by
  obtain ⟨t, rfl, native, protects⟩ := lower_carries (temporaryLedger source) h fits False.elim fun registers _ =>
    .initial registers
  have protects : t.Protects source source.variables [] := protects
  have vars := protects.vars
  rw [native] at vars
  refine ⟨vars, fun v owner l found => ?_, immediate source⟩
  have reserves := protects.reserves (lower_linear h fits).1 fits (v := v) (by rw [literal?, found]; rfl)
  obtain ⟨inside, is⟩ := List.getElem?_eq_some_iff.mp found
  have makes := vars.get (by rwa [vars.length_eq]) inside
  rw [List.get_eq_getElem, List.get_eq_getElem, is] at makes
  obtain ⟨storage, readOnly, owned, isOwner, -, k, copied, isInitial⟩ := makes
  obtain ⟨f, rfl⟩ := Option.isSome_iff_exists.mp isOwner
  exact ⟨_, f, k, by simp [Target.Program.var?], storage, readOnly, rfl, owned, copied, isInitial, reserves⟩

/-- One literal is compared with an input. Another one is passed to a function, as a location beside an output. -/
theorem lower_temporaries_recursion : Recursion.program.variables[3]? = some (.literal (some ⟨0⟩) (.float 0)) ∧
    ∃ p, lower Recursion.program {} = .ok p ∧ p.Fits ∧ (p.instrs[5]?.map (·.operation.locations)) = some [⟨4⟩, ⟨5⟩] ∧
      p.links.handles (· = .var ⟨3⟩) = [⟨5⟩] ∧
      ∃ x, p.var? ⟨3⟩ = some x ∧ x.readOnly = true ∧ x.owner = some ⟨0⟩ ∧ p.Reserves ⟨3⟩ := by
  have listed : Recursion.program.variables[3]? = some (.literal (some ⟨0⟩) (.float 0)) := rfl
  obtain ⟨p, lowered, fits, passed, rooted⟩ : ∃ p, lower Recursion.program {} = .ok p ∧ p.Fits ∧
      (p.instrs[5]?.map (·.operation.locations)) = some [⟨4⟩, ⟨5⟩] ∧ p.links.handles (· = .var ⟨3⟩) = [⟨5⟩] :=
    lower_checked (by decide +kernel)
  obtain ⟨x, f, k, there, -, readOnly, owner, owned, -, -, reserves⟩ :=
    (lower_temporaries lowered fits).2.1 ⟨3⟩ (some ⟨0⟩) (.float 0) listed
  exact ⟨listed, p, lowered, fits, passed, rooted, x, there, readOnly, owned.trans owner.symm, reserves⟩

end Lowering

end ShaderSSA
