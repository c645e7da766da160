import ShaderSSA.Proofs.Draft
import ShaderSSA.Proofs.Raw

/-!
Code that is finished as far as raw booleans go. A draft may end between a raw load and its test; `Code` is a
draft of whole groups, so that the values it hands on are clean.
-/

namespace ShaderSSA.Lowering
open Source Target Lower

variable {dest : Option ValueId} {op : Operation} {k : Known} {segment : Segment} {srcs : List AluSrc}

/-- The last instruction is no constant, so nothing is left to be compared with it. -/
def State.Rested (s : State) : Prop :=
  ∀ ⦃i : Nat⦄ ⦃x⦄, i + 1 = s.program.instrs.size → s.program.instrs[i]? = some x → x.operation.isConst = false

/-- The nodes are tidy, and what is known and what the links between `s` and `t` take indices from is clean. -/
structure Seal (q : Target.Program) (s t : Links) (nodes : List Node) (known : List Known) : Prop where
  tidy : Tidy q nodes
  clean : ∀ k ∈ known, q.Clean k.1
  indices : ∀ {i : Nat} {link v}, s.size ≤ i → t[i]? = some link → link.kind.index? = some v → q.Clean v

section
variable (env : Env) (result : Option Target.VarId)

/-- A draft of whole groups. -/
structure Code (s t : State) (nodes : List Node) (known : List Known) (live : List Live)
    (effects : List Skeleton) : Prop extends Draft env result s t nodes known live effects where
  rested : s.Rested → t.Rested
  sealed : s.Rested → ∀ {q}, Program.Keeps (Settled s live) t.program q → q.Fits →
    Seal q s.program.links t.program.links nodes known

end

section
variable {env : Env} {result : Option Target.VarId} {q : Target.Program} {s u t : State}
  {nodes nodes' : List Node} {known known' : List Known} {live live' : List Live}
  {effects effects' : List Skeleton}

/-! ### Composition -/

namespace Seal
variable {s u t : Links}

theorem trans (h : Seal q s u nodes known) (h' : Seal q u t nodes' known')
    (kept : ∀ {i : Nat} {x}, u[i]? = some x → t[i]? = some x) :
    Seal q s t (nodes ++ nodes') (known ++ known') where
  tidy := h.tidy.append h'.tidy
  clean := by
    intro k member
    rcases List.mem_append.mp member with member | member
    · exact h.clean k member
    · exact h'.clean k member
  indices := by
    intro i link v behind found index
    rcases Nat.lt_or_ge i u.size with early | late
    · have there := Array.getElem?_eq_getElem early
      obtain rfl := Option.some.inj (found.symm.trans (kept there))
      exact h.indices behind there index
    · exact h'.indices late found index

theorem of_links (tidy : Tidy q nodes) (clean : ∀ k ∈ known, q.Clean k.1)
    (links : t = s) : Seal q s t nodes known where
  tidy := tidy
  clean := clean
  indices := by
    intro i link v behind found
    obtain ⟨inside, -⟩ := Array.getElem?_eq_some_iff.mp found
    rw [links] at inside
    omega

theorem weaken (h : Seal q s t nodes known) (fewer : known' ⊆ known) : Seal q s t nodes known' :=
  ⟨h.tidy, fun k member => h.clean k (fewer member), h.indices⟩

end Seal

namespace Code

theorem still (instrs : t.program.instrs = s.program.instrs) (values : t.program.values = s.program.values)
    (links : t.program.links = s.program.links) (region : t.region = s.region)
    (vars : ∀ {i : Nat} {x}, s.program.vars[i]? = some x → t.program.vars[i]? = some x) :
    Code env result s t [] [] [] [] where
  toDraft := .still instrs values links region vars
  rested := by
    intro rested i x
    rw [instrs]
    exact @rested i x
  sealed := fun _ _ _ _ => .of_links .nil (by simp) links

theorem refl : Code env result s s [] [] [] [] := still rfl rfl rfl rfl id

theorem weaken (h : Code env result s t nodes known live effects) (fewer : known' ⊆ known)
    (ended : live' ⊆ live) : Code env result s t nodes known' live' effects where
  toDraft := h.toDraft.weaken fewer ended
  rested := h.rested
  sealed := by
    intro rested q kept fits
    have still : Program.Keeps (Settled s live) t.program q :=
      kept.mono fun i settled => ⟨settled.1, fun c member => settled.2 c (ended member)⟩
    exact (h.sealed rested still fits).weaken fewer

theorem newest (h : Code env result s t nodes (k :: known) live effects) : Code env result s t nodes [k] [] effects :=
  h.weaken (by simp) (List.nil_subset _)

theorem trans (h : Code env result s u nodes known live effects)
    (h' : Code env result u t nodes' known' live' effects') :
    Code env result s t (nodes ++ nodes') (known ++ known') (live ++ live') (effects ++ effects') where
  toDraft := h.toDraft.trans h'.toDraft
  rested := h'.rested ∘ h.rested
  sealed := fun rested _ kept fits =>
    (h.sealed rested (h'.keeps_left kept) fits).trans (h'.sealed (h.rested rested) (h.keeps_right kept) fits)
      (h'.keeps.links trivial)

end Code

/-! ### Groups -/

theorem State.Rested.notRaw (rested : s.Rested)
    (kept : ∀ {i : Nat} {x}, s.program.instrs[i]? = some x → q.instrs[i]? = some x) :
    q.rawAt s.program.instrs.size = false := by
  cases size : s.program.instrs.size with
  | zero => rfl
  | succ i =>
    have inside : i < s.program.instrs.size := by omega
    have there := Array.getElem?_eq_getElem inside
    rw [Program.rawAt, kept there, Option.any_some, rested size.symm there, Bool.false_and]

theorem loadsRaw_of_isPlain (plain : op.isPlain = true) : q.loadsRaw op = false := by
  cases op with
  | intrinsic op srcs indices => cases op <;> first | rfl | cases plain
  | alu | tex | call | jump | undef | loadConst => rfl

theorem isConst_of_isPlain (plain : op.isPlain = true) : op.isConst = false := by
  cases op <;> first | rfl | cases plain

namespace Emits
variable {op : Operation} {dest : Option ValueId}

theorem rested (e : Emits u t op dest) (notConst : op.isConst = false) : t.Rested := by
  intro i x last found
  rw [e.size] at last
  obtain rfl : i = u.program.instrs.size := by omega
  rw [e.instrs, Array.getElem?_push_size] at found
  rw [← Option.some.inj found]
  exact notConst

end Emits

theorem Operands.clean {args : List Known} {chains : List Live} (ops : Operands op args chains known live)
    (clean : ∀ k ∈ known, q.Clean k.1) : ∀ v ∈ op.values, q.Clean v := by
  intro v member
  rw [ops.values] at member
  obtain ⟨k, inside, rfl⟩ := List.mem_map.mp member
  exact clean k (ops.known inside)

theorem nextValue_clean {width bitSize : UInt8} (fits : q.Fits)
    (kept : Program.Keeps (fun _ => False) (u.withValue op width bitSize).program q)
    (notRaw : q.rawAt u.program.instrs.size = false) : q.Clean u.nextValue := by
  have there := (emits_value u op width bitSize).found kept.instrs
  obtain ⟨inside, -⟩ := Array.getElem?_eq_some_iff.mp there
  refine ⟨_, value?_nextValue fits.values kept.values, ?_⟩
  rw [State.nextInst, UInt32.toNat_ofNat_of_lt' (Nat.lt_trans inside fits.instrs)]
  exact notRaw

namespace Code
variable {op : Operation} {args : List Known} {chains : List Live}

theorem sealed_before (h : Code env result s u nodes known live effects) (e : Emits u t op dest) (rested : s.Rested)
    (kept : Program.Keeps (Settled s []) t.program q) (fits : q.Fits) :
    Seal q s.program.links u.program.links nodes known :=
  h.sealed rested ((e.before kept).mono fun i settled => ⟨settled.1, by simp⟩) fits

theorem plain_group (h : Code env result s u nodes known live effects) (e : Emits u t op dest)
    (ops : Operands op args chains known live) (rested : s.Rested)
    (kept : Program.Keeps (Settled s []) t.program q) (fits : q.Fits) (notConst : op.isConst = false)
    (notRaw : q.loadsRaw op = false) : Group q u.program.instrs.size 1 := by
  have before := h.sealed_before e rested kept fits
  refine .plain (e.found kept.instrs) ⟨notConst, notRaw, ops.clean before.clean⟩ ?_
  exact (h.rested rested).notRaw (kept.instrs ∘ e.keeps.instrs)

theorem emit (h : Code env result s u nodes known live effects) (e : Emits u t op dest)
    (ops : Operands op args chains known live) (region : t.region = u.region.pushInstr u.nextInst)
    (notConst : op.isConst = false)
    (notRaw : ∀ {q}, Program.Keeps (Settled s []) t.program q → q.Fits → q.loadsRaw op = false) :
    Code env result s t (nodes ++ [.instr u.nextInst]) known [] (effects ++ leaves result op chains) where
  toDraft := h.toDraft.emit e ops region
  rested := fun _ => e.rested notConst
  sealed := by
    intro rested q kept fits
    have before := h.sealed_before e rested kept fits
    have group := h.plain_group e ops rested kept fits notConst (notRaw kept fits)
    have last : Seal q u.program.links t.program.links [.instr u.nextInst] [] := by
      refine .of_links ?_ (by simp) e.links
      have tidy := Tidy.single group
      rwa [instsBetween_succ] at tidy
    have both := before.trans last (by rw [e.links]; exact id)
    rwa [List.append_nil] at both

theorem effect (h : Code env result s u nodes known live effects) (ops : Operands op args chains known live)
    (plain : op.isPlain = true) :
    Code env result s (u.withEffect op) (nodes ++ [.instr u.nextInst]) known []
      (effects ++ leaves result op chains) :=
  h.emit (emits_effect u op) ops rfl (isConst_of_isPlain plain) fun _ _ => loadsRaw_of_isPlain plain

theorem value (h : Code env result s u nodes known live effects) (ops : Operands op args chains known live)
    (width bitSize : UInt8) (notConst : op.isConst = false)
    (notRaw : ∀ {q}, Program.Keeps (Settled s []) (u.withValue op width bitSize).program q → q.Fits →
      q.loadsRaw op = false) :
    Code env result s (u.withValue op width bitSize) (nodes ++ [.instr u.nextInst])
      ((u.nextValue, .node width bitSize op.blank (args.map Prod.snd) (chains.map Live.path)) :: known) []
      (effects ++ leaves result op chains) where
  toDraft := h.toDraft.value ops width bitSize
  rested := fun _ => (emits_value u op width bitSize).rested notConst
  sealed := by
    intro rested q kept fits
    have e := emits_value u op width bitSize
    have old := (h.emit e ops rfl notConst notRaw).sealed rested kept fits
    refine ⟨old.tidy, ?_, old.indices⟩
    intro k member
    rcases List.mem_cons.mp member with rfl | member
    · exact nextValue_clean fits (kept.mono fun _ => False.elim)
        ((h.rested rested).notRaw (kept.instrs ∘ e.keeps.instrs))
    · exact old.clean k member

end Code

/-! ### Raw loads -/

end

namespace State

def withZero (u : State) : State := u.withValue (.loadConst 32 [0]) 1 32

def withTest (u : State) (op : Operation) (width bitSize : UInt8) : State :=
  (u.withZero.withValue op width bitSize).withValue
    (.alu .ine [.broadcast u.withZero.nextValue width, ⟨u.nextValue, .all 0⟩]) width 32

def rawTest (u : State) (op : Operation) (width bitSize : UInt8) : RawTest where
  zero := u.nextValue
  raw := u.withZero.nextValue
  load := op
  width
  bitSize
  value := (u.withZero.withValue op width bitSize).nextValue

end State

section
variable {env : Env} {result : Option Target.VarId} {q : Target.Program} {s u t : State}
  {nodes : List Node} {known : List Known} {live : List Live} {effects : List Skeleton}
  {op : Operation} {args : List Known} {chains : List Live}

theorem Draft.zero : Draft env result u u.withZero [.instr u.nextInst] [(u.nextValue, .zero)] [] [] :=
  Draft.refl.value ⟨rfl, rfl, List.nil_subset _, List.nil_subset _⟩ 1 32

theorem size_withValue (u : State) (op : Operation) (width bitSize : UInt8) :
    (u.withValue op width bitSize).program.instrs.size = u.program.instrs.size + 1 :=
  (emits_value u op width bitSize).size

theorem nextInst_withValue (u : State) (op : Operation) (width bitSize : UInt8) :
    (u.withValue op width bitSize).nextInst = ⟨UInt32.ofNat (u.program.instrs.size + 1)⟩ := by
  rw [State.nextInst, size_withValue]

theorem Draft.compared (h : Draft env result s u nodes known live effects) {op : AluOp}
    (ops : Operands (.alu op srcs) args [] (known ++ [(u.nextValue, .zero)]) live) (width bitSize : UInt8) :
    Draft env result s (u.withZero.withValue (.alu op srcs) width bitSize)
      (nodes ++ (instsBetween u.program.instrs.size (u.program.instrs.size + 2)).map .instr)
      [(u.withZero.nextValue, .node width bitSize (Operation.alu op srcs).blank (args.map Prod.snd) [])] []
      effects := by
  have both := h.trans .zero
  simp only [List.append_nil] at both
  have last := (both.value ops width bitSize).newest
  rw [List.append_assoc, show leaves result (.alu op srcs) [] = [] from rfl, List.append_nil,
    State.withZero, nextInst_withValue] at last
  rw [instsBetween, Nat.add_sub_cancel_left]
  exact last

theorem Draft.tested (h : Draft env result s u nodes known live effects) (ops : Operands op args chains known live)
    (width bitSize : UInt8) :
    Draft env result s (u.withTest op width bitSize)
      (nodes ++ (instsBetween u.program.instrs.size (u.program.instrs.size + 3)).map .instr)
      [((u.rawTest op width bitSize).value,
        .nonzero (.node width bitSize op.blank (args.map Prod.snd) (chains.map Live.path)))] []
      (effects ++ leaves result op chains) := by
  have both := h.trans .zero
  simp only [List.append_nil] at both
  have loaded := both.value (ops.mono (List.subset_append_left _ _) (List.Subset.refl _)) width bitSize
  let raw : Known := (u.withZero.nextValue, .node width bitSize op.blank (args.map Prod.snd) (chains.map Live.path))
  have test : Operands (.alu .ine [.broadcast u.withZero.nextValue width, ⟨u.nextValue, .all 0⟩])
      [raw, (u.nextValue, .zero)] [] (raw :: (known ++ [(u.nextValue, .zero)])) [] :=
    ⟨rfl, rfl, by simp, List.Subset.refl _⟩
  have last := (loaded.value test width 32).newest
  rw [List.append_assoc, List.append_assoc, show ∀ srcs, leaves result (.alu .ine srcs) [] = [] from fun _ => rfl,
    List.append_nil, nextInst_withValue, State.withZero, nextInst_withValue, size_withValue] at last
  rw [instsBetween, Nat.add_sub_cancel_left]
  exact last

theorem rawTest_at (width bitSize : UInt8) (isIntrinsic : op.isIntrinsic = true)
    (kept : Program.Keeps (fun _ => False) (u.withTest op width bitSize).program q) (fits : q.Fits)
    (reads : ∀ v ∈ op.values, q.Clean v) : (u.rawTest op width bitSize).At q u.program.instrs.size := by
  have loaded := (emits_value ..).before kept
  have start := (emits_value ..).before loaded
  have second := (emits_value ..).found loaded.instrs
  have third := (emits_value ..).found kept.instrs
  rw [State.withZero, size_withValue] at second
  rw [size_withValue, State.withZero, size_withValue] at third
  have raw := value?_nextValue fits.values loaded.values
  rw [State.withZero, nextInst_withValue] at raw
  exact ⟨(emits_value ..).found start.instrs, second, third, value?_nextValue fits.values start.values, raw,
    isIntrinsic, reads⟩

namespace Code

theorem compared (h : Code env result s u nodes known live effects) {op : AluOp}
    (ops : Operands (.alu op srcs) args [] (known ++ [(u.nextValue, .zero)]) live) (width bitSize : UInt8) :
    Code env result s (u.withZero.withValue (.alu op srcs) width bitSize)
      (nodes ++ (instsBetween u.program.instrs.size (u.program.instrs.size + 2)).map .instr)
      [(u.withZero.nextValue, .node width bitSize (Operation.alu op srcs).blank (args.map Prod.snd) [])] []
      effects where
  toDraft := h.toDraft.compared ops width bitSize
  rested := fun _ => (emits_value ..).rested rfl
  sealed := by
    intro rested q kept fits
    have start := (emits_value ..).before kept
    have before := h.sealed_before (emits_value ..) rested start fits
    have second := (emits_value ..).found kept.instrs
    rw [State.withZero, size_withValue] at second
    have zero : q.Clean u.nextValue := nextValue_clean fits (start.mono fun _ => False.elim)
      ((h.rested rested).notRaw ((emits_value ..).before start).instrs)
    have clean := ops.clean (by
      intro k member
      rcases List.mem_append.mp member with member | member
      · exact before.clean k member
      · rw [List.mem_singleton.mp member]
        exact zero)
    have group : Group q u.program.instrs.size 2 :=
      .compared ((emits_value ..).found start.instrs) second fun x member => clean _ (List.mem_map_of_mem member)
    have value : q.Clean u.withZero.nextValue := by
      refine nextValue_clean fits (kept.mono fun _ => False.elim) ?_
      rw [State.withZero, size_withValue, Program.rawAt, second]
      simp [Operation.isIntrinsic]
    refine (before.trans ?_ id).weaken (List.subset_append_right _ _)
    exact .of_links (.single group) (by simpa using value) rfl

theorem tested (h : Code env result s u nodes known live effects) (ops : Operands op args chains known live)
    (width bitSize : UInt8) (isIntrinsic : op.isIntrinsic = true) :
    Code env result s (u.withTest op width bitSize)
      (nodes ++ (instsBetween u.program.instrs.size (u.program.instrs.size + 3)).map .instr)
      [((u.rawTest op width bitSize).value,
        .nonzero (.node width bitSize op.blank (args.map Prod.snd) (chains.map Live.path)))] []
      (effects ++ leaves result op chains) where
  toDraft := h.toDraft.tested ops width bitSize
  rested := fun _ => (emits_value ..).rested rfl
  sealed := by
    intro rested q kept fits
    have loaded := (emits_value ..).before kept
    have before := h.sealed_before (emits_value ..) rested ((emits_value ..).before loaded) fits
    have stands := rawTest_at width bitSize isIntrinsic (kept.mono fun _ => False.elim) fits
      (ops.clean before.clean)
    have value : q.Clean (u.rawTest op width bitSize).value := by
      refine nextValue_clean fits (kept.mono fun _ => False.elim) ?_
      rw [size_withValue, State.withZero, size_withValue, Program.rawAt, stands.test]
      simp [Operation.isIntrinsic]
    refine (before.trans ?_ id).weaken (List.subset_append_right _ _)
    exact .of_links (.single (.tested stands)) (by simpa using value) rfl

/-! ### Chains and regions -/

theorem root {var : Target.VarId} (rooted : Rooted env s.program var segment) (type : ShaderType) :
    Code env result s
      { s with program := { s.program with links := s.program.links.push ⟨.var var, type, none⟩ } } []
      [] [⟨⟨s.program.links.size, .var var, type⟩, [], [segment]⟩] [] where
  toDraft := .root rooted type
  rested := fun rested => rested
  sealed := by
    intro rested q kept fits
    refine ⟨.nil, by simp, ?_⟩
    intro i link v behind found index
    simp only [Array.getElem?_push] at found
    split at found
    · obtain rfl := Option.some.inj found
      cases index
    · obtain ⟨inside, -⟩ := Array.getElem?_eq_some_iff.mp found
      omega

theorem append {c : Live} (h : Code env result s u nodes known [c] effects) {kind : LinkKind}
    (narrows : Narrows known kind segment) (type : ShaderType) :
    Code env result s { u with program := c.attach u.program kind type } nodes known
      [c.extend ⟨u.program.links.size, kind, type⟩ segment] effects where
  toDraft := h.toDraft.append narrows type
  rested := h.rested
  sealed := by
    intro rested q kept fits
    have before := h.sealed rested (keeps_attach kept) fits
    refine ⟨before.tidy, before.clean, ?_⟩
    intro i link v behind found index
    -- the link is the new one, or one from before, which kept its kind
    simp only [Live.attach, Array.getElem?_modify, Array.getElem?_push] at found
    have old : ∀ {l}, u.program.links[i]? = some l → link.kind = l.kind → q.Clean v := by
      intro l there same
      exact before.indices behind there (by rw [← same, index])
    have new : link.kind = kind → q.Clean v := by
      intro same
      obtain ⟨k, member, rfl⟩ := narrows.index_mem (by rw [← same, index])
      exact before.clean k member
    split at found
    · obtain ⟨l, there, rfl⟩ := Option.map_eq_some_iff.mp found
      split at there
      · obtain rfl := Option.some.inj there
        exact new rfl
      · exact old there rfl
    · split at found
      · obtain rfl := Option.some.inj found
        exact new rfl
      · exact old found rfl

theorem loop (h : Code env result { s with region := {} } u nodes [] [] effects) :
    Code env result s { u with region := s.region.pushLoop u.region } [.loop nodes] [] []
      [.loop effects] where
  toDraft := h.toDraft.loop
  rested := h.rested
  sealed := fun rested _ kept fits =>
    have inner := h.sealed rested kept fits
    ⟨.loop inner.tidy .nil, by simp, inner.indices⟩

/-- The arms of a branch are collected one after the other; the condition is a value known before. -/
theorem branch {v w : State} {k : Known} (h : Code env result s u nodes known live effects) (member : k ∈ known)
    {nodes' : List Node} {effects' : List Skeleton}
    (first : Code env result { u with region := {} } v nodes' [] [] effects')
    {nodes'' : List Node} {effects'' : List Skeleton}
    (second : Code env result { v with region := {} } w nodes'' [] [] effects'') :
    Code env result s { w with region := u.region.pushBranch k.1 v.region w.region }
      (nodes ++ [.branch k.1 nodes' nodes'']) [] [] (effects ++ [.branch effects' effects'']) where
  toDraft := h.toDraft.branch member first.toDraft second.toDraft
  rested := fun rested => second.rested (first.rested (h.rested rested))
  sealed := by
    intro rested q kept fits
    have grown := Program.Keeps.size_le (h.keeps.links trivial)
    have grown' := Program.Keeps.size_le (first.keeps.links trivial)
    have kept₁ : Program.Keeps (Settled s []) v.program q := second.keeps_before kept
    have kept₀ : Program.Keeps (Settled s []) u.program q := first.keeps_before kept₁
    have before := h.sealed rested (kept₀.mono fun i settled => ⟨settled.1, by simp⟩) fits
    have arm₁ := first.sealed (h.rested rested)
      (kept₁.mono fun i settled => ⟨Nat.le_trans grown settled.1, by simp⟩) fits
    have arm₂ := second.sealed (first.rested (h.rested rested))
      (kept.mono fun i settled => ⟨Nat.le_trans grown (Nat.le_trans grown' settled.1), by simp⟩) fits
    have links := (before.trans arm₁ (first.keeps.links trivial)).trans arm₂ (second.keeps.links trivial)
    exact ⟨before.tidy.append (.branch (before.clean k member) arm₁.tidy arm₂.tidy .nil), by simp, links.indices⟩

/-- A branch around one instruction, which may read what is known and live before the branch. -/
theorem guard (h : Code env result s u nodes known live effects) (member : k ∈ known)
    (ops : Operands op args chains known live) (e : Emits u t op none) (plain : op.isPlain = true)
    (region : t.region = u.region.pushBranch k.1 ⟨#[.instr u.nextInst]⟩ {}) :
    Code env result s t (nodes ++ [.branch k.1 [.instr u.nextInst] []]) [] []
      (effects ++ [.branch (leaves result op chains) []]) where
  toDraft := h.toDraft.guard member ops e region
  rested := fun _ => e.rested (isConst_of_isPlain plain)
  sealed := by
    intro rested q kept fits
    have before := h.sealed_before e rested kept fits
    have inner := Tidy.single (h.plain_group e ops rested kept fits (isConst_of_isPlain plain)
      (loadsRaw_of_isPlain plain))
    rw [instsBetween_succ] at inner
    have last : Seal q u.program.links t.program.links [.branch k.1 [.instr u.nextInst] []] [] :=
      .of_links (.branch (before.clean k member) inner .nil .nil) (by simp) e.links
    exact (before.trans last (by rw [e.links]; exact id)).weaken (List.nil_subset _)

theorem closed (h : Code env result s t nodes known live effects) (other : Env) :
    Code other result s t nodes [] [] effects where
  toDraft := h.toDraft.closed other
  rested := h.rested
  sealed := (h.weaken (List.nil_subset _) (List.nil_subset _)).sealed

end Code

end

end ShaderSSA.Lowering
