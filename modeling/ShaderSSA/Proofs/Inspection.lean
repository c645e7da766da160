import ShaderSSA.Proofs.Linear
import ShaderSSA.Proofs.Traversals
import ShaderSSA.Proofs.Twins

/-!
Inspecting lowered programs. Every handle that a lowered program stores is in range, so the program can be printed
and counted, and its values and chains can be followed (`lower_inspectable`).
-/

namespace ShaderSSA

namespace Target

variable {f : FuncId} {head : LinkId} {i : InstId} {instr : Instr} {v : VarId} {α : Type}

/-- Every handle that is stored is in range, and values have one to four components. -/
structure Program.Closed (p : Program) : Prop where
  insts : ∀ i ∈ p.instIds, ∃ instr, p.instr? i = some instr
  values : ∀ v ∈ p.valueIds, ∃ shape, p.value? v = some shape
  vars : ∀ v ∈ p.varIds, ∃ x, p.var? v = some x
  functions : ∀ f ∈ p.funcIds, ∃ g, p.function? f = some g
  links : ∀ l ∈ p.linkIds, ∃ link, p.link? l = some link
  widths : ∀ shape ∈ p.values, 0 < shape.width ∧ shape.width ≤ 4

/-- The walk from a link ends, at a link without a child. -/
def Links.Ends (links : Links) (head : LinkId) : Prop :=
  ∃ visited last, links.walk head = .ok visited ∧ visited.getLast? = some last ∧ last.2.child = none

/-! ### Inspections that succeed -/

theorem Links.visitFrom_succeeds {links : Links} {visit : LinkId → Link → Except Fault α}
    (each : ∀ id link, link ∈ links → ∃ a, visit id link = .ok a) {fuel : Nat} {id : LinkId}
    {visited : List (LinkId × Link)} (walked : links.visitFrom (fun id link => .ok (id, link)) fuel id = .ok visited) :
    ∃ as, links.visitFrom visit fuel id = .ok as := by
  induction fuel generalizing id visited with
  | zero => exact ⟨_, rfl⟩
  | succ fuel ih =>
    simp only [Links.visitFrom, bind_eq_ok] at walked
    obtain ⟨link, found, _, -, walked⟩ := walked
    obtain ⟨a, seen⟩ := each id link (Array.mem_of_getElem? (Links.get_ok.mp found))
    cases child : link.child with
    | none => exact ⟨[a], by simp [Links.visitFrom, found, seen, child]⟩
    | some next =>
      simp only [child] at walked
      obtain ⟨others, rest, -⟩ := bind_eq_ok.mp walked
      obtain ⟨as, done⟩ := ih rest
      exact ⟨a :: as, by simp [Links.visitFrom, found, seen, child, done]⟩

namespace Program
variable {p : Program}

theorem getVariable_succeeds (found : ∃ x, p.var? v = some x) : ∃ x, p.getVariable v = .ok x := by
  obtain ⟨x, found⟩ := found
  exact ⟨x, by rw [getVariable, found]⟩

theorem getFunction_succeeds (found : ∃ g, p.function? f = some g) : ∃ g, p.getFunction f = .ok g := by
  obtain ⟨g, found⟩ := found
  exact ⟨g, by rw [getFunction, found]⟩

theorem getInstr_succeeds (found : ∃ instr, p.instr? i = some instr) : ∃ instr, p.getInstr i = .ok instr := by
  obtain ⟨instr, found⟩ := found
  exact ⟨instr, by rw [getInstr, found]⟩

theorem getValue_succeeds {v : ValueId} (found : ∃ shape, p.value? v = some shape) :
    ∃ shape, p.getValue v = .ok shape := by
  obtain ⟨shape, found⟩ := found
  exact ⟨shape, by rw [getValue, found]⟩

theorem instrsIn_succeeds (known : ∃ g, p.function? f = some g) : ∃ ids, p.instrsIn f = .ok ids := by
  refine bind_succeeds (getFunction_succeeds known) fun g _ => ?_
  split <;> exact pure_succeeds _

theorem mem_of_getInstr (found : p.getInstr i = .ok instr) : instr ∈ p.instrs := by
  rw [getInstr] at found
  split at found
  · rename_i there
    obtain rfl := Except.ok.inj found
    exact Array.mem_of_getElem? there
  · cases found

theorem mem_of_getValue {v : ValueId} {shape : ValueDef} (found : p.getValue v = .ok shape) : shape ∈ p.values := by
  rw [getValue] at found
  split at found
  · rename_i there
    obtain rfl := Except.ok.inj found
    exact Array.mem_of_getElem? there
  · cases found

/-! ### Regions -/

mutual

theorem nodeLines_succeeds (each : ∀ instr ∈ p.instrs, ∃ text, p.instrText instr = .ok text) (depth : Nat) :
    ∀ node : Node, (∀ i ∈ node.instrs, ∃ instr, p.instr? i = some instr) → ∃ lines, p.nodeLines depth node = .ok lines
  | .instr id, known => by
    rw [Node.instrs] at known
    rw [nodeLines]
    refine bind_succeeds (getInstr_succeeds (known id (List.mem_singleton.mpr rfl))) fun instr found => ?_
    exact bind_succeeds (each instr (mem_of_getInstr found)) fun _ _ => pure_succeeds _
  | .branch condition thenBody elseBody, known => by
    rw [Node.instrs] at known
    rw [nodeLines]
    refine bind_succeeds (nodesLines_succeeds each _ thenBody fun i member => known i (by simp [member])) fun _ _ => ?_
    refine bind_succeeds (nodesLines_succeeds each _ elseBody fun i member => known i (by simp [member])) fun _ _ => ?_
    exact pure_succeeds _
  | .loop body, known => by
    rw [Node.instrs] at known
    rw [nodeLines]
    exact bind_succeeds (nodesLines_succeeds each _ body known) fun _ _ => pure_succeeds _

theorem nodesLines_succeeds (each : ∀ instr ∈ p.instrs, ∃ text, p.instrText instr = .ok text) (depth : Nat) :
    ∀ nodes : List Node, (∀ i ∈ instrsOf nodes, ∃ instr, p.instr? i = some instr) →
      ∃ lines, p.nodesLines depth nodes = .ok lines
  | [], _ => by
    rw [nodesLines]
    exact ⟨_, rfl⟩
  | n :: ns, known => by
    rw [instrsOf] at known
    rw [nodesLines]
    refine bind_succeeds (nodeLines_succeeds each _ n fun i member => known i (by simp [member])) fun _ _ => ?_
    have rest := nodesLines_succeeds each depth ns fun i member => known i (by simp [member])
    exact bind_succeeds rest fun _ _ => pure_succeeds _

end

namespace Closed
variable (closed : p.Closed)
include closed

/-! ### What is stored where -/

theorem value_of_operand {instr : Instr} (there : instr ∈ p.instrs) {v : ValueId}
    (member : v ∈ instr.operation.values ++ instr.dest.toList) : ∃ shape, p.value? v = some shape := by
  refine closed.values v ?_
  rw [valueIds, List.mem_append, List.mem_append, List.mem_flatMap]
  exact .inl (.inl ⟨instr, Array.mem_toList_iff.mpr there, member⟩)

theorem function_of_callee (there : instr ∈ p.instrs) (callee : instr.operation.callee? = some f) :
    ∃ g, p.function? f = some g := by
  refine closed.functions f ?_
  rw [funcIds, List.mem_append, List.mem_filterMap]
  exact .inl ⟨instr, Array.mem_toList_iff.mpr there, callee⟩

theorem var_of_root {link : Link} (there : link ∈ p.links) (root : link.kind.var? = some v) :
    ∃ x, p.var? v = some x := by
  refine closed.vars v ?_
  rw [varIds, List.mem_append, List.mem_append, List.mem_filterMap]
  exact .inl (.inl ⟨link, Array.mem_toList_iff.mpr there, root⟩)

theorem var_of_body {b : Body} (there : b ∈ p.bodies) (member : v ∈ b.vars) : ∃ x, p.var? v = some x := by
  refine closed.vars v ?_
  rw [varIds, List.mem_append, List.mem_flatMap]
  exact .inr ⟨b, there, member⟩

theorem instr_of_body {b : Body} (there : b ∈ p.bodies) (member : i ∈ instrsOf b.nodes) :
    ∃ instr, p.instr? i = some instr := by
  refine closed.insts i ?_
  rw [instIds, List.mem_append, List.mem_flatMap]
  exact .inr ⟨b, there, member⟩

theorem getProducer_succeeds {v : ValueId} (known : ∃ shape, p.value? v = some shape) :
    ∃ instr, p.getProducer v = .ok instr := by
  refine bind_succeeds (getValue_succeeds known) fun shape found => ?_
  refine getInstr_succeeds (closed.insts _ ?_)
  rw [instIds, List.mem_append, List.mem_map]
  exact .inl ⟨shape, Array.mem_toList_iff.mpr (mem_of_getValue found), rfl⟩

/-! ### Texts -/

theorem linkText_succeeds {link : Link} (there : link ∈ p.links) : ∃ text, p.linkText link.kind = .ok text := by
  cases kind : link.kind with
  | var v =>
    have root : link.kind.var? = some v := by rw [kind, LinkKind.var?]
    exact bind_succeeds (getVariable_succeeds (closed.var_of_root there root)) fun _ _ => pure_succeeds _
  | struct index => exact pure_succeeds _
  | array index => cases index <;> exact pure_succeeds _

theorem locationText_succeeds (ends : p.links.Ends head) : ∃ text, p.locationText head = .ok text := by
  obtain ⟨visited, last, walked, -, -⟩ := ends
  refine bind_succeeds (Links.visitFrom_succeeds (fun id link there => ?_) walked) fun _ _ => pure_succeeds _
  exact closed.linkText_succeeds there

theorem aluSrcText_succeeds {src : AluSrc} (found : ∃ shape, p.value? src.value = some shape) :
    ∃ text, p.aluSrcText src = .ok text := by
  refine bind_succeeds (getValue_succeeds found) fun shape there => bind_succeeds ?_ fun _ _ => pure_succeeds _
  have narrow := (closed.widths shape (mem_of_getValue there)).2
  rw [lanesText]
  split
  · rw [if_neg (UInt8.not_lt.mpr narrow)]
    split <;> exact ⟨_, rfl⟩
  · exact ⟨_, rfl⟩

section
variable (ends : ∀ head ∈ p.locations, p.links.Ends head)
include ends

theorem locationText_of_named (there : instr ∈ p.instrs) (member : head ∈ instr.operation.locations) :
    ∃ text, p.locationText head = .ok text := by
  refine closed.locationText_succeeds (ends head ?_)
  rw [locations, List.mem_flatMap]
  exact ⟨instr, Array.mem_toList_iff.mpr there, member⟩

theorem operationText_succeeds (there : instr ∈ p.instrs) : ∃ text, p.operationText instr.operation = .ok text := by
  have named : ∀ head ∈ instr.operation.locations, ∃ text, p.locationText head = .ok text := fun _ member =>
    closed.locationText_of_named ends there member
  have operand : ∀ v ∈ instr.operation.values, ∃ shape, p.value? v = some shape := fun v member =>
    closed.value_of_operand there (List.mem_append_left _ member)
  have callee := fun f => closed.function_of_callee there (f := f)
  cases operation : instr.operation with
  | alu op srcs =>
    rw [operation] at operand
    cases srcs with
    | nil => exact pure_succeeds _
    | cons src srcs =>
      refine bind_succeeds (mapM_ok fun s member => ?_) fun _ _ => pure_succeeds _
      exact closed.aluSrcText_succeeds (operand _ (List.mem_map_of_mem member))
  | intrinsic op srcs indices =>
    rw [operation] at named
    refine bind_succeeds (mapM_ok fun s member => ?_) fun _ _ => pure_succeeds _
    cases s with
    | ssa v => exact ⟨_, rfl⟩
    | location head => exact named head (List.mem_filterMap.mpr ⟨_, member, rfl⟩)
  | tex t =>
    rw [operation] at named
    exact bind_succeeds (named t.texture (List.mem_singleton.mpr rfl)) fun _ _ => pure_succeeds _
  | call f params result =>
    rw [operation] at named callee
    refine bind_succeeds (getFunction_succeeds (callee f rfl)) fun _ _ => ?_
    refine bind_succeeds (mapM_ok fun head member => named head (List.mem_append_left _ member)) fun _ _ => ?_
    cases result with
    | none => exact pure_succeeds _
    | some head =>
      have target := named head (List.mem_append_right _ (Option.mem_toList.mpr rfl))
      dsimp only
      exact bind_succeeds target fun _ _ => pure_succeeds _
  | jump kind | undef | loadConst bitSize bits => exact ⟨_, rfl⟩

theorem instrText_succeeds (there : instr ∈ p.instrs) : ∃ text, p.instrText instr = .ok text := by
  have rest : ∀ dest : String, ∃ text, (do return dest ++ (← p.operationText instr.operation)) = .ok text := fun _ =>
    bind_succeeds (closed.operationText_succeeds ends there) fun _ _ => pure_succeeds _
  rw [instrText]
  cases dest : instr.dest with
  | none => exact rest _
  | some v =>
    have known : ∃ shape, p.value? v = some shape :=
      closed.value_of_operand there (List.mem_append_right _ (Option.mem_toList.mpr dest))
    exact bind_succeeds (getValue_succeeds known) fun _ _ => rest _

theorem functionLines_succeeds {f : Function} (there : f ∈ p.functions.toList) :
    ∃ lines, p.functionLines f = .ok lines := by
  rw [functionLines]
  cases body : f.body with
  | none => exact pure_succeeds _
  | some b =>
    have listed : b ∈ p.bodies := List.mem_filterMap.mpr ⟨f, there, body⟩
    have known := fun v member => getVariable_succeeds (closed.var_of_body listed (v := v) member)
    refine bind_succeeds (mapM_ok fun v member => ?_) fun _ _ => ?_
    · exact bind_succeeds (known v (by simp [Body.vars, Array.mem_toList_iff.mp member])) fun _ _ => pure_succeeds _
    refine bind_succeeds (mapM_ok fun v member => ?_) fun _ _ => ?_
    · exact bind_succeeds (known v (by simp [Body.vars, Array.mem_toList_iff.mp member])) fun _ _ => pure_succeeds _
    have nodes := nodesLines_succeeds (fun _ => closed.instrText_succeeds ends) 1 b.nodes fun i =>
      closed.instr_of_body listed
    exact bind_succeeds nodes fun _ _ => pure_succeeds _

theorem dump_succeeds : ∃ text, p.dump = .ok text := by
  refine bind_succeeds ?_ fun _ _ => pure_succeeds _
  refine bind_succeeds (mapM_ok fun v member => ?_) fun _ _ => ?_
  · refine bind_succeeds (getVariable_succeeds (closed.vars v ?_)) fun _ _ => pure_succeeds _
    simp [varIds, Array.mem_toList_iff.mp member]
  · refine bind_succeeds (mapM_ok fun f there => ?_) fun _ _ => pure_succeeds _
    exact closed.functionLines_succeeds ends there

end

/-! ### Counts -/

theorem tallies_succeed : ∃ tallies, p.tallies = .ok tallies := by
  obtain ⟨tallies, counted, -⟩ := tallies_agree fun b there i => closed.instr_of_body there
  exact ⟨tallies, counted⟩

end Closed

end Program

/-! ### Named chains -/

theorem Program.Woven.named_ends {p : Program} (h : p.Woven []) (fits : p.Fits) (member : head ∈ p.locations) :
    (∃ v, p.links.rootVar head = .ok v) ∧ p.links.Ends head := by
  obtain ⟨named, held, locations, -, woven⟩ := h
  rw [locations] at member
  obtain ⟨c, there, rfl⟩ := List.mem_map.mp member
  have threaded := woven.threaded c (List.mem_append_left _ there)
  refine ⟨?_, _, _, threaded.walk fits.links, Links.thread_getLast? c.first c.rest, rfl⟩
  have root := (woven.shaped c (List.mem_append_left _ there)).root
  cases kind : c.first.kind with
  | var v => exact ⟨v, threaded.rootVar fits.links kind⟩
  | struct index | array index => simp [kind, LinkKind.isRoot] at root

theorem Links.Ends.chainType_succeeds {links : Links} (ends : links.Ends head) :
    ∃ type, links.chainType head = .ok type := by
  obtain ⟨visited, last, walked, isLast, -⟩ := ends
  refine bind_succeeds ⟨visited, walked⟩ fun other again => ?_
  obtain rfl := Except.ok.inj (walked.symm.trans again)
  rw [isLast]
  exact pure_succeeds _

/-- What can be asked of a program. -/
structure Program.Inspectable (p : Program) : Prop where
  closed : p.Closed
  dump : ∃ text, p.dump = .ok text
  tallies : ∃ tallies, p.tallies = .ok tallies
  instrsIn : ∀ f g, p.function? f = some g → ∃ ids, p.instrsIn f = .ok ids
  producers : ∀ v shape, p.value? v = some shape → ∃ instr, p.getProducer v = .ok instr
  /-- The named chains start at variables that are there. -/
  roots : ∀ head ∈ p.locations, ∃ v x, p.links.rootVar head = .ok v ∧ p.var? v = some x
  chainTypes : ∀ head ∈ p.locations, ∃ type, p.links.chainType head = .ok type
  /-- No walk along a named chain is endless. -/
  ends : ∀ head ∈ p.locations, p.links.Ends head

end Target

namespace Lowering
open Source Target Lower

/-- A program beside itself. -/
def Tracks.within {p : Target.Program} (fits : p.Fits) : Tracks p p where
  sameMode := True
  insts := .within fits.instrs 0 fun _ => False
  values := .within fits.values 0 fun _ => False
  vars := .within fits.vars 0 fun _ => False
  links := .within fits.links 0 fun _ => False
  function f := f.index.toNat < p.functions.size
  fresh {i} below := Nat.lt_of_le_of_lt (Nat.mod_le i _) below
  shared _ := True
  visible _ := True
  infos _ _ := True
  discards _ := trivial

section
variable {p : Target.Program} {fits : p.Fits} {s : State}

/-- A program that lowering keeps beside itself is closed. -/
theorem Twins.closed (twins : Twins (.within fits) s s) (same : s.program = p) : p.Closed := by
  have instrs : ∀ {i}, i ∈ p.instrs → i.Alike (Tracks.within fits).pairing i := fun member =>
    twins.instrs.whole fits.instrs (congrArg (fun r : Target.Program => r.instrs.size) same) (same ▸ member)
  have values : ∀ {d}, d ∈ p.values → d.Alike (Tracks.within fits).pairing d ∧ ¬ (d.width = 0 ∨ 4 < d.width) :=
    fun member => twins.values.whole fits.values (congrArg (fun r : Target.Program => r.values.size) same)
      (same ▸ member)
  have vars : ∀ {x}, x ∈ p.vars → x.Alike (Tracks.within fits).pairing x := fun member =>
    twins.vars.whole fits.vars (congrArg (fun r : Target.Program => r.vars.size) same) (same ▸ member)
  have links : ∀ {l}, l ∈ p.links → l.Alike (Tracks.within fits).pairing l := fun member =>
    twins.links.whole fits.links (congrArg (fun r : Target.Program => r.links.size) same) (same ▸ member)
  have bodies : ∀ {b}, b ∈ p.bodies → b.Alike (Tracks.within fits).pairing b := by
    intro b member
    obtain ⟨f, there, body⟩ := List.mem_filterMap.mp member
    obtain ⟨i, below, rfl⟩ := Array.mem_iff_getElem.mp (Array.mem_toList_iff.mp there)
    have alike := twins.functions (i := i) trivial
    rw [same, Array.getElem?_eq_getElem below] at alike
    rcases alike with ⟨-, both⟩ | _
    rw [body] at both
    rcases both with alike | _
    exact alike
  constructor
  · intro i member
    rw [Program.instIds, List.mem_append, List.mem_map, List.mem_flatMap] at member
    have known : ∃ j, (Tracks.within fits).pairing.inst i j := by
      rcases member with ⟨d, there, rfl⟩ | ⟨b, there, member⟩
      · exact ⟨_, (values (Array.mem_toList_iff.mp there)).1.producer⟩
      · exact (bodies there).nodes.instrs member
    obtain ⟨_, -, below, -⟩ := known
    exact ⟨_, Array.getElem?_eq_getElem below⟩
  · intro v member
    rw [Program.valueIds, List.mem_append, List.mem_append, List.mem_flatMap, List.mem_filterMap,
      List.mem_flatMap] at member
    have known : ∃ w, (Tracks.within fits).pairing.value v w := by
      rcases member with (⟨i, there, member⟩ | ⟨l, there, index⟩) | ⟨b, there, member⟩
      · have alike := instrs (Array.mem_toList_iff.mp there)
        rcases List.mem_append.mp member with member | member
        · exact alike.operation.values member
        · exact exists_of_rel alike.dest (Option.mem_toList.mp member)
      · exact (links (Array.mem_toList_iff.mp there)).kind.index index
      · exact (bodies there).nodes.conditions member
    obtain ⟨_, -, below, -⟩ := known
    exact ⟨_, Array.getElem?_eq_getElem below⟩
  · intro v member
    rw [Program.varIds, List.mem_append, List.mem_append, List.mem_filterMap, List.mem_flatMap] at member
    have known : ∃ w, (Tracks.within fits).pairing.var v w := by
      rcases member with (⟨l, there, root⟩ | member) | ⟨b, there, member⟩
      · exact (links (Array.mem_toList_iff.mp there)).kind.root root
      · exact (exists_of_forall₂ twins.globals (same ▸ member)).imp fun _ => And.right
      · exact (bodies there).vars member
    obtain ⟨_, -, below, -⟩ := known
    exact ⟨_, Array.getElem?_eq_getElem below⟩
  · intro f member
    rw [Program.funcIds, List.mem_append, List.mem_filterMap, List.mem_filterMap] at member
    have below : f.index.toNat < p.functions.size := by
      rcases member with ⟨i, there, callee⟩ | ⟨x, there, owner⟩
      · exact (instrs (Array.mem_toList_iff.mp there)).operation.callee callee
      · exact (vars (Array.mem_toList_iff.mp there)).owner f owner
    exact ⟨_, Array.getElem?_eq_getElem below⟩
  · intro l member
    rw [Program.linkIds, List.mem_append, Program.locations, List.mem_flatMap,
      List.mem_filterMap] at member
    have known : ∃ m, (Tracks.within fits).pairing.link l m := by
      rcases member with ⟨i, there, member⟩ | ⟨m, there, child⟩
      · exact (instrs (Array.mem_toList_iff.mp there)).operation.locations member
      · exact exists_of_rel (links (Array.mem_toList_iff.mp there)).child child
    obtain ⟨_, -, below, -⟩ := known
    exact ⟨_, Array.getElem?_eq_getElem below⟩
  · intro shape member
    have narrow := (values member).2
    rw [not_or, UInt8.not_lt] at narrow
    exact ⟨UInt8.pos_iff_ne_zero.mpr narrow.1, narrow.2⟩

end

/-! ### Lowered programs -/

theorem lower_closed {source : Source.Program} {capabilities : Capabilities} {p : Target.Program}
    (h : lower source capabilities = .ok p) (fits : p.Fits) : p.Closed := by
  obtain ⟨s, t, info, registered, lowered, rfl⟩ := lower_ok h
  have start : (Tracks.within fits).AtStart := ⟨⟨rfl, rfl⟩, ⟨rfl, rfl⟩, ⟨rfl, rfl⟩, ⟨rfl, rfl⟩⟩
  have every : ∀ id, .signature id ∈ source.statements.flatMap itemsOf → source.bodyOf id = source.bodyOf id ∧
      (Tracks.within fits).Covered (source.bodyOf id) := fun _ _ =>
    ⟨rfl, Tracks.covered trivial (fun _ => trivial) (stmtsEvery_true _)⟩
  have whole : t.program.NoLarger { t.program with info } :=
    ⟨Nat.le_refl _, Nat.le_refl _, Nat.le_refl _, Nat.le_refl _, Nat.le_refl _⟩
  -- the run beside itself: a handle that stands for itself is in range
  have twins := Twins.program start (.refl source) rfl (fun _ => rfl) trivial every (fun _ _ _ _ => trivial)
    registered registered (.ofAll lowered) (.ofAll lowered) whole whole
  have summarized : Twins (Tracks.within fits) { t with program := { t.program with info } }
      { t with program := { t.program with info } } := { twins with infos := trivial }
  exact summarized.closed rfl

/-- Every handle in a lowered program is in range, and every value has one to four components. The program can be
printed and counted, and its functions, values and named chains can be followed without a fault or an endless walk. -/
theorem lower_inspectable {source : Source.Program} {capabilities : Capabilities} {p : Target.Program}
    (h : lower source capabilities = .ok p) (fits : p.Fits) : p.Inspectable := by
  have closed := lower_closed h fits
  have named : ∀ head ∈ p.locations, (∃ v, p.links.rootVar head = .ok v) ∧ p.links.Ends head := fun _ member =>
    (lower_woven h fits).1.named_ends fits member
  refine ⟨closed, closed.dump_succeeds fun head member => (named head member).2, closed.tallies_succeed,
    fun f g found => Program.instrsIn_succeeds ⟨g, found⟩,
    fun v shape found => closed.getProducer_succeeds ⟨shape, found⟩, fun head member => ?_,
    fun head member => (named head member).2.chainType_succeeds, fun head member => (named head member).2⟩
  obtain ⟨v, rooted⟩ := (named head member).1
  obtain ⟨link, there, root⟩ := rootVar_ok rooted
  obtain ⟨x, found⟩ := closed.var_of_root (Array.mem_of_getElem? there) (by rw [root]; rfl)
  exact ⟨v, x, rooted, found⟩

/-- A program with chains of fields and elements, a call and nested regions. -/
theorem lower_inspectable_palette : ∃ p, lower Palette.program {} = .ok p ∧ p.Fits ∧
    p.instIds.length = 54 ∧ p.valueIds.length = 44 ∧ p.linkIds.length = 26 ∧ p.Inspectable := by
  obtain ⟨p, lowered, fits, insts, values, links⟩ : ∃ p, lower Palette.program {} = .ok p ∧ p.Fits ∧
      p.instIds.length = 54 ∧ p.valueIds.length = 44 ∧ p.linkIds.length = 26 :=
    lower_checked (by decide +kernel)
  exact ⟨p, lowered, fits, insts, values, links, lower_inspectable lowered fits⟩

end Lowering

end ShaderSSA
