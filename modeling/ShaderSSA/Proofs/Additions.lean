import ShaderSSA.Proofs.Steps

/-!
The operations that a part of lowering adds, in programs of any size. Evaluation emits operations that
compute a defined value, and none of them is the work of a call or a statement.
-/

namespace ShaderSSA.Lowering
open Source Target Lower

variable {P Q : Operation → Bool} {s u t : State} {α β : Type} {op : Operation} {m : Lower α}

/-- From `s` to `t` instructions were added, all with operations in `P`, and the summary was left alone. -/
structure Adds (P : Operation → Bool) (s t : State) : Prop where
  instrs : ∃ more, t.program.instrs.toList = s.program.instrs.toList ++ more ∧ ∀ i ∈ more, P i.operation = true
  info : t.program.info = s.program.info

namespace Adds

theorem of_same (instrs : t.program.instrs = s.program.instrs) (info : t.program.info = s.program.info) :
    Adds P s t :=
  ⟨⟨[], by rw [instrs, List.append_nil], by simp⟩, info⟩

theorem trans (h : Adds P s u) (h' : Adds P u t) : Adds P s t := by
  obtain ⟨⟨first, before, inside⟩, info⟩ := h
  obtain ⟨⟨second, after, inside'⟩, info'⟩ := h'
  refine ⟨⟨first ++ second, by rw [after, before, List.append_assoc], fun i member => ?_⟩, info'.trans info⟩
  rcases List.mem_append.mp member with member | member
  · exact inside i member
  · exact inside' i member

theorem mono (h : Adds P s t) (weaker : ∀ op, P op = true → Q op = true) : Adds Q s t := by
  obtain ⟨⟨more, after, inside⟩, info⟩ := h
  exact ⟨⟨more, after, fun i member => weaker _ (inside i member)⟩, info⟩

theorem effect (h : P op = true) : Adds P s (s.withEffect op) :=
  ⟨⟨[⟨op, none⟩], Array.toList_push, by simp [h]⟩, rfl⟩

theorem value {op : Operation} (h : P op = true) (width bitSize : UInt8) :
    Adds P s (s.withValue op width bitSize) :=
  ⟨⟨[⟨op, some s.nextValue⟩], Array.toList_push, by simp [h]⟩, rfl⟩

end Adds

/-- What `m` adds is in `P`. -/
structure Adding (P : Operation → Bool) (m : Lower α) : Prop where
  adds : ∀ {s a t}, Runs m s a t → Adds P s t

theorem Adding.mono (h : Adding P m) (weaker : ∀ op, P op = true → Q op = true) : Adding Q m :=
  ⟨fun run => (h.adds run).mono weaker⟩

/-! ### Parts that add nothing -/

theorem adding_of_same
    (h : ∀ {s a t}, Runs m s a t → t.program.instrs = s.program.instrs ∧ t.program.info = s.program.info) :
    Adding P m := by
  refine ⟨fun run => ?_⟩
  obtain ⟨instrs, info⟩ := h run
  exact .of_same instrs info

@[simp]
theorem adding_pure (x : α) : Adding P (pure x) := adding_of_same (by simp +contextual)

@[simp]
theorem adding_abort (d : Defect) : Adding P (abort d : Lower α) := adding_of_same (by simp)

@[simp]
theorem adding_check (e : Except Fault α) : Adding P (check e) := adding_of_same (by simp +contextual)

@[simp]
theorem adding_scope : Adding P scope := adding_of_same (by simp +contextual)

@[simp]
theorem adding_program : Adding P program := adding_of_same (by simp +contextual)

@[simp]
theorem adding_nativeIntegers : Adding P nativeIntegers := adding_of_same (by simp +contextual)

@[simp]
theorem adding_modifyRegion (f : Region → Region) : Adding P (modifyRegion f) := adding_of_same (by simp +contextual)

@[simp]
theorem adding_setScope (c : Scope) : Adding P (setScope c) := adding_of_same (by simp +contextual)

@[simp]
theorem adding_report (e : Event) : Adding P (report e) := adding_of_same (by simp +contextual)

@[simp]
theorem adding_rootChain (var : Target.VarId) (type : ShaderType) : Adding P (rootChain var type) := by
  refine adding_of_same fun run => ?_
  obtain ⟨-, rfl⟩ := rootChain_ok run
  exact ⟨rfl, rfl⟩

@[simp]
theorem adding_appendLink (c : Chain) (kind : LinkKind) (type : ShaderType) : Adding P (appendLink c kind type) := by
  refine adding_of_same fun run => ?_
  obtain ⟨links, -, rfl⟩ := appendLink_ok run
  exact ⟨rfl, rfl⟩

@[simp]
theorem adding_addVariable (var : Variable) (owner : Option FuncId) : Adding P (addVariable var owner) := by
  refine adding_of_same fun run => ?_
  obtain ⟨p, added, rfl⟩ := addVariable_ok run
  obtain ⟨-, ⟨f, g, b, -, -, -, -, rfl⟩ | ⟨f, -, -, rfl⟩ | ⟨-, rfl⟩⟩ := Program.addVariable_ok added
  all_goals exact ⟨rfl, rfl⟩

theorem adding_bind {x : Lower α} {f : α → Lower β} (hx : Adding P x) (hf : ∀ a, Adding P (f a)) :
    Adding P (x >>= f) := by
  refine ⟨fun run => ?_⟩
  obtain ⟨a, u, first, next⟩ := runs_bind.mp run
  exact (hx.adds first).trans ((hf a).adds next)

/-! ### Declarations -/

theorem adding_declare (source : Source.Program) (id : Source.VarId) : Adding P (declare source id) := by
  unfold declare
  repeat' first | with_reducible apply adding_bind | intro _ | simp

theorem adding_modifyBody (id : FuncId) (change : Body → Body) : Adding P (modifyBody id change) := by
  refine adding_of_same fun run => ?_
  obtain ⟨p, changed, rfl⟩ := modifyBody_ok run
  obtain ⟨f, b, -, -, rfl⟩ := Program.modifyBody_ok changed
  exact ⟨rfl, rfl⟩

section
variable (source : Source.Program)

theorem adding_declareParams (signature : Signature) (f : FuncId) (ids : List Source.VarId) :
    Adding P (declareParams source signature f ids) := by
  induction ids with
  | nil => exact adding_pure ()
  | cons id ids ih =>
    unfold declareParams
    repeat' first
      | with_reducible apply adding_bind
      | intro _
      | split
      | exact ih
      | exact adding_declare source id
      | exact adding_modifyBody _ _
      | simp

theorem adding_declareReturn (f : FuncId) (type : ShaderType) : Adding P (declareReturn f type) := by
  unfold declareReturn
  repeat' first
    | with_reducible apply adding_bind
    | intro _
    | split
    | exact adding_modifyBody _ _
    | simp

theorem adding_registerSignature (id : SignatureId) : Adding P (registerSignature source id) := by
  refine adding_of_same fun run => ?_
  obtain ⟨signature, -, ⟨-, rfl⟩ | ⟨-, scope, log, -, rfl⟩⟩ := registerSignature_ok run
  · exact ⟨rfl, rfl⟩
  · exact ⟨rfl, rfl⟩

theorem adding_registerSignatures (ids : List SignatureId) : Adding P (registerSignatures source ids) := by
  induction ids with
  | nil => exact adding_pure ()
  | cons id ids ih =>
    unfold registerSignatures
    exact adding_bind (adding_registerSignature source id) fun _ => ih

theorem adding_registerAll (stmts : List Stmt) : Adding P (registerAll source stmts) := by
  fun_induction registerAll source stmts with
  | case1 => exact adding_pure ()
  | case2 name signatures rest ih => exact adding_bind (adding_registerSignatures source signatures) fun _ => ih
  | case3 stmt rest other ih => exact ih

end

/-! ### Emission -/

theorem adding_emitEffect (h : P op = true) : Adding P (emitEffect op) := by
  refine ⟨fun run => ?_⟩
  obtain rfl := emitEffect_ok run
  exact .effect h

theorem adding_emitValue (h : P op = true) (width bitSize : UInt8) : Adding P (emitValue op width bitSize) := by
  refine ⟨fun run => ?_⟩
  obtain ⟨-, rfl, -⟩ := emitValue_ok run
  exact .value h width bitSize

/-! ### Evaluation -/

theorem Evaluates.adding (h : Evaluates m) : Adding Operation.evaluates m := by
  induction h with
  | pure x => exact adding_pure x
  | check e => exact adding_check e
  | scope => exact adding_scope
  | read _ _ ih => exact adding_bind adding_program ih
  | bind _ _ first rest => exact adding_bind first rest
  | value evaluates width bitSize => exact adding_emitValue evaluates width bitSize
  | root var type => exact adding_rootChain var type
  | extend _ _ _ kind type first rest =>
    exact adding_bind first fun c => adding_bind (rest c) fun a => adding_appendLink c (kind a) type
  | temporary _ => exact adding_bind adding_scope fun c => adding_addVariable _ c.current

theorem length_evaluateAll {source : Source.Program} {rs : List Rvalue} {vs : List ValueId}
    (run : Runs (evaluateAll source rs) s vs t) : vs.length = rs.length := by
  induction rs generalizing s vs with
  | nil =>
    rw [(runs_evaluateAll_nil.mp run).1]
    rfl
  | cons r rs ih =>
    obtain ⟨v, _, vs, -, rest, rfl⟩ := runs_evaluateAll_cons.mp run
    rw [List.length_cons, List.length_cons, ih rest]

end ShaderSSA.Lowering
