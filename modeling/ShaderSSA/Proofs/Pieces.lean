import ShaderSSA.Proofs.Additions
import ShaderSSA.Proofs.Calls

/-!
The lowering of a call of a built-in function as a sequence of pieces: each parameter is evaluated or located once, and
between them the call emits instructions of its own.
-/

namespace ShaderSSA

namespace Target

def Operation.isAny (ops : List IntrinsicOp) : Operation → Bool
  | .intrinsic op _ _ => op ∈ ops
  | _ => false

/-- The value has the given shape and is defined by the operation. -/
def Program.Defines (p : Program) (v : ValueId) (op : Operation) (width bitSize : UInt8) : Prop :=
  ∃ d, p.value? v = some d ∧ d.width = width ∧ d.bitSize = bitSize ∧ p.instr? d.producer = some ⟨op, some v⟩

end Target

namespace Lowering
open Source Target Lower

/-! ### Recipes -/

/-- What a parameter of a built-in function is passed as. A mask is an immediate and is not evaluated. -/
inductive Role where
  | location
  | value
  | mask
deriving DecidableEq

/-- The parameters that a recipe takes. -/
def Recipe.roles (multisample : Bool) : Recipe → List Role
  | .atomicCounter data => .location :: List.replicate data .value
  | .image data => .location :: .value :: List.replicate (multisample.toNat + data) .value
  | .imageQuery => [.location]
  | .barrier | .clock => []
  | .ssboLoad => [.value, .value]
  | .ssboStore => [.value, .value, .value, .mask]
  | .ssboAtomic data => .value :: .value :: List.replicate data .value
  | .sharedLoad => [.value]
  | .sharedStore => [.value, .value, .mask]
  | .sharedAtomic data => .value :: List.replicate data .value
  | .vote | .ballot | .readFirstInvocation => [.value]
  | .readInvocation => [.value, .value]

def imageParam? : List Rvalue → Option ImageType
  | [] => none
  | r :: _ => match r.type.withoutArray with
    | .image image => some image
    | _ => none

def multisampled (params : List Rvalue) : Bool := (imageParam? params).any fun image => image.dim = .ms

/-! ### Pieces -/

/-- A piece of the lowering of a call. -/
inductive Piece where
  /-- A parameter is located. -/
  | location (r : Rvalue) (head : LinkId)
  /-- A parameter is evaluated. -/
  | value (r : Rvalue) (v : ValueId)
  /-- The place of the result is located. -/
  | target (p : Place) (head : LinkId)
  /-- The call emits an instruction of its own. -/
  | effect (op : Operation)
  | define (op : Operation) (width bitSize : UInt8) (v : ValueId)

namespace Piece

def passed? : Piece → Option ((Rvalue × Role) × Src)
  | .location r head => some ((r, .location), .location head)
  | .value r v => some ((r, .value), .ssa v)
  | _ => none

def instr? : Piece → Option Instr
  | .effect op => some ⟨op, none⟩
  | .define op _ _ v => some ⟨op, some v⟩
  | _ => none

end Piece

def passed (ps : List Piece) : List ((Rvalue × Role) × Src) := ps.filterMap Piece.passed?

def own (ps : List Piece) : List Instr := ps.filterMap Piece.instr?

theorem passed_append (ps qs : List Piece) : passed (ps ++ qs) = passed ps ++ passed qs := List.filterMap_append

theorem own_append (ps qs : List Piece) : own (ps ++ qs) = own ps ++ own qs := List.filterMap_append

/-- The pieces lead from one state to the other. -/
inductive Trace (source : Source.Program) : State → List Piece → State → Prop where
  | done {s} : Trace source s [] s
  | location {s u t r chain ps} (run : Runs (locationChain source r) s chain u) (rest : Trace source u ps t) :
      Trace source s (.location r chain.head :: ps) t
  | value {s u t r v ps} (run : Runs (evaluate source r) s v u) (rest : Trace source u ps t) :
      Trace source s (.value r v :: ps) t
  | target {s u t p chain ps} (run : Runs (placeChain source p) s chain u) (rest : Trace source u ps t) :
      Trace source s (.target p chain.head :: ps) t
  | effect {s t op ps} (rest : Trace source (s.withEffect op) ps t) : Trace source s (.effect op :: ps) t
  | define {s t op width bitSize ps} (rest : Trace source (s.withValue op width bitSize) ps t) :
      Trace source s (.define op width bitSize s.nextValue :: ps) t

def added (s t : State) : List Instr := t.program.instrs.toList.drop s.program.instrs.size

variable {source : Source.Program} {s u w t : State} {ps qs : List Piece} {Q : Operation → Bool} {bitSize width : UInt8}
  {id : IntrinsicId} {op : Operation} {rs params : List Rvalue} {vs : List ValueId} {call : Call} {image : ImageType}
  {v : ValueId}

/-- The instructions that were added and are in `Q` are those of the list. -/
def AddsOnly (Q : Operation → Bool) (s t : State) (is : List Instr) : Prop :=
  ∃ more, t.program.instrs.toList = s.program.instrs.toList ++ more ∧
    more.filter (fun i => Q i.operation) = is.filter fun i => Q i.operation

namespace AddsOnly
variable {is : List Instr}

theorem behind (h : Adds Operation.evaluates s u) (apart : ∀ op, op.evaluates = true → Q op = false)
    (rest : AddsOnly Q u t is) : AddsOnly Q s t is := by
  obtain ⟨⟨first, before, evaluated⟩, -⟩ := h
  obtain ⟨more, after, same⟩ := rest
  have none : first.filter (fun i => Q i.operation) = [] := by
    rw [List.filter_eq_nil_iff]
    intro i member
    rw [apart _ (evaluated i member)]
    exact Bool.false_ne_true
  exact ⟨first ++ more, by rw [after, before, List.append_assoc],
    by rw [List.filter_append, none, same, List.nil_append]⟩

theorem cons {i : Instr} (pushed : u.program.instrs = s.program.instrs.push i) (rest : AddsOnly Q u t is) :
    AddsOnly Q s t (i :: is) := by
  obtain ⟨more, after, same⟩ := rest
  refine ⟨i :: more, by rw [after, pushed, Array.toList_push, List.append_assoc, List.singleton_append], ?_⟩
  rw [List.filter_cons, List.filter_cons, same]

theorem filter_added (h : AddsOnly Q s t is) :
    (added s t).filter (fun i => Q i.operation) = is.filter fun i => Q i.operation := by
  obtain ⟨more, after, same⟩ := h
  rw [added, after, List.drop_append_of_le_length (Nat.le_of_eq Array.length_toList.symm),
    List.drop_eq_nil_of_le (Nat.le_of_eq Array.length_toList), List.nil_append, same]

end AddsOnly

namespace Trace

theorem append (h : Trace source s ps u) (h' : Trace source u qs t) : Trace source s (ps ++ qs) t := by
  induction h with
  | done => exact h'
  | location run _ ih => exact .location run (ih h')
  | value run _ ih => exact .value run (ih h')
  | target run _ ih => exact .target run (ih h')
  | effect _ ih => exact .effect (ih h')
  | define _ ih => exact .define (ih h')

theorem addsOnly (h : Trace source s ps t) (apart : ∀ op, op.evaluates = true → Q op = false) :
    AddsOnly Q s t (own ps) := by
  induction h with
  | done => exact ⟨[], by simp, rfl⟩
  | location run _ ih => exact ih.behind ((evaluates_locationChain source _).adding.adds run) apart
  | value run _ ih => exact ih.behind ((evaluates_evaluate source _).adding.adds run) apart
  | target run _ ih => exact ih.behind ((evaluates_placeChain source _).adding.adds run) apart
  | effect _ ih => exact ih.cons rfl
  | define _ ih => exact ih.cons rfl

theorem path (h : Trace source s ps t) : Path .value s t := by
  induction h with
  | done => exact .refl
  | location run _ ih => exact ((evaluates_locationChain source _).stepwise.path run).trans ih
  | value run _ ih => exact ((evaluates_evaluate source _).stepwise.path run).trans ih
  | target run _ ih => exact ((evaluates_placeChain source _).stepwise.path run).trans ih
  | effect _ ih => exact .head (.effect _) ih
  | define _ ih => exact .head (.value _ _ _) ih

theorem defines (h : Trace source s ps t) (fits : t.program.Fits) (member : .define op width bitSize v ∈ ps) :
    t.program.Defines v op width bitSize := by
  induction h with
  | done => cases member
  | location _ _ ih | value _ _ ih | target _ _ ih | effect _ ih =>
    exact ih fits ((List.mem_cons.mp member).resolve_left (by rintro ⟨⟩))
  | define rest ih =>
    obtain same | later := List.mem_cons.mp member
    · cases same
      have kept := rest.path.keeps
      exact ⟨_, value?_nextValue fits.values kept.values, rfl, rfl, (emits_value ..).instr? kept.instrs fits⟩
    · exact ih fits later

end Trace

def valuePieces (rs : List Rvalue) (vs : List ValueId) : List Piece := rs.zipWith .value vs

theorem evaluateAll_trace (run : Runs (evaluateAll source rs) s vs t) : Trace source s (valuePieces rs vs) t := by
  induction rs generalizing s vs with
  | nil =>
    obtain ⟨rfl, rfl⟩ := runs_evaluateAll_nil.mp run
    exact .done
  | cons r rs ih =>
    obtain ⟨v, u, vs, first, rest, rfl⟩ := runs_evaluateAll_cons.mp run
    exact .value first (ih rest)

theorem passed_valuePieces (length : vs.length = rs.length) :
    (passed (valuePieces rs vs)).map Prod.fst = rs.map (·, Role.value) ∧
      (passed (valuePieces rs vs)).map Prod.snd = vs.map Src.ssa := by
  induction rs generalizing vs with
  | nil =>
    obtain rfl := List.eq_nil_of_length_eq_zero length
    exact ⟨rfl, rfl⟩
  | cons r rs ih =>
    obtain ⟨v, vs, rfl⟩ := List.exists_cons_of_length_eq_add_one length
    obtain ⟨kinds, srcs⟩ := ih (Nat.succ.inj length)
    exact ⟨congrArg _ kinds, congrArg _ srcs⟩

theorem mem_valuePieces {p : Piece} (member : p ∈ valuePieces rs vs) : ∃ r v, p = .value r v := by
  obtain ⟨i, found⟩ := List.mem_iff_getElem?.mp member
  simp only [valuePieces, List.getElem?_zipWith_eq_some] at found
  obtain ⟨r, v, -, -, rfl⟩ := found
  exact ⟨r, v, rfl⟩

theorem isSome_valuePieces : ∀ p ∈ valuePieces rs vs, p.passed?.isSome = true := by
  intro p member
  obtain ⟨r, v, rfl⟩ := mem_valuePieces member
  rfl

theorem own_valuePieces : own (valuePieces rs vs) = [] := by
  rw [own, List.filterMap_eq_nil_iff]
  intro p member
  obtain ⟨r, v, rfl⟩ := mem_valuePieces member
  rfl

/-! ### Emission -/

/-- The piece helps with an operand or a result: it computes a value. -/
def Piece.Helps (p : Piece) : Prop :=
  ∃ op width bitSize v, p = .define op width bitSize v ∧ op.computes = true

section
variable {op : IntrinsicOp} {srcs : List Src} {indices : Indices} {value : Option ValueId}

theorem emitResult_piece (source : Source.Program) (run : Runs (emitResult op srcs indices width bitSize) s value t) :
    ∃ main : Piece, main.instr? = some ⟨.intrinsic op srcs indices, value⟩ ∧ Trace source s [main] t := by
  simp only [emitResult, runs_bind, runs_pure] at run
  obtain ⟨v, _, run, rfl, rfl⟩ := run
  obtain ⟨rfl, rfl, -⟩ := emitValue_ok run
  exact ⟨_, rfl, .define .done⟩

theorem emitNoResult_piece (source : Source.Program) (run : Runs (emitNoResult op srcs indices) s value t) :
    ∃ main : Piece, main.instr? = some ⟨.intrinsic op srcs indices, value⟩ ∧ Trace source s [main] t := by
  simp only [emitNoResult, runs_bind, runs_pure] at run
  obtain ⟨_, _, run, rfl, rfl⟩ := run
  obtain rfl := emitEffect_ok run
  exact ⟨_, rfl, .effect .done⟩

end

/-- The pieces behind an instruction hand on its result as it is or, where that is a raw boolean, the test of it. -/
inductive HandsOn (before : List Piece) : Bool → Option ValueId → List Piece → Option ValueId → Prop where
  | same {result : Option ValueId} : HandsOn before false result [] result
  | test {raw zero v : ValueId} {width : UInt8} (isZero : .define (.loadConst 32 [0]) 1 32 zero ∈ before) :
      HandsOn before true (some raw) [.define (.alu .ine [.broadcast raw width, ⟨zero, .all 0⟩]) width 32 v] (some v)

namespace HandsOn
variable {before late : List Piece} {raw : Bool} {dest value : Option ValueId}

theorem helps (h : HandsOn before raw dest late value) : ∀ p ∈ late, p.Helps := by
  cases h with
  | same => simp
  | test _ => exact List.forall_mem_singleton.mpr ⟨_, _, _, _, rfl, rfl⟩

theorem behind (h : HandsOn before raw dest late value) (first : List Piece) :
    HandsOn (first ++ before) raw dest late value := by
  cases h with
  | same => exact .same
  | test isZero => exact .test (List.mem_append_right _ isZero)

end HandsOn

theorem emitLoad_pieces (source : Source.Program) {raw : Bool} (run : Runs (emitLoad raw op width bitSize) s v t) :
    ∃ early main late x, (∀ p ∈ early, p.Helps) ∧ main = .define op width bitSize x ∧
      HandsOn early raw (some x) late (some v) ∧ Trace source s (early ++ main :: late) t := by
  unfold emitLoad at run
  split at run
  · rename_i tested
    obtain rfl := tested
    simp only [emitZero, nonzeroTest, runs_bind, runs_valueDef] at run
    obtain ⟨zero, _, zeroRun, x, _, loadRun, d, _, ⟨-, rfl⟩, testRun⟩ := run
    obtain ⟨rfl, rfl, -⟩ := emitValue_ok zeroRun
    obtain ⟨rfl, rfl, -⟩ := emitValue_ok loadRun
    obtain ⟨rfl, rfl, -⟩ := emitValue_ok testRun
    refine ⟨[_], _, [_], _, ?_, rfl, .test List.mem_cons_self, .define (.define (.define .done))⟩
    exact List.forall_mem_singleton.mpr ⟨_, _, _, _, rfl, rfl⟩
  · rename_i plain
    obtain rfl := eq_false_of_ne_true plain
    obtain ⟨rfl, rfl, -⟩ := emitValue_ok run
    exact ⟨[], _, [], _, by simp, rfl, .same, .define .done⟩

theorem passed_of_helps (h : ∀ p ∈ ps, p.Helps) : passed ps = [] := by
  rw [passed, List.filterMap_eq_nil_iff]
  intro p member
  obtain ⟨_, _, _, _, rfl, -⟩ := h p member
  rfl

/-! ### The operation of the catalogue -/

/-- The piece emits nothing but computations and stores to locations. -/
def Piece.Assists (p : Piece) : Prop :=
  ∀ i, p.instr? = some i →
    i.operation.computes = true ∨ ∃ srcs indices, i.operation = .intrinsic .storeDeref srcs indices

/-- The piece prepares an operation: it passes a parameter, or helps. -/
def Piece.Prepares (p : Piece) : Prop := p.passed?.isSome = true ∨ p.Helps

namespace Piece
variable {p : Piece}

theorem Helps.assists (h : p.Helps) : p.Assists := by
  obtain ⟨op, width, bitSize, v, rfl, computes⟩ := h
  rintro i ⟨⟩
  exact .inl computes

theorem Prepares.assists (h : p.Prepares) : p.Assists := by
  obtain passes | helps := h
  · intro i emitted
    cases p with
    | location r head | value r v | target place head => cases emitted
    | effect op | define op width bitSize v => cases passes
  · exact helps.assists

end Piece

variable {ops : List IntrinsicOp}

theorem isAny_of_computes (acts : ∀ op ∈ ops, Acts op) (computes : op.computes = true) : op.isAny ops = false := by
  cases op with
  | intrinsic op srcs indices => exact decide_eq_false fun member => (acts op member).1 computes
  | _ => rfl

theorem computes_of_evaluates (h : op.evaluates = true) : op.computes = true := by
  cases op <;> first | exact h | cases h

theorem filter_own_of_assists (acts : ∀ op ∈ ops, Acts op) (h : ∀ p ∈ ps, p.Assists) :
    (own ps).filter (fun i => i.operation.isAny ops) = [] := by
  rw [List.filter_eq_nil_iff]
  intro i member
  obtain ⟨p, there, emitted⟩ := List.mem_filterMap.mp member
  rw [Bool.not_eq_true]
  obtain computes | ⟨srcs, indices, store⟩ := h p there i emitted
  · exact isAny_of_computes acts computes
  · rw [store]
    exact decide_eq_false fun member => (acts _ member).2.2 rfl

theorem own_around {before after : List Piece} {main : Piece} {i : Instr} (isMain : main.instr? = some i) :
    own (before ++ main :: after) = own before ++ i :: own after := by
  rw [own_append, own, own, List.filterMap_cons_some isMain]
  rfl

theorem Trace.once {before after : List Piece} {main : Piece} (h : Trace source s (before ++ main :: after) t)
    (acts : ∀ op ∈ ops, Acts op) (early : ∀ p ∈ before, p.Prepares) (late : ∀ p ∈ after, p.Assists) {op : IntrinsicOp}
    {srcs : List Src} {indices : Indices} {dest : Option ValueId} (listed : op ∈ ops)
    (isMain : main.instr? = some ⟨.intrinsic op srcs indices, dest⟩) :
    (added s t).filter (fun i => i.operation.isAny ops) = [⟨.intrinsic op srcs indices, dest⟩] := by
  have all := (h.addsOnly fun _ evaluates => isAny_of_computes acts (computes_of_evaluates evaluates)).filter_added
  have early := fun p member => (early p member).assists
  rw [all, own_around isMain, List.filter_append, filter_own_of_assists acts early, List.nil_append,
    List.filter_cons_of_pos (by exact decide_eq_true listed), filter_own_of_assists acts late]

/-! ### Calls -/

/-- The value goes to the place of the result, if there is one, with all its components. -/
inductive Stores (p : Target.Program) : Option Place → Option ValueId → List Piece → Prop where
  | nowhere {value : Option ValueId} : Stores p none value []
  | place {place : Place} {head : LinkId} {v : ValueId} {d : ValueDef} {mask : UInt8} (found : p.value? v = some d)
      (full : fullMask d.width = .ok mask) : Stores p (some place) (some v) [.target place head,
        .effect (.intrinsic .storeDeref [.location head, .ssa v] { width := d.width, writeMask := some mask })]

theorem Stores.assists {p : Target.Program} {result : Option Place} {value : Option ValueId}
    (h : Stores p result value ps) : ∀ p ∈ ps, p.Assists := by
  intro p member
  cases h with
  | nowhere => cases member
  | place =>
    rcases List.mem_pair.mp member with rfl | rfl
    · rintro _ ⟨⟩
    · rintro _ ⟨⟩
      exact .inr ⟨_, _, rfl⟩

theorem length_roles (multisample : Bool) (recipe : Recipe) :
    (recipe.roles multisample).length = recipe.arity multisample := by
  cases recipe <;> cases multisample <;> simp [Recipe.roles, Recipe.arity] <;> omega

theorem imageParam?_cons {r : Rvalue} : imageParam? (r :: rs) = some image ↔ r.type.withoutArray = .image image := by
  cases type : r.type.withoutArray <;> simp [imageParam?, type]

theorem imageParam?_of_imageOf (h : imageOf id params = .ok image) : imageParam? params = some image := by
  cases params with
  | nil => cases h
  | cons r rest =>
    rw [imageParam?_cons]
    simp only [imageOf] at h
    split at h
    · rename_i named
      rw [named, Except.ok.inj h]
    · cases h

theorem length_of_expectedArity {recipe : Recipe} {expected : Nat} (h : expectedArity id recipe params = .ok expected) :
    (recipe.roles (multisampled params)).length = expected := by
  rw [length_roles]
  cases recipe with
  | image data =>
    cases named : imageOf id params with
    | error fault =>
      rw [expectedArity, named] at h
      cases h
    | ok image =>
      rw [expectedArity, named] at h
      rw [multisampled, imageParam?_of_imageOf named]
      exact Except.ok.inj h
  | _ => exact Except.ok.inj h

theorem lowerCall_intrinsic {signature : Signature} (found : source.signature? call.callee = some signature)
    (builtin : signature.intrinsic = some id) (run : Runs (lowerCall source call) s () t) :
    Runs (callIntrinsic source id call) s () t := by
  simp only [lowerCall, runs_bind, runs_check, getSignature_ok] at run
  obtain ⟨_, _, ⟨same, rfl⟩, run⟩ := run
  obtain rfl := Option.some.inj (found.symm.trans same)
  rwa [builtin] at run

/-- A call of a built-in function lays out its parameters and stores the result. -/
theorem callIntrinsic_pieces (run : Runs (callIntrinsic source id call) s () t) :
    ∃ op value w stores, chooseOp id (call.result.map Place.type) (ruleOf id).op = .ok op ∧
      call.parameters.length = ((ruleOf id).recipe.roles (multisampled call.parameters)).length ∧
      Runs (applyRecipe source id op (ruleOf id).recipe (call.result.map Place.type) call.parameters) s value w ∧
      Stores t.program call.result value stores ∧ Trace source w stores t := by
  simp only [callIntrinsic, runs_bind, runs_check] at run
  obtain ⟨op, _, ⟨chosen, rfl⟩, expected, _, ⟨arity, rfl⟩, _, _, ⟨counted, rfl⟩, value, w, laid, run⟩ := run
  have count : call.parameters.length = expected := by
    unfold checkArity at counted
    split at counted
    · assumption
    · cases counted
  rw [← length_of_expectedArity arity] at count
  split at run
  · rename_i nowhere
    obtain ⟨-, rfl⟩ := runs_pure.mp run
    exact ⟨op, _, _, [], chosen, count, laid, nowhere ▸ .nowhere, .done⟩
  · exact (runs_abort run).elim
  · rename_i place v target
    simp only [runs_bind, runs_valueDef, runs_check] at run
    obtain ⟨chain, x, chainRun, d, _, ⟨found, rfl⟩, mask, _, ⟨full, rfl⟩, run⟩ := run
    obtain ⟨d', again, rfl⟩ := storeLocation_emits run
    obtain rfl := Option.some.inj (found.symm.trans again)
    exact ⟨op, some v, w, _, chosen, count, laid, target ▸ .place found full, .target chainRun (.effect .done)⟩

theorem runs_unit_of_isOk {m : Lower Unit} (h : (outcome m s).1.isOk = true) : Runs m s () (outcome m s).2 := by
  obtain ⟨_, run⟩ := runs_of_isOk h
  exact run

end Lowering

end ShaderSSA
