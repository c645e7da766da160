import ShaderSSA.Proofs.Images

/-!
How a call of a built-in function is lowered: its one instruction is the operation that the catalogue names, and the
sources of that are the parameters, laid out by the recipe.
-/

namespace ShaderSSA.Lowering
open Source Target Lower

variable {source : Source.Program} {s u t : State} {call : Call} {rest : List Rvalue}

/-! ### The instruction of a call -/

/-- The instruction of a built-in function, and the pieces before and behind it. -/
structure Emission where
  before : List Piece
  main : Piece
  op : IntrinsicOp
  srcs : List Src
  indices : Indices
  dest : Option ValueId
  after : List Piece

namespace Emission

def instr (e : Emission) : Instr := ⟨.intrinsic e.op e.srcs e.indices, e.dest⟩

def pieces (e : Emission) : List Piece := e.before ++ e.main :: e.after

def given (e : Emission) : List Src := (passed e.before).map Prod.snd

end Emission

/-- The sources of an access to an image: the coordinate is made wide, and where there is no sample the padding stands
for it. -/
def Emission.AccessesImage (e : Emission) (image : ImageType) : Prop :=
  ∃ (target : Src) (coordinate wide padding : ValueId) (rest : List Src) (lanes : List AluSrc) (bitSize : UInt8),
    e.given = target :: .ssa coordinate :: rest ∧
    .define .undef 1 32 padding ∈ e.before ∧ .define (.alu .vec4 lanes) 4 bitSize wide ∈ e.before ∧
    Widened coordinate image.coordinateComponents padding lanes ∧
    e.srcs = target :: .ssa wide :: if image.dim = .ms then rest else .ssa padding :: rest

/-- The order of the sources. A store has the data in front; all else is passed in the order of the parameters. -/
def Emission.Arranges (e : Emission) (recipe : Recipe) (params : List Rvalue) : Prop :=
  match recipe with
  | .ssboStore | .sharedStore => ∃ address data, e.given = address ++ [data] ∧ e.srcs = data :: address
  | .image _ => ∃ image, imageParam? params = some image ∧ e.AccessesImage image
  | _ => e.srcs = e.given

/-- A store has the low byte of its last parameter as mask; nothing else has one. -/
def Emission.Masks (e : Emission) (recipe : Recipe) (params : List Rvalue) : Prop :=
  match recipe with
  | .ssboStore | .sharedStore => ∃ r word mask, params.getLast? = some r ∧ r.word? = some word ∧
      e.indices.writeMask = some mask ∧ mask.toNat = word.toNat % 256
  | _ => e.indices.writeMask = none

/-- The parameters that are located or evaluated, in order. -/
def Recipe.operands (recipe : Recipe) (params : List Rvalue) : List (Rvalue × Role) :=
  (params.zip (recipe.roles (multisampled params))).filter fun x => x.2 ≠ .mask

/-- The parameters are laid out by the recipe. -/
structure Emission.Lays (e : Emission) (recipe : Recipe) (params : List Rvalue) : Prop where
  main : e.main.instr? = some e.instr
  operands : (passed e.before).map Prod.fst = recipe.operands params
  before : ∀ p ∈ e.before, p.Prepares
  arranges : e.Arranges recipe params
  masks : e.Masks recipe params

/-- What the operation gives for a result of the type is a raw boolean. -/
def Recipe.isRaw (recipe : Recipe) (type : Option ShaderType) : Bool :=
  match recipe with
  | .ssboLoad => type.any ShaderType.isBoolean
  | _ => false

/-- An emission that is laid out by the recipe leads from one state to the other and hands on the value. -/
def LaysOut (source : Source.Program) (op : IntrinsicOp) (recipe : Recipe) (type : Option ShaderType)
    (params : List Rvalue) (s : State) (value : Option ValueId) (t : State) : Prop :=
  ∃ e : Emission, e.op = op ∧ Trace source s e.pieces t ∧
    HandsOn e.before (recipe.isRaw type) e.dest e.after value ∧ e.Lays recipe params

/-! ### Layouts -/

section
variable {op : IntrinsicOp} {recipe : Recipe} {params : List Rvalue} {dest value : Option ValueId} {main : Piece}
  {type : Option ShaderType} {srcs : List Src} {indices : Indices} {id : IntrinsicId}

theorem lays_of_inputs {inputs : List Piece} (early late : List Piece) (first : Trace source s inputs u)
    (all : ∀ p ∈ inputs, p.passed?.isSome = true)
    (operands : (passed inputs).map Prod.fst = recipe.operands params)
    (helpers : ∀ p ∈ early, p.Helps) (hands : HandsOn early (recipe.isRaw type) dest late value)
    (rest : Trace source u (early ++ main :: late) t)
    (isMain : main.instr? = some ⟨.intrinsic op srcs indices, dest⟩)
    (arranges : ∀ e : Emission, e.given = (passed inputs).map Prod.snd → e.srcs = srcs → e.Arranges recipe params)
    (masks : ∀ e : Emission, e.indices = indices → e.Masks recipe params) :
    LaysOut source op recipe type params s value t := by
  have before : passed (inputs ++ early) = passed inputs := by
    rw [passed_append, passed_of_helps helpers, List.append_nil]
  refine ⟨⟨inputs ++ early, main, op, srcs, indices, dest, late⟩, rfl, ?_, hands.behind inputs, isMain, ?_, ?_, ?_,
    masks _ rfl⟩
  · have whole := first.append rest
    rwa [← List.append_assoc] at whole
  · rw [before]
    exact operands
  · intro p member
    rcases List.mem_append.mp member with member | member
    · exact .inl (all p member)
    · exact .inr (helpers p member)
  · exact arranges _ (congrArg _ before) rfl

theorem filter_values (rs : List Rvalue) :
    (rs.zip (List.replicate rs.length Role.value)).filter (fun x => x.2 ≠ .mask) = rs.map (·, .value) := by
  induction rs with
  | nil => rfl
  | cons r rs ih =>
    rw [List.length_cons, List.replicate_succ, List.zip_cons_cons, List.filter_cons_of_pos (by simp), ih, List.map_cons]

theorem Emission.plain_of_values {recipe : Recipe} {multisample : Bool}
    (values : ∀ role ∈ recipe.roles multisample, role = .value) (e : Emission) (params : List Rvalue) :
    (e.Arranges recipe params ↔ e.srcs = e.given) ∧ (e.Masks recipe params ↔ e.indices.writeMask = none) := by
  cases recipe with
  | image data => cases values .location (by simp [Recipe.roles])
  | ssboStore | sharedStore => cases values .mask (by simp [Recipe.roles])
  | _ => exact ⟨.rfl, .rfl⟩

theorem lays_of_values {vs : List ValueId} (early late : List Piece)
    (values : ∀ role ∈ recipe.roles (multisampled params), role = .value)
    (arity : params.length = (recipe.roles (multisampled params)).length)
    (first : Runs (evaluateAll source params) s vs u)
    (helpers : ∀ p ∈ early, p.Helps) (hands : HandsOn early (recipe.isRaw type) dest late value)
    (rest : Trace source u (early ++ main :: late) t)
    (isMain : main.instr? = some ⟨.intrinsic op (vs.map .ssa) indices, dest⟩)
    (unmasked : indices.writeMask = none) :
    LaysOut source op recipe type params s value t := by
  have trace := evaluateAll_trace first
  obtain ⟨kinds, srcs⟩ := passed_valuePieces (length_evaluateAll first)
  refine lays_of_inputs early late trace isSome_valuePieces ?_ helpers hands rest isMain
    (fun e given same => ?_) fun e same => ?_
  · rw [kinds, Recipe.operands, List.eq_replicate_of_mem values, ← arity, filter_values]
  · exact (e.plain_of_values values params).1.mpr (by rw [given, same, srcs])
  · exact (e.plain_of_values values params).2.mpr (by rw [same, unmasked])

theorem lays_of_image {image : ImageType} {target coordinate : Rvalue} {data : Nat} {a : ImageScript}
    (isImage : imageParam? (target :: coordinate :: rest) = some image)
    (count : rest.length = (multisampled (target :: coordinate :: rest)).toNat + data)
    (h : a.Of source op image target coordinate rest value s t) :
    LaysOut source op (.image data) type (target :: coordinate :: rest) s value t := by
  obtain ⟨kinds, srcs⟩ := passed_valuePieces h.length
  obtain ⟨isUndefined, isWide⟩ := h.mem_before
  refine ⟨⟨a.before target coordinate rest, a.main, op, a.srcs image, {}, value, []⟩, rfl, h.trace, .same, h.main,
    ?_, h.prepares, ⟨image, isImage, .location a.head, a.coordinate, a.wide, a.padding, a.rest.map .ssa, a.lanes,
      a.shape.bitSize, ?_, isUndefined, isWide, h.widened, rfl⟩, rfl⟩
  · rw [h.passed_before, List.map_cons, List.map_cons, kinds, Recipe.operands, Recipe.roles, ← count,
      List.zip_cons_cons, List.zip_cons_cons, List.filter_cons_of_pos (by simp), List.filter_cons_of_pos (by simp),
      filter_values]
  · rw [Emission.given, h.passed_before, List.map_cons, List.map_cons, srcs]

theorem lays_of_store {base : Option Int32} {address : List Rvalue} {stored mask : Rvalue}
    (run : Runs (memoryStore source id op base address stored mask) s value t) (plain : recipe.isRaw type = false)
    (operands : recipe.operands params = (address ++ [stored]).map (·, .value)) (last : params.getLast? = some mask)
    (arranges : ∀ e : Emission, (∃ front data, e.given = front ++ [data] ∧ e.srcs = data :: front) →
      e.Arranges recipe params)
    (masks : ∀ e : Emission, (∃ r word mask, params.getLast? = some r ∧ r.word? = some word ∧
      e.indices.writeMask = some mask ∧ mask.toNat = word.toNat % 256) → e.Masks recipe params) :
    LaysOut source op recipe type params s value t := by
  simp only [memoryStore, runs_bind, runs_check, runs_valueDef] at run
  obtain ⟨_, u, listed, v, w, storedRun, m, _, ⟨immediate, rfl⟩, d, _, ⟨-, rfl⟩, run⟩ := run
  obtain ⟨vs, addressRun, rfl⟩ := valueSources_ok listed
  obtain ⟨main, isMain, emitted⟩ := emitNoResult_piece source run
  have trace := evaluateAll_trace addressRun
  obtain ⟨kinds, srcs⟩ := passed_valuePieces (length_evaluateAll addressRun)
  have all : passed (valuePieces address vs ++ [.value stored v]) =
      passed (valuePieces address vs) ++ [((stored, .value), .ssa v)] := by
    rw [passed_append]
    rfl
  refine lays_of_inputs [] [] (trace.append (.value storedRun .done)) ?_ ?_ (by simp) (plain ▸ .same) emitted isMain
    ?_ ?_
  · intro p member
    rcases List.mem_append.mp member with member | member
    · exact isSome_valuePieces p member
    · obtain rfl := List.mem_singleton.mp member
      rfl
  · rw [all, List.map_append, kinds, operands, List.map_append]
    rfl
  · intro e given same
    refine arranges e ⟨vs.map .ssa, .ssa v, ?_, same⟩
    rw [given, all, List.map_append, srcs]
    rfl
  · intro e same
    obtain ⟨word, found, rfl⟩ : ∃ word, mask.word? = some word ∧ m = word.toUInt8 := by
      unfold immediateMask at immediate
      split at immediate
      · rename_i word found
        exact ⟨word, found, (Except.ok.inj immediate).symm⟩
      · cases immediate
    exact masks e ⟨mask, word, word.toUInt8, last, found, by rw [same], UInt32.toNat_toUInt8 word⟩

theorem lays_of_sources {width bitSize : UInt8}
    (values : ∀ role ∈ recipe.roles (multisampled params), role = .value)
    (arity : params.length = (recipe.roles (multisampled params)).length)
    (first : Runs (valueSources source params) s srcs u)
    (run : Runs (emitResult op srcs indices width bitSize) u value t) (plain : recipe.isRaw type = false)
    (unmasked : indices.writeMask = none) :
    LaysOut source op recipe type params s value t := by
  obtain ⟨vs, evaluated, rfl⟩ := valueSources_ok first
  obtain ⟨main, isMain, emitted⟩ := emitResult_piece source run
  exact lays_of_values [] [] values arity evaluated (by simp) (plain ▸ .same) emitted isMain unmasked

theorem lays_of_read {r : Rvalue} (values : ∀ role ∈ recipe.roles (multisampled (r :: rest)), role = .value)
    (arity : (r :: rest).length = (recipe.roles (multisampled (r :: rest))).length)
    (run : Runs (do
      let value ← evaluate source r
      let rest ← valueSources source rest
      let shape ← valueDef value
      emitResult op (.ssa value :: rest) { width := shape.width } shape.width shape.bitSize) s value t)
    (plain : recipe.isRaw type = false) :
    LaysOut source op recipe type (r :: rest) s value t := by
  simp only [runs_bind, runs_valueDef] at run
  obtain ⟨v, u, valueRun, _, _, listed, shape, w, ⟨-, rfl⟩, run⟩ := run
  obtain ⟨vs, restRun, rfl⟩ := valueSources_ok listed
  obtain ⟨main, isMain, emitted⟩ := emitResult_piece source run
  have evaluated : Runs (evaluateAll source (r :: rest)) s (v :: vs) w :=
    runs_evaluateAll_cons.mpr ⟨v, u, vs, valueRun, restRun, rfl⟩
  exact lays_of_values [] [] values arity evaluated (by simp) (plain ▸ .same) emitted isMain rfl

/-- Whatever the recipe, the parameters are laid out by it. -/
theorem applyRecipe_lays (arity : params.length = (recipe.roles (multisampled params)).length)
    (run : Runs (applyRecipe source id op recipe type params) s value t) :
    LaysOut source op recipe type params s value t := by
  unfold applyRecipe at run
  split at run
  case h_7 | h_10 => exact lays_of_store run rfl rfl rfl (fun _ order => order) fun _ mask => mask
  case h_8 | h_9 | h_11 =>
    simp only [runs_bind, runs_check] at run
    obtain ⟨_, u, first, type, _, ⟨-, rfl⟩, run⟩ := run
    exact lays_of_sources (by simp [Recipe.roles]) arity first run rfl rfl
  case h_12 | h_13 =>
    obtain ⟨_, u, first, run⟩ := runs_bind.mp run
    exact lays_of_sources (by simp [Recipe.roles]) arity first run rfl rfl
  case h_14 | h_15 => exact lays_of_read (by simp [Recipe.roles]) arity run rfl
  · rename_i extra counter data
    simp only [runs_bind] at run
    obtain ⟨chain, u, chainRun, _, w, listed, run⟩ := run
    obtain ⟨vs, dataRun, rfl⟩ := valueSources_ok listed
    obtain ⟨main, isMain, emitted⟩ := emitResult_piece source run
    have trace := evaluateAll_trace dataRun
    obtain ⟨kinds, srcs⟩ := passed_valuePieces (length_evaluateAll dataRun)
    refine lays_of_inputs [] [] (.location chainRun trace) ?_ ?_ (by simp) .same emitted isMain ?_ ?_
    · intro p member
      rcases List.mem_cons.mp member with rfl | member
      · rfl
      · exact isSome_valuePieces p member
    · have count : data.length = extra := by simpa [Recipe.roles] using arity
      rw [Recipe.operands, Recipe.roles, ← count, List.zip_cons_cons, List.filter_cons_of_pos (by simp), filter_values,
        ← kinds]
      rfl
    · intro e given same
      refine same.trans (Eq.trans ?_ given.symm)
      rw [← srcs]
      rfl
    · exact fun e same => congrArg Indices.writeMask same
  · rename_i data
    have access : Runs (applyRecipe source id op (.image data) type params) s value t := run
    obtain ⟨target, coordinate, rest, image, a, rfl, named, count, script⟩ := applyRecipe_script arity access
    exact lays_of_image named count script
  · rename_i image rest
    simp only [runs_bind, runs_check] at run
    obtain ⟨chain, u, chainRun, _, _, ⟨-, rfl⟩, run⟩ := run
    obtain ⟨main, isMain, emitted⟩ := emitResult_piece source run
    obtain rfl := List.eq_nil_of_length_eq_zero (Nat.succ.inj arity)
    exact lays_of_inputs [] [] (.location chainRun .done) (by simp [Piece.passed?]) rfl (by simp) .same emitted isMain
      (fun e given same => same.trans given.symm) fun e same => congrArg Indices.writeMask same
  · obtain rfl := List.eq_nil_of_length_eq_zero arity
    obtain ⟨main, isMain, emitted⟩ := emitNoResult_piece source run
    exact lays_of_values [] [] (by simp [Recipe.roles]) arity (runs_pure.mpr ⟨rfl, rfl⟩) (by simp) .same emitted isMain
      rfl
  · obtain rfl := List.eq_nil_of_length_eq_zero arity
    obtain ⟨main, isMain, emitted⟩ := emitResult_piece source run
    exact lays_of_values [] [] (by simp [Recipe.roles]) arity (runs_pure.mpr ⟨rfl, rfl⟩) (by simp) .same emitted isMain
      rfl
  · simp only [runs_bind, runs_check, runs_pure, runs_nativeIntegers] at run
    obtain ⟨result, _, ⟨typed, rfl⟩, _, _, listed, _, _, ⟨rfl, rfl⟩, v, _, loadRun, rfl, rfl⟩ := run
    obtain rfl : type = some result := by cases type <;> cases typed; rfl
    obtain ⟨vs, evaluated, rfl⟩ := valueSources_ok listed
    obtain ⟨early, _, late, x, helpers, rfl, hands, loaded⟩ := emitLoad_pieces source loadRun
    exact lays_of_values early late (by simp [Recipe.roles]) arity evaluated helpers hands loaded rfl rfl
  · exact (runs_abort run).elim

end

/-! ### Calls -/

/-- The operation that is chosen for a place of the result. -/
def OpChoice.Names (choice : OpChoice) (result : Option Place) (op : IntrinsicOp) : Prop :=
  match choice with
  | .fixed only => op = only
  | .bySignedness signed unsigned => ∃ place base, result = some place ∧ place.type.baseType? = some base ∧
      (op = signed ↔ base.isSignedInt = true) ∧ (op = unsigned ↔ base.isSignedInt = false)

/-- The choice is between two operations. -/
def OpChoice.Differs : OpChoice → Prop
  | .fixed _ => True
  | .bySignedness signed unsigned => signed ≠ unsigned

theorem ruleOf_differs (id : IntrinsicId) : (ruleOf id).op.Differs := by
  cases id <;> simp [ruleOf, OpChoice.Differs]

theorem chooseOp_names {id : IntrinsicId} {result : Option Place} {choice : OpChoice} {op : IntrinsicOp}
    (differs : choice.Differs) (h : chooseOp id (result.map Place.type) choice = .ok op) : choice.Names result op := by
  cases choice with
  | fixed only => exact (Except.ok.inj h).symm
  | bySignedness signed unsigned =>
    simp only [chooseOp] at h
    split at h
    · rename_i base typed
      obtain ⟨_, shown, typed⟩ := Option.bind_eq_some_iff.mp typed
      obtain ⟨place, there, rfl⟩ := Option.map_eq_some_iff.mp shown
      obtain rfl := Except.ok.inj h
      refine ⟨place, base, there, typed, ?_⟩
      cases base.isSignedInt with
      | true => exact ⟨iff_of_true rfl rfl, iff_of_false differs Bool.noConfusion⟩
      | false => exact ⟨iff_of_false differs.symm Bool.noConfusion, iff_of_true rfl rfl⟩
    · cases h

/-- How a call of a built-in function passes its parameters: all that is emitted beside the one operation of the
catalogue are computations and the store of what the operation hands on. -/
structure Emission.Marshals (e : Emission) (source : Source.Program) (id : IntrinsicId) (call : Call) (s t : State) :
    Prop extends e.Lays (ruleOf id).recipe call.parameters where
  trace : Trace source s e.pieces t
  count : call.parameters.length = ((ruleOf id).recipe.roles (multisampled call.parameters)).length
  after : ∃ late stores value, e.after = late ++ stores ∧
    HandsOn e.before ((ruleOf id).recipe.isRaw (call.result.map Place.type)) e.dest late value ∧
    Stores t.program call.result value stores
  once : (added s t).filter (fun i => i.operation.isAny (ruleOf id).op.ops) = [e.instr]
  chosen : (ruleOf id).op.Names call.result e.op

theorem callIntrinsic_marshals {id : IntrinsicId} (run : Runs (callIntrinsic source id call) s () t) :
    ∃ e : Emission, e.Marshals source id call s t := by
  obtain ⟨_, value, w, stores, chosen, arity, laid, stored, behind⟩ := callIntrinsic_pieces run
  obtain ⟨e, rfl, first, hands, lays⟩ := applyRecipe_lays arity laid
  have trace : Trace source s (e.before ++ e.main :: (e.after ++ stores)) t := by
    have whole := first.append behind
    rwa [Emission.pieces, List.append_assoc] at whole
  have late : ∀ p ∈ e.after ++ stores, p.Assists := fun p member =>
    (List.mem_append.mp member).elim (fun member => (hands.helps p member).assists) (stored.assists p)
  exact ⟨{ e with after := e.after ++ stores }, {
    main := lays.main
    operands := lays.operands
    before := lays.before
    arranges := lays.arranges
    masks := lays.masks
    trace
    count := arity
    after := ⟨e.after, stores, value, rfl, hands, stored⟩
    once := trace.once (ruleOf_acts id) lays.before late (chooseOp_mem chosen) lays.main
    chosen := chooseOp_names (ruleOf_differs id) chosen }⟩

/-- A call of a built-in function has the parameters that its recipe takes. From left to right each of them is located
or evaluated once, but for a mask. Then the one operation of the catalogue is emitted, signed if that is decided by
a signed result, with these as sources in the order of the recipe. Its result, or the test of it for a raw boolean, is
stored with all components where the call has a place for it. -/
theorem lowerCall_marshals {call : Call} {signature : Signature} {id : IntrinsicId}
    (found : source.signature? call.callee = some signature) (builtin : signature.intrinsic = some id)
    (run : Runs (lowerCall source call) s () t) : ∃ e : Emission, e.Marshals source id call s t :=
  callIntrinsic_marshals (lowerCall_intrinsic found builtin run)

namespace Ledger

def slot : Rvalue := .place (.var ⟨1⟩ (.scalar .uint))

def post : Source.Call where
  callee := ⟨0⟩
  parameters := [slot, slot, slot, .constant (.uint 0x10f)]
  result := none

def least : Source.Call where
  callee := ⟨1⟩
  parameters := [slot, slot]
  result := some (.var ⟨0⟩ (.scalar .int))

def program : Source.Program where
  name := "ledger"
  layout := .fragment false .none false
  vars := #[
    { name := "balance", type := .scalar .int, mode := .shaderOut },
    { name := "slot", type := .scalar .uint, mode := .uniform }]
  signatures := #[
    { name := "post", returnType := .void, parameters := [], body := [], isDefined := false,
      intrinsic := some .ssboStore },
    { name := "least", returnType := .scalar .int, parameters := [], body := [], isDefined := false,
      intrinsic := some .sharedAtomicMin }]

def declared : State := (outcome (do let _ ← declare program ⟨0⟩; declare program ⟨1⟩) (.initial program {})).2

def after (call : Source.Call) : State := (outcome (lowerCall program call) declared).2

end Ledger

theorem lowerCall_marshals_ledger :
    (Runs (lowerCall Ledger.program Ledger.post) Ledger.declared () (Ledger.after Ledger.post) ∧
      ∃ e : Emission, (passed e.before).map Prod.fst = List.replicate 3 (Ledger.slot, .value) ∧
        (added Ledger.declared (Ledger.after Ledger.post)).filter (fun i => i.operation.isAny [.storeSsbo]) =
          [e.instr] ∧
        (∃ address data, e.given = address ++ [data] ∧ e.srcs = data :: address) ∧ e.indices.writeMask = some 0x0f) ∧
    Runs (lowerCall Ledger.program Ledger.least) Ledger.declared () (Ledger.after Ledger.least) ∧
      ∃ e : Emission, (added Ledger.declared (Ledger.after Ledger.least)).filter
          (fun i => i.operation.isAny [.sharedAtomicImin, .sharedAtomicUmin]) = [e.instr] ∧
        e.op = .sharedAtomicImin ∧ e.srcs = e.given ∧
        Stores (Ledger.after Ledger.least).program Ledger.least.result e.dest e.after := by
  constructor
  · have run : Runs _ _ () (Ledger.after Ledger.post) := runs_unit_of_isOk (by decide +kernel)
    obtain ⟨e, marshals⟩ := lowerCall_marshals rfl rfl run
    obtain ⟨_, _, mask, ⟨⟩, ⟨⟩, writeMask, low⟩ := marshals.masks
    refine ⟨run, e, marshals.operands, marshals.once, marshals.arranges, ?_⟩
    rw [writeMask]
    exact congrArg some (UInt8.toNat.inj low)
  · have run : Runs _ _ () (Ledger.after Ledger.least) := runs_unit_of_isOk (by decide +kernel)
    obtain ⟨e, marshals⟩ := lowerCall_marshals rfl rfl run
    obtain ⟨_, _, ⟨⟩, ⟨⟩, signed, -⟩ := marshals.chosen
    obtain ⟨late, stores, value, split, hands, stored⟩ := marshals.after
    have plain : HandsOn e.before false e.dest late value := hands
    cases plain
    exact ⟨run, e, marshals.once, signed.mpr rfl, marshals.arranges, split ▸ stored⟩

end ShaderSSA.Lowering
