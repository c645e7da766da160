import ShaderSSA.Proofs.Chains

/-!
Calls, statements and whole programs keep every ledger: they hand each chain to one instruction, and what they make
is what the source lists.
-/

namespace ShaderSSA.Lowering
open Source Target Lower

variable {source : Source.Program} {L : Ledger source} {f : Option FuncId} {more done : List Product}
  {takes : List Held} {s u t : State} {call : Source.Call} {id : IntrinsicId} {p : Target.Program}
  {params : List Rvalue} {result : Option ShaderType} {value : Rvalue} {condition : Option Rvalue}
  {coordinate : ValueId}

/-! ### Calls -/

theorem locationChain_builds {r : Rvalue} (typed : L.fine → r.varsTyped source = true) :
    ∃ w b, Builds L f (r.locationProducts source f) (locationChain source r) (⟨·, w, b⟩) := by
  cases r with
  | place p =>
    simp only [Rvalue.varsTyped] at typed
    exact ⟨_, _, placeChain_builds source p typed⟩
  | constant l => exact ⟨_, _, builds_constantChain l⟩
  | expression op type operands | swizzle value lanes width | texture t => exact ⟨false, false, weaves_abort _ _⟩

section
variable {β : Type} {gives : β → List Held}

theorem weaves_locations {rs : List Rvalue} {g : List LinkId → Lower β} (typed : L.fine → allVarsTyped source rs = true)
    (hg : ∀ held : List Held, Weaves L f more (takes ++ held) (g (held.map Held.head)) gives) :
    Weaves L f (locationsProducts source f rs ++ more) takes (locations source rs >>= g) gives := by
  induction rs generalizing takes g with
  | nil =>
    simp only [locations, pure_bind]
    simpa [locationsProducts] using hg []
  | cons r rs ih =>
    simp only [allVarsTyped, Bool.and_eq_true, imp_and] at typed
    obtain ⟨w, b, built⟩ : ∃ w b, Builds L f _ _ (⟨·, w, b⟩) := locationChain_builds typed.1
    simp only [locations, bind_assoc, pure_bind, locationsProducts, List.append_assoc]
    refine weaves_chain built fun chain => ih typed.2 fun held => ?_
    rw [List.append_assoc]
    exact hg (⟨chain, w, b⟩ :: held)

theorem weaves_valueSources {g : List Src → Lower β} (typed : L.fine → allVarsTyped source params = true)
    (hg : ∀ values : List ValueId, Weaves L f more takes (g (values.map .ssa)) gives) :
    Weaves L f (productsOf source f params ++ more) takes (valueSources source params >>= g) gives := by
  simp only [valueSources, bind_assoc, pure_bind]
  exact weaves_next (evaluateAll_spends source params typed) hg

theorem weaves_valueSources_last {g : List Src → Lower β} (typed : L.fine → allVarsTyped source params = true)
    (hg : ∀ values : List ValueId, Weaves L f [] takes (g (values.map .ssa)) gives) :
    Weaves L f (productsOf source f params) takes (valueSources source params >>= g) gives := by
  simpa using weaves_valueSources typed hg

end

theorem spends_callFunction (typed : L.fine → call.varsTyped source = true) :
    Spends L f (locationsProducts source f call.parameters ++ resultProducts source f call.result) []
      (callFunction source call) := by
  simp only [Call.varsTyped, Bool.and_eq_true, imp_and] at typed
  refine weaves_quiet quiet_scope fun _ => weaves_quiet (quiet_check _) fun callee => ?_
  refine weaves_locations typed.1 fun params => ?_
  simp only [pure_bind]
  cases result : call.result with
  | none => exact spends_emitEffect (by simp [Operation.locations]) (by simp [Operation.destinations]) rfl
  | some place =>
    simp only [result, Option.all_some] at typed
    refine weaves_chain_last (placeChain_builds source place typed.2) fun chain => ?_
    exact spends_emitEffect (by simp [Operation.locations, Held.head]) (by simp [Operation.destinations, Held.head]) rfl

theorem quiet_emitUndef : Quiet L f emitUndef := spends_emitValue rfl rfl rfl 1 32

theorem coordinateLanes_reads {padding : ValueId} {d : ValueDef} {used : UInt8} (found : p.value? coordinate = some d)
    (enough : ¬ d.width < used) (op : AluOp) (width : UInt8) :
    ∀ src ∈ coordinateLanes coordinate used padding, Fetches p op width src := by
  intro src member
  obtain ⟨i, -, rfl⟩ := List.mem_map.mp member
  split
  · rename_i inside
    exact .channel found (UInt8.lt_of_lt_of_le inside (UInt8.not_lt.mp enough))
  · exact .first padding

theorem quiet_imageCoordinate (coordinate : ValueId) (used : UInt8) : Quiet L f (imageCoordinate coordinate used) := by
  refine spends_of_runs (by simp) fun {s v t done live} run fits carries => ?_
  rw [List.append_nil]
  simp only [imageCoordinate, runs_bind, runs_valueDef] at run
  obtain ⟨d, s, ⟨found, rfl⟩, run⟩ := run
  simp only [runs_unless] at run
  obtain ⟨enough, run⟩ := run
  split at run
  · simp only [runs_bind, runs_pure] at run
    obtain ⟨padding, u, paddingRun, _, _, run, -, rfl⟩ := run
    have before := quiet_emitUndef.keeps paddingRun (run.fits_before (by simp) fits) carries
    rw [List.append_nil] at before
    have path : Path .value s u := (stepwise_emitValue _ _ _).path paddingRun
    obtain ⟨-, rfl, -⟩ := emitValue_ok run
    exact before.compute (coordinateLanes_reads (path.keeps.values found) enough _ _) (fun _ => rfl) fits
  · simp only [runs_bind, runs_pure] at run
    obtain ⟨_, _, run, -, rfl⟩ := run
    obtain ⟨-, rfl, -⟩ := emitValue_ok run
    exact carries.compute (coordinateLanes_reads found enough _ _) (fun _ => rfl) fits

theorem location?_ssa (values : List ValueId) : (values.map Src.ssa).filterMap Src.location? = [] := by
  simp [Src.location?]

theorem Acts.destinations {op : IntrinsicOp} (acts : Acts op) (srcs : List Src) (indices : Indices) :
    (Operation.intrinsic op srcs indices).destinations = [] := by
  obtain ⟨-, copy, store⟩ := acts
  cases op <;> first | rfl | exact absurd rfl copy | exact absurd rfl store

section
variable {op : IntrinsicOp} (acts : Acts op)
include acts

section
variable {srcs : List Src} (names : srcs.filterMap Src.location? = takes.map Held.head)
include names

theorem spends_emitResult (indices : Indices) (width bitSize : UInt8) :
    Spends L f [] takes (emitResult op srcs indices width bitSize) := by
  refine spends_bind (spends_emitValue ?_ (acts.destinations _ _) rfl width bitSize) fun _ => quiet_pure _
  exact names

theorem spends_emitNoResult (indices : Indices) : Spends L f [] takes (emitNoResult op srcs indices) := by
  refine spends_bind (spends_emitEffect ?_ (by simp [acts.destinations]) rfl) fun _ => quiet_pure _
  exact names

end

theorem spends_imageOperation {data : List Rvalue} {held : Held} {sample : ValueId}
    (typed : L.fine → allVarsTyped source data = true) :
    Spends L f (productsOf source f data) [held] (do
      let srcs ← valueSources source data
      match result with
      | some type => emitResult op (.location held.head :: .ssa coordinate :: .ssa sample :: srcs) {} type.rows 32
      | none => emitNoResult op (.location held.head :: .ssa coordinate :: .ssa sample :: srcs) {}) := by
  refine weaves_valueSources_last typed fun data => ?_
  have names : (Src.location held.head :: .ssa coordinate :: .ssa sample :: data.map .ssa).filterMap Src.location? =
      [held.head] := congrArg (held.head :: ·) (location?_ssa data)
  split
  · exact spends_emitResult acts names _ _ _
  · exact spends_emitNoResult acts names _

theorem spends_imageAccess {image : ImageType} {target : Rvalue} {rest : List Rvalue}
    (typed : L.fine → allVarsTyped source (target :: rest) = true) :
    Spends L f (target.locationProducts source f ++ productsOf source f rest) []
      (imageAccess source id op image result (target :: rest)) := by
  cases rest with
  | nil => exact weaves_abort _ _
  | cons coordinate rest =>
    simp only [allVarsTyped, Bool.and_eq_true, imp_and] at typed
    obtain ⟨first, second, others⟩ := typed
    obtain ⟨w, b, built⟩ : ∃ w b, Builds L f _ _ (⟨·, w, b⟩) := locationChain_builds first
    unfold imageAccess
    refine weaves_chain built fun chain => ?_
    rw [productsOf]
    refine weaves_next (evaluate_spends source _ second) fun value => ?_
    refine weaves_quiet (quiet_imageCoordinate _ _) fun widened => ?_
    obtain ⟨wide, padding⟩ := widened
    simp only [pure_bind]
    split
    · simp only [allVarsTyped, Bool.and_eq_true, imp_and] at others
      rw [productsOf]
      exact weaves_next (evaluate_spends source _ others.1) fun _ =>
        spends_imageOperation acts others.2
    · split
      · exact spends_imageOperation acts others
      · exact weaves_quiet quiet_emitUndef fun _ => spends_imageOperation acts others

theorem spends_memoryStore {base : Option Int32} {address : List Rvalue} {mask : Rvalue}
    (addressTyped : L.fine → allVarsTyped source address = true) (valueTyped : L.fine → value.varsTyped source = true) :
    Spends L f (productsOf source f address ++ value.products source f) []
      (memoryStore source id op base address value mask) := by
  refine weaves_valueSources addressTyped fun address => ?_
  refine weaves_last (evaluate_spends source value valueTyped) fun v => ?_
  refine weaves_quiet (quiet_check _) fun _ => weaves_quiet (quiet_valueDef _) fun _ => ?_
  exact spends_emitNoResult acts (location?_ssa (v :: address)) _

theorem spends_applyRecipe {recipe : Recipe} (typed : L.fine → allVarsTyped source params = true) :
    Spends L f (recipeProducts source f recipe result params) [] (applyRecipe source id op recipe result params) := by
  -- an operation whose operands are values
  have plain : ∀ (values : List ValueId) (indices : Indices) (width bitSize : UInt8),
      Quiet L f (emitResult op (values.map .ssa) indices width bitSize) :=
    fun values => spends_emitResult acts (location?_ssa values)
  unfold applyRecipe
  split
  case h_8 | h_9 | h_11 =>
    exact weaves_valueSources_last typed fun values => weaves_quiet (quiet_check _) fun _ => plain values _ _ _
  case h_12 | h_13 => exact weaves_valueSources_last typed fun values => plain values _ _ _
  case h_14 | h_15 =>
    simp only [allVarsTyped, Bool.and_eq_true, imp_and] at typed
    exact weaves_next (evaluate_spends source _ typed.1) fun v => weaves_valueSources_last typed.2 fun rest =>
      weaves_quiet (quiet_valueDef _) fun _ => plain (v :: rest) _ _ _
  · simp only [allVarsTyped, Bool.and_eq_true, imp_and] at typed
    obtain ⟨w, b, built⟩ : ∃ w b, Builds L f _ _ (⟨·, w, b⟩) := locationChain_builds typed.1
    refine weaves_chain built fun chain => weaves_valueSources_last typed.2 fun data => ?_
    refine spends_emitResult acts ?_ _ _ _
    exact congrArg (chain.head :: ·) (location?_ssa data)
  · refine weaves_quiet (quiet_check _) fun _ => ?_
    cases params with
    | nil => exact weaves_abort _ _
    | cons target rest => exact spends_imageAccess acts typed
  · simp only [allVarsTyped, Bool.and_eq_true, imp_and] at typed
    obtain ⟨w, b, built⟩ : ∃ w b, Builds L f _ _ (⟨·, w, b⟩) := locationChain_builds typed.1
    exact weaves_chain_last built fun chain => weaves_quiet (quiet_check _) fun _ => spends_emitResult acts rfl _ _ _
  · exact spends_emitNoResult acts rfl _
  · exact spends_emitResult acts rfl _ _ _
  · refine weaves_check fun type isType => weaves_valueSources typed fun values => ?_
    obtain rfl : result = some type := by
      cases result with
      | none => cases isType
      | some other => rw [Except.ok.inj isType]
    refine weaves_quiet quiet_nativeIntegers fun _ =>
      spends_bind (spends_emitLoad ?_ ?_ rfl _ _ _) fun _ => quiet_pure _
    · exact location?_ssa values
    · exact acts.destinations _ _
  · simp only [allVarsTyped, Bool.and_eq_true, imp_and] at typed
    obtain ⟨block, offset, value, -⟩ := typed
    exact spends_memoryStore acts (fun isFine => by simp [allVarsTyped, block isFine, offset isFine]) value
  · simp only [allVarsTyped, Bool.and_eq_true, imp_and] at typed
    obtain ⟨offset, value, -⟩ := typed
    exact spends_memoryStore acts (fun isFine => by simp [allVarsTyped, offset isFine]) value
  · exact weaves_abort _ _

end

theorem spends_callIntrinsic (typed : L.fine → call.varsTyped source = true) :
    Spends L f (recipeProducts source f (ruleOf id).recipe (call.result.map Place.type) call.parameters ++
      resultProducts source f call.result) [] (callIntrinsic source id call) := by
  simp only [Call.varsTyped, Bool.and_eq_true, imp_and] at typed
  refine weaves_check fun op chosen => weaves_quiet (quiet_check _) fun _ => weaves_quiet (quiet_check _) fun _ => ?_
  refine weaves_next (spends_applyRecipe (ruleOf_acts id op (chooseOp_mem chosen)) typed.1) fun value => ?_
  split
  · rename_i target
    rw [target]
    exact quiet_pure _
  · exact weaves_abort _ _
  · rename_i place v target
    rw [target]
    simp only [target, Option.all_some] at typed
    refine weaves_chain_last (placeChain_builds source place typed.2) fun chain => ?_
    exact weaves_quiet (quiet_valueDef _) fun _ => weaves_quiet (quiet_check _) fun _ => spends_storeLocation rfl _ _

theorem spends_lowerCall (typed : L.fine → call.varsTyped source = true) :
    Spends L f (call.products source f) [] (lowerCall source call) := by
  refine weaves_check fun signature found => ?_
  rw [Call.products, getSignature_ok.mp found, Option.bind_some]
  cases signature.intrinsic with
  | some id => exact spends_callIntrinsic typed
  | none => exact spends_callFunction typed

/-! ### Statements -/

theorem State.Carries.declare {g : Option FuncId} {live : List Held} (h : s.Carries L g done live) {id : Source.VarId}
    {v : Target.VarId} (run : Runs (declare source id) s v t) (fits : t.program.Fits) :
    t.Carries L g (done ++ [.declared id]) live :=
  h.add (declare_creates run) rfl fits ((declare_declares run).current.trans h.current)
    (h.binds.declare (fun stands => ⟨stands.type, stands.isBuffer_eq⟩) run fits)

theorem spends_guarded {issue : Lower Unit} (typed : L.fine → anyVarsTyped source condition = true)
    (issued : Spends L f [] takes issue) :
    Spends L f (sourceProducts source f condition) takes (guarded source condition issue) := by
  cases condition with
  | none => exact issued
  | some c =>
    simp only [anyVarsTyped] at typed
    rw [sourceProducts]
    exact weaves_last (evaluate_spends source _ typed) fun _ => spends_bind (spends_inRegion issued) fun _ =>
      quiet_modifyRegion _

theorem spends_assign {target : Place} {mask : UInt8} (targetTyped : L.fine → target.varsTyped source = true)
    (valueTyped : L.fine → value.varsTyped source = true)
    (conditionTyped : L.fine → anyVarsTyped source condition = true) :
    Spends L f (assignProducts source f target value mask ++ sourceProducts source f condition) []
      (assign source target value mask condition) := by
  refine weaves_check fun full isFull => ?_
  have store : ∀ {dst : Chain} {v : ValueId} {written : UInt8},
      Spends L f (sourceProducts source f condition) [⟨dst, true, source.inBuffer target⟩]
        (guarded source condition (storeLocation dst.head v written)) :=
    fun {dst v written} => spends_guarded conditionTyped (spends_storeLocation rfl v written)
  rw [assignProducts, assignment_eq isFull, List.append_assoc]
  split
  · obtain ⟨w, b, built⟩ : ∃ w b, Builds L f _ _ (⟨·, w, b⟩) := locationChain_builds valueTyped
    rw [if_pos rfl]
    exact weaves_chain (placeChain_builds source target targetTyped) fun dst => weaves_chain built fun src =>
      spends_guarded conditionTyped (spends_copyLocation rfl ⟨src, w, b⟩)
  · rw [if_neg (by simp)]
    refine weaves_chain (placeChain_builds source target targetTyped) fun dst => ?_
    refine weaves_next (evaluate_spends source value valueTyped) fun v => ?_
    generalize (if mask = 0 then full else mask) = written
    split
    · exact weaves_quiet (quiet_pure _) fun _ => store
    · exact weaves_quiet (quiet_reorder _ _ _) fun _ => store

theorem spends_storeReturn (typed : L.fine → value.varsTyped source = true) :
    Spends L f (if value.isStored then value.locationProducts source f else value.products source f) []
      (storeReturn source value) := by
  refine spends_of_runs (by simp) fun {s a t done live} run fits carries => ?_
  simp only [storeReturn, runs_bind, runs_program, runs_check] at run
  obtain ⟨v, _, varRun, _, _, ⟨rfl, rfl⟩, x, s, ⟨found, rfl⟩, run⟩ := run
  obtain ⟨rfl, returns⟩ := returnVariable_ok varRun
  have there := getVariable_found found
  split at run
  · rename_i stored
    obtain ⟨w, b, built⟩ : ∃ w b, Builds L f _ _ (⟨·, w, b⟩) := locationChain_builds typed
    obtain ⟨dst, u, dstRun, run⟩ := runs_bind.mp run
    have copied : Spends L f (value.locationProducts source f) [⟨dst, true, x.storage.isBuffer⟩] (do
        let src ← locationChain source value
        copyLocation dst.head src.head) :=
      weaves_chain_last built fun src => spends_copyLocation rfl ⟨src, w, b⟩
    have before := fits.of_noLarger (copied.grows run)
    rw [if_pos stored]
    simpa using copied.weaves run fits (carries.rootChain (.inr returns) there (fun _ => rfl) dstRun before)
  · rename_i computed
    obtain ⟨w, u, valueRun, run⟩ := runs_bind.mp run
    obtain ⟨dst, y, dstRun, run⟩ := runs_bind.mp run
    have stored : Spends L f [] [⟨dst, true, x.storage.isBuffer⟩] (do
        let mask ← check (fullMask (← valueDef w).width)
        storeLocation dst.head w mask) :=
      weaves_quiet (quiet_valueDef _) fun _ => weaves_quiet (quiet_check _) fun _ => spends_storeLocation rfl _ _
    have small := fits.of_noLarger (stored.grows run)
    have evaluated := (evaluate_spends source value typed).keeps valueRun (dstRun.fits_before (by simp) small) carries
    -- the variable is there still
    have path : Path .value s u := (evaluates_evaluate source value).stepwise.path valueRun
    have returned : u.returnVar? = some v := path.of_value.returnVar?_eq.trans returns
    rw [if_neg computed]
    simpa using stored.weaves run fits
      (evaluated.rootChain (.inr returned) (path.keeps.vars there) (fun _ => rfl) dstRun small)

theorem quiet_emitStream (op : IntrinsicOp) (kind : String) (stream : Rvalue) (still : Acts op) :
    Quiet L f (emitStream op kind stream) := by
  unfold emitStream
  split
  · exact spends_emitEffect rfl (by simp [still.destinations]) rfl
  · exact weaves_abort _ _

theorem quiet_noteDiscard : Quiet L f (do
    let p ← program
    setProgram { p with info := { p.info with usesDiscard := true } }) := by
  refine spends_of_runs stepwise_noteDiscard fun {s a t done live} run fits carries => ?_
  simp only [runs_bind, runs_program, runs_setProgram] at run
  obtain ⟨_, _, ⟨rfl, rfl⟩, rfl⟩ := run
  rw [List.append_nil]
  refine carries.frame ?_ carries.current
  exact ⟨rfl, rfl, rfl, rfl, rfl, rfl, fun _ => id⟩

theorem quiet_emitEffect {op : Operation} (names : op.locations = []) (still : op.destinations = [])
    (plain : op.opcode? = none) : Quiet L f (emitEffect op) :=
  spends_emitEffect names (by simp [still]) plain

mutual

theorem lowerStmt_spends (source : Source.Program) {L : Ledger source} : ∀ stmt : Stmt,
    (L.fine → stmt.varsTyped source = true) → Spends L f (stmt.products source f) [] (lowerStmt source stmt)
  | .declare id, _ => by
    unfold lowerStmt Stmt.products
    refine weaves_last (spends_of_runs (by simp) fun run fits carries => ?_) fun _ => quiet_pure _
    exact carries.declare run fits
  | .function name ids, _ => by
    unfold lowerStmt
    exact weaves_abort _ _
  | .loop body, typed => by
    simp only [Stmt.varsTyped] at typed
    unfold lowerStmt Stmt.products
    exact weaves_last (spends_inRegion (lowerStmts_spends source body typed)) fun _ => quiet_modifyRegion _
  | .branch condition thenBody elseBody, typed => by
    simp only [Stmt.varsTyped, Bool.and_eq_true, imp_and, and_assoc] at typed
    obtain ⟨first, second, third⟩ := typed
    unfold lowerStmt Stmt.products
    refine weaves_next (evaluate_spends source condition first) fun _ => ?_
    refine weaves_next (spends_inRegion (lowerStmts_spends source thenBody second)) fun _ => ?_
    exact weaves_last (spends_inRegion (lowerStmts_spends source elseBody third)) fun _ => quiet_modifyRegion _
  | .discard none, _ => by
    unfold lowerStmt Stmt.products sourceProducts
    exact weaves_quiet (quiet_emitEffect rfl rfl rfl) fun _ => quiet_noteDiscard
  | .discard (some c), typed => by
    simp only [Stmt.varsTyped, anyVarsTyped] at typed
    unfold lowerStmt Stmt.products sourceProducts
    exact weaves_last (evaluate_spends source c typed) fun _ =>
      weaves_quiet (quiet_emitEffect rfl rfl rfl) fun _ => quiet_noteDiscard
  | .jump _, _ | .barrier, _ | .ret none, _ => by
    unfold lowerStmt Stmt.products
    exact quiet_emitEffect rfl rfl rfl
  | .ret (some value), typed => by
    simp only [Stmt.varsTyped, anyVarsTyped] at typed
    unfold lowerStmt Stmt.products
    exact weaves_last (spends_storeReturn typed) fun _ => quiet_emitEffect rfl rfl rfl
  | .call call, typed => by
    simp only [Stmt.varsTyped] at typed
    unfold lowerStmt Stmt.products
    exact spends_lowerCall typed
  | .assign target value mask condition, typed => by
    simp only [Stmt.varsTyped, Bool.and_eq_true, imp_and, and_assoc] at typed
    unfold lowerStmt Stmt.products
    exact spends_assign typed.1 typed.2.1 typed.2.2
  | .emitVertex stream, _ | .endPrimitive stream, _ => by
    unfold lowerStmt Stmt.products
    exact quiet_emitStream _ _ stream (by decide)

theorem lowerStmts_spends (source : Source.Program) {L : Ledger source} : ∀ stmts : List Stmt,
    (L.fine → stmtsVarsTyped source stmts = true) →
      Spends L f (stmtsProducts source f stmts) [] (lowerStmts source stmts)
  | [], _ => by
    unfold lowerStmts stmtsProducts
    exact quiet_pure _
  | stmt :: stmts, typed => by
    simp only [stmtsVarsTyped, Bool.and_eq_true, imp_and] at typed
    unfold lowerStmts stmtsProducts
    exact weaves_next (lowerStmt_spends source stmt typed.1) fun _ => lowerStmts_spends source stmts typed.2

end

/-! ### Programs -/

section
variable {f : FuncId}

theorem setBody_frames {body : Option Body} (written : s.program.setBody f body = .ok p) {c : Scope} {region : Region}
    {log : Array Event} (vars : c.vars = s.scope.vars) (native : c.nativeIntegers = s.scope.nativeIntegers)
    (returns : ∀ v, State.returnVar? ⟨p, c, region, log⟩ = some v → s.returnVar? = some v) :
    Frames s ⟨p, c, region, log⟩ := by
  obtain ⟨_, -, rfl⟩ := Program.setBody_ok written
  exact ⟨rfl, rfl, rfl, rfl, native, vars, returns⟩

variable {done : List Product} {signature : Signature}

theorem declareParams_carries (h : s.Carries L (some f) done []) {ids : List Source.VarId}
    (run : Runs (declareParams source signature f ids) s () t) (fits : t.program.Fits) :
    t.Carries L (some f) (done ++ ids.map .declared) [] := by
  induction ids generalizing s done with
  | nil =>
    obtain ⟨-, rfl⟩ := runs_pure.mp run
    simpa using h
  | cons id ids ih =>
    obtain ⟨v, u, -, w, declared, -, -, changed, rest⟩ := declareParams_cons run
    have later := ((stepwise_declareParams source signature f ids).path rest).fits fits
    have made := h.declare declared (((stepwise_modifyBody f _).path changed).fits later)
    have listed := modifyBody_declares changed (fun _ => rfl) fun _ => rfl
    obtain ⟨p, modified, rfl⟩ := modifyBody_ok changed
    obtain ⟨b, -, written⟩ := Program.modifyBody_code? modified
    have framed : Frames u { u with program := p } := setBody_frames written rfl rfl fun w returns => by
      rwa [State.returnVar?, listed.code?, listed.current] at returns
    simpa using ih (made.frame framed made.current) rest

theorem head_carries (h : s.Carries L none done []) (head : Heads source signature f s t) (fits : t.program.Fits) :
    t.Carries L (some f) (done ++ (signature.parameters.map .declared ++
      if signature.returnType.isVoid then [] else [.returned (some f)])) [] := by
  obtain ⟨p, u, emptied, params, returned⟩ := head
  have framed : Frames s { s with program := p, scope := { s.scope with current := some f } } :=
    setBody_frames emptied rfl rfl fun v returns => by
      simp [State.returnVar?, Program.setBody_code? emptied] at returns
  have entered := declareParams_carries (h.frame framed rfl) params
    (((stepwise_declareReturn f signature.returnType).path returned).fits fits)
  have binds := entered.binds.declareReturn returned
  obtain ⟨void, rfl⟩ | ⟨void, -⟩ := declareReturn_ok returned
  · simpa [void] using entered
  · have made := entered.add (return_creates void entered.current returned) rfl fits
      (by rw [declareReturn_scope returned, entered.current]) binds
    simpa [void] using made

theorem lowerBody_carries (h : s.Carries L none done []) (typed : L.fine → stmtsVarsTyped source signature.body = true)
    (run : Runs (lowerBody source signature f) s () t) (fits : t.program.Fits) :
    t.Carries L none (done ++ source.bodyProducts (some f) signature) [] := by
  obtain ⟨v, w, q, log, ⟨head, before⟩, ⟨stmts, small⟩, changed, rfl⟩ := lowerBody_fitting run fits
  obtain ⟨b, -, written⟩ := Program.modifyBody_code? changed
  have headed := head_carries h head before
  have after := (lowerStmts_spends source signature.body typed).keeps stmts small (headed.inRegion {})
  have framed : Frames w ⟨q, w.scope.leaveFunction, v.region, log⟩ :=
    setBody_frames written rfl rfl fun _ returns => by cases returns
  have left : State.Carries L none _ _ [] := after.frame framed rfl
  simpa [Program.bodyProducts] using left

end

theorem lowerSignature_carries (h : s.Carries L none done []) (callees : s.callees = source.functionOf?)
    (typed : L.fine → source.varsTyped = true) {id : SignatureId} (run : Runs (lowerSignature source id) s () t)
    (fits : t.program.Fits) : t.Carries L none (done ++ source.signatureProducts id) [] := by
  obtain ⟨signature, found, ⟨builtin, rfl⟩ | ⟨user, f, resolved, ⟨declared, log, rfl⟩ | ⟨defined, body⟩⟩⟩ :=
    lowerSignature_ok run
  · simpa [Program.signatureProducts, found, builtin] using h
  · have noted : State.Carries L none { s with log } done [] := h.frame (t := { s with log })
      ⟨rfl, rfl, rfl, rfl, rfl, rfl, fun _ same => same⟩ h.current
    simpa [Program.signatureProducts, found, declared] using noted
  · have callee : source.functionOf? id = some f := by
      rw [← callees]
      exact Option.join_eq_some_iff.mpr resolved
    have kept := lowerBody_carries h (fun isFine =>
      Array.all_eq_true_iff_forall_mem.mp (typed isFine) signature (Array.mem_of_getElem? found)) body fits
    simpa [Program.signatureProducts, found, callee, user, defined] using kept

/-- A ledger that holds when all functions have been registered holds of the lowered program, with all that the source
lists made and no chain left to wait. -/
theorem lower_carries (L : Ledger source) {capabilities : Capabilities} (h : lower source capabilities = .ok p)
    (fits : p.Fits) (typed : L.fine → source.varsTyped = true)
    (start : ∀ {s}, Registers source (source.listed.filter source.isUser) s →
      s.scope.nativeIntegers = capabilities.nativeIntegers → L.holds s [] []) :
    ∃ t : State, t.program = p ∧ t.scope.nativeIntegers = capabilities.nativeIntegers ∧
      L.holds t source.products [] := by
  obtain ⟨s, t, info, registered, lowered, rfl⟩ := lower_ok h
  have small : t.program.Fits := ⟨fits.instrs, fits.values, fits.vars, fits.links, fits.functions⟩
  have registers := registerAll_registers (initial_registers source capabilities) registered
  have path := (stepwise_registerAll source source.statements).path registered
  have begun : s.Carries L none [] [] :=
    ⟨registers.idle, fun _ _ found => absurd found registers.unbound, by simp, start registers path.steady.native⟩
  obtain ⟨done, -⟩ := @lowerAll_collects source s t Product
    (fun done s => s.Carries L none done [] ∧ ∃ ids, Filled source ids s) source.topProducts source.signatureProducts
    (fun _ _ => rfl) (fun before run fits => ⟨before.1.declare run fits, before.2.imp fun _ => (·.declare run)⟩)
    (fun before run fits => ⟨lowerSignature_carries before.1 before.2.choose_spec.callees typed run fits,
      _, before.2.choose_spec.lowerSignature run fits⟩) [] source.statements ⟨begun, [], registers.filled⟩ lowered small
  have framed : Frames t { t with program := { t.program with info } } :=
    ⟨rfl, rfl, rfl, rfl, rfl, rfl, fun _ => id⟩
  have native : t.scope.nativeIntegers = capabilities.nativeIntegers :=
    ((stepwise_lowerAll source source.statements).path lowered).steady.native.trans path.steady.native
  exact ⟨{ t with program := { t.program with info } }, rfl, native, L.frame framed done.holds⟩

end ShaderSSA.Lowering
