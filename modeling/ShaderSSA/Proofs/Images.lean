import ShaderSSA.Proofs.Pieces

/-!
Accesses to images. The coordinate is made wide, and one undefined value stands for all that the image does not need:
the lanes behind the coordinate, and the sample.
-/

namespace ShaderSSA.Lowering
open Source Target Lower

variable {source : Source.Program} {s u t : State} {ps : List Piece} {op : IntrinsicOp} {type : Option ShaderType}
  {value : Option ValueId} {data : Nat} {id : IntrinsicId} {used : UInt8} {image : ImageType}

/-! ### Coordinates -/

/-- Lane `i` of the wide coordinate is component `i` of the coordinate, as long as it is in use, and the padding
behind. -/
def Widened (coordinate : ValueId) (used : UInt8) (padding : ValueId) (lanes : List AluSrc) : Prop :=
  lanes.length = 4 ∧ ∀ i < 4, lanes[i]? = some (if i < used.toNat then ⟨coordinate, .all (UInt8.ofNat i)⟩
    else ⟨padding, .all 0⟩)

theorem widened_coordinateLanes (coordinate padding : ValueId) (used : UInt8) :
    Widened coordinate used padding (coordinateLanes coordinate used padding) := by
  refine ⟨rfl, fun i small => ?_⟩
  have lane : ∀ i < 4, (coordinateLanes coordinate used padding)[i]? =
      some (if UInt8.ofNat i < used then ⟨coordinate, .all (UInt8.ofNat i)⟩ else ⟨padding, .all 0⟩) := by
    intro i small
    obtain rfl | rfl | rfl | rfl : i = 0 ∨ i = 1 ∨ i = 2 ∨ i = 3 := by omega
    all_goals rfl
  rw [lane i small]
  have same : (UInt8.ofNat i).toNat = i := by
    rw [UInt8.toNat_ofNat']
    omega
  simp only [UInt8.lt_iff_toNat_lt, same]

theorem Widened.of_full {coordinate x : ValueId} {lanes : List AluSrc} (full : ¬ used < 4)
    (h : Widened coordinate used x lanes) (padding : ValueId) : Widened coordinate used padding lanes := by
  refine ⟨h.1, fun i small => ?_⟩
  rw [h.2 i small]
  have inside : i < used.toNat := by
    rw [UInt8.lt_iff_toNat_lt] at full
    have four : (4 : UInt8).toNat = 4 := rfl
    omega
  rw [if_pos inside, if_pos inside]

theorem coordinateComponents_ms (ms : image.dim = .ms) : image.coordinateComponents < 4 := by
  rw [ImageType.coordinateComponents, ms]
  split <;> decide

theorem imageCoordinate_pieces (source : Source.Program) {coordinate wide : ValueId} {padding? : Option ValueId}
    (run : Runs (imageCoordinate coordinate used) s (wide, padding?) t) :
    ∃ d lanes, s.program.value? coordinate = some d ∧ used ≤ d.width ∧
      ((∃ padding, padding? = some padding ∧ Widened coordinate used padding lanes ∧
          Trace source s [.define .undef 1 32 padding, .define (.alu .vec4 lanes) 4 d.bitSize wide] t) ∨
        ¬ used < 4 ∧ padding? = none ∧ (∀ padding, Widened coordinate used padding lanes) ∧
          Trace source s [.define (.alu .vec4 lanes) 4 d.bitSize wide] t) := by
  simp only [imageCoordinate, runs_bind, runs_valueDef, runs_unless] at run
  obtain ⟨d, _, ⟨found, rfl⟩, enough, run⟩ := run
  refine ⟨d, coordinateLanes coordinate used (padding?.getD coordinate), found, UInt8.not_lt.mp enough, ?_⟩
  split at run
  · simp only [emitUndef, runs_bind, runs_pure, Prod.mk.injEq] at run
    obtain ⟨padding, _, undefRun, x, _, wideRun, ⟨rfl, rfl⟩, rfl⟩ := run
    obtain ⟨rfl, rfl, -⟩ := emitValue_ok undefRun
    obtain ⟨rfl, rfl, -⟩ := emitValue_ok wideRun
    exact .inl ⟨_, rfl, widened_coordinateLanes _ _ _, .define (.define .done)⟩
  · rename_i full
    simp only [runs_bind, runs_pure, Prod.mk.injEq] at run
    obtain ⟨x, _, wideRun, ⟨rfl, rfl⟩, rfl⟩ := run
    obtain ⟨rfl, rfl, -⟩ := emitValue_ok wideRun
    exact .inr ⟨full, rfl, (widened_coordinateLanes _ _ _).of_full full, .define .done⟩

/-! ### Accesses -/

/-- What an access to an image leaves. -/
structure ImageScript where
  head : LinkId
  coordinate : ValueId
  shape : ValueDef
  padding : ValueId
  lanes : List AluSrc
  wide : ValueId
  pads : List Piece
  rest : List ValueId
  main : Piece

namespace ImageScript

def undefined (a : ImageScript) : Piece := .define .undef 1 32 a.padding

def widening (a : ImageScript) : Piece := .define (.alu .vec4 a.lanes) 4 a.shape.bitSize a.wide

def before (a : ImageScript) (target coordinate : Rvalue) (rest : List Rvalue) : List Piece :=
  .location target a.head :: .value coordinate a.coordinate :: (a.pads ++ valuePieces rest a.rest)

def srcs (a : ImageScript) (image : ImageType) : List Src :=
  .location a.head :: .ssa a.wide :: if image.dim = .ms then a.rest.map .ssa else .ssa a.padding :: a.rest.map .ssa

/-- The image is located and the coordinate evaluated and made wide, with one undefined value; then the other
parameters are evaluated. -/
structure Of (a : ImageScript) (source : Source.Program) (op : IntrinsicOp) (image : ImageType)
    (target coordinate : Rvalue) (rest : List Rvalue) (value : Option ValueId) (s t : State) : Prop where
  trace : Trace source s (a.before target coordinate rest ++ [a.main]) t
  pads : a.pads = [a.undefined, a.widening] ∨ a.pads = [a.widening, a.undefined]
  length : a.rest.length = rest.length
  shape : t.program.value? a.coordinate = some a.shape
  enough : image.coordinateComponents ≤ a.shape.width
  widened : Widened a.coordinate image.coordinateComponents a.padding a.lanes
  main : a.main.instr? = some ⟨.intrinsic op (a.srcs image) {}, value⟩

end ImageScript

theorem imageData_trace {data : List Rvalue} (front : List Src)
    (run : Runs (do
      let data ← valueSources source data
      match type with
      | some type => emitResult op (front ++ data) {} type.rows 32
      | none => emitNoResult op (front ++ data) {}) s value t) :
    ∃ vs main, vs.length = data.length ∧ Trace source s (valuePieces data vs ++ [main]) t ∧
      main.instr? = some ⟨.intrinsic op (front ++ vs.map .ssa) {}, value⟩ := by
  obtain ⟨_, u, listed, run⟩ := runs_bind.mp run
  obtain ⟨vs, evaluated, rfl⟩ := valueSources_ok listed
  have emitted : ∃ main : Piece, main.instr? = some ⟨.intrinsic op (front ++ vs.map .ssa) {}, value⟩ ∧
      Trace source u [main] t := by
    split at run
    · exact emitResult_piece source run
    · exact emitNoResult_piece source run
  obtain ⟨main, isMain, last⟩ := emitted
  exact ⟨vs, main, length_evaluateAll evaluated, (evaluateAll_trace evaluated).append last, isMain⟩

theorem imageAccess_script {target coordinate : Rvalue} {rest : List Rvalue} (sampled : image.dim = .ms → rest ≠ [])
    (run : Runs (imageAccess source id op image type (target :: coordinate :: rest)) s value t) :
    ∃ a : ImageScript, a.Of source op image target coordinate rest value s t := by
  simp only [imageAccess, runs_bind] at run
  obtain ⟨chain, s₁, chainRun, v, s₂, coordinateRun, ⟨wide, padding?⟩, s₃, wideRun, run⟩ := run
  dsimp only at run
  obtain ⟨d, lanes, found, enough, widened⟩ := imageCoordinate_pieces source wideRun
  have start : ∀ {ps : List Piece}, Trace source s₂ ps t →
      Trace source s (.location target chain.head :: .value coordinate v :: ps) t :=
    fun trace => .location chainRun (.value coordinateRun trace)
  split at run
  · rename_i sample data isMs
    simp only [pure_bind] at run
    obtain ⟨x, s₄, sampleRun, run⟩ := runs_bind.mp run
    obtain ⟨vs, main, length, trace, isMain⟩ := imageData_trace [.location chain.head, .ssa wide, .ssa x] run
    obtain ⟨padding, -, lanesOf, widening⟩ | ⟨full, -⟩ := widened
    swap
    · exact absurd (coordinateComponents_ms isMs) full
    have body := widening.append (.value sampleRun trace)
    refine ⟨⟨chain.head, v, d, padding, lanes, wide, [_, _], x :: vs, main⟩, start body, .inl rfl,
      congrArg Nat.succ length, body.path.keeps.values found, enough, lanesOf, ?_⟩
    rw [isMain, ImageScript.srcs, if_pos isMs]
    rfl
  · rename_i other
    have single : image.dim ≠ .ms := by
      intro isMs
      obtain ⟨sample, data, rfl⟩ := List.exists_cons_of_ne_nil (sampled isMs)
      exact other sample data isMs rfl
    obtain ⟨padding, rfl, lanesOf, widening⟩ | ⟨-, rfl, lanesOf, widening⟩ := widened
    · simp only [pure_bind] at run
      obtain ⟨vs, main, length, trace, isMain⟩ :=
        imageData_trace [.location chain.head, .ssa wide, .ssa padding] run
      have body := widening.append trace
      refine ⟨⟨chain.head, v, d, padding, lanes, wide, [_, _], vs, main⟩, start body, .inl rfl, length,
        body.path.keeps.values found, enough, lanesOf, ?_⟩
      rw [isMain, ImageScript.srcs, if_neg single]
      rfl
    · simp only [pure_bind] at run
      obtain ⟨padding, s₄, undefRun, run⟩ := runs_bind.mp run
      obtain ⟨rfl, rfl, -⟩ := emitValue_ok undefRun
      obtain ⟨vs, main, length, trace, isMain⟩ := imageData_trace [.location chain.head, .ssa wide, .ssa _] run
      have body := widening.append (.define trace)
      refine ⟨⟨chain.head, v, d, _, lanes, wide, [_, _], vs, main⟩, start body, .inr rfl, length,
        body.path.keeps.values found, enough, lanesOf _, ?_⟩
      rw [isMain, ImageScript.srcs, if_neg single]
      rfl

theorem sampled_of_count {target coordinate : Rvalue} {rest : List Rvalue}
    (named : imageParam? (target :: coordinate :: rest) = some image)
    (count : rest.length = (multisampled (target :: coordinate :: rest)).toNat + data) :
    image.dim = .ms → rest ≠ [] := by
  rintro isMs rfl
  rw [multisampled, named, Option.any_some, decide_eq_true isMs, List.length_nil, Bool.toNat_true] at count
  omega

theorem applyRecipe_script {params : List Rvalue}
    (arity : params.length = ((Recipe.image data).roles (multisampled params)).length)
    (run : Runs (applyRecipe source id op (.image data) type params) s value t) :
    ∃ target coordinate rest image, ∃ a : ImageScript, params = target :: coordinate :: rest ∧
      imageParam? params = some image ∧ rest.length = (multisampled params).toNat + data ∧
      a.Of source op image target coordinate rest value s t := by
  simp only [applyRecipe, runs_bind, runs_check] at run
  obtain ⟨image, _, ⟨isImage, rfl⟩, run⟩ := run
  have named := imageParam?_of_imageOf isImage
  simp only [Recipe.roles, List.length_cons, List.length_replicate] at arity
  obtain ⟨target, _, rfl⟩ := List.exists_cons_of_length_eq_add_one arity
  obtain ⟨coordinate, rest, rfl⟩ := List.exists_cons_of_length_eq_add_one (Nat.succ.inj arity)
  have count := Nat.succ.inj (Nat.succ.inj arity)
  obtain ⟨a, script⟩ := imageAccess_script (sampled_of_count named count) run
  exact ⟨target, coordinate, rest, image, a, rfl, named, count, script⟩

/-! ### The undefined value -/

namespace ImageScript.Of
variable {a : ImageScript} {op : IntrinsicOp} {image : ImageType} {target coordinate : Rvalue} {rest : List Rvalue}
  {value : Option ValueId} (h : a.Of source op image target coordinate rest value s t)
include h

theorem mem_pads {p : Piece} : p ∈ a.pads ↔ p = a.undefined ∨ p = a.widening := by
  rcases h.pads with pads | pads <;> rw [pads, List.mem_pair]
  exact or_comm

theorem helps : ∀ p ∈ a.pads, p.Helps := by
  intro p member
  rcases h.mem_pads.mp member with rfl | rfl <;> exact ⟨_, _, _, _, rfl, rfl⟩

theorem passed_before : passed (a.before target coordinate rest) = ((target, .location), .location a.head) ::
    ((coordinate, .value), .ssa a.coordinate) :: passed (valuePieces rest a.rest) := by
  have behind : passed (a.pads ++ valuePieces rest a.rest) = passed (valuePieces rest a.rest) := by
    rw [passed_append, passed_of_helps h.helps, List.nil_append]
  rw [← behind]
  rfl

theorem prepares : ∀ p ∈ a.before target coordinate rest, p.Prepares := by
  intro p member
  rcases List.mem_cons.mp member with rfl | member
  · exact .inl rfl
  rcases List.mem_cons.mp member with rfl | member
  · exact .inl rfl
  rcases List.mem_append.mp member with member | member
  · exact .inr (h.helps p member)
  · exact .inl (isSome_valuePieces p member)

theorem mem_before : a.undefined ∈ a.before target coordinate rest ∧ a.widening ∈ a.before target coordinate rest := by
  have inside : ∀ {p}, p ∈ a.pads → p ∈ a.before target coordinate rest := fun member =>
    List.mem_cons_of_mem _ (List.mem_cons_of_mem _ (List.mem_append_left _ member))
  exact ⟨inside (h.mem_pads.mpr (.inl rfl)), inside (h.mem_pads.mpr (.inr rfl))⟩

theorem undefined_before : (own (a.before target coordinate rest)).filter (fun i => i.operation = .undef) =
    [⟨.undef, some a.padding⟩] := by
  have own_before : own (a.before target coordinate rest) = own a.pads := by
    change own (a.pads ++ valuePieces rest a.rest) = own a.pads
    rw [own_append, own_valuePieces, List.append_nil]
  rw [own_before]
  rcases h.pads with pads | pads <;> rw [pads] <;> rfl

theorem srcs_cases (sampled : image.dim = .ms → rest ≠ []) (inside : a.before target coordinate rest ⊆ ps) :
    ∃ sample data, a.srcs image = .location a.head :: .ssa a.wide :: .ssa sample :: data ∧
      if image.dim = .ms then ∃ r, rest.head? = some r ∧ .value r sample ∈ ps else sample = a.padding := by
  unfold ImageScript.srcs
  split
  · rename_i isMs
    obtain ⟨r, more, rfl⟩ := List.exists_cons_of_ne_nil (sampled isMs)
    obtain ⟨v, vs, values⟩ := List.exists_cons_of_length_eq_add_one h.length
    refine ⟨v, vs.map .ssa, by rw [values]; rfl, r, rfl, inside ?_⟩
    rw [ImageScript.before, values]
    exact List.mem_cons_of_mem _ (List.mem_cons_of_mem _ (List.mem_append_right _ List.mem_cons_self))
  · exact ⟨a.padding, _, rfl, rfl⟩

end ImageScript.Of

/-- The operands of the access have one undefined value between them. -/
structure ImageScript.Shares (a : ImageScript) (source : Source.Program) (ops : List IntrinsicOp) (image : ImageType)
    (target coordinate : Rvalue) (rest : List Rvalue) (pieces : List Piece) (s t : State) : Prop where
  trace : Trace source s pieces t
  undefined : (own pieces).filter (fun i => i.operation = .undef) = [⟨.undef, some a.padding⟩]
  alone : (added s t).filter (fun i => i.operation = .undef) = [⟨.undef, some a.padding⟩]
  located : .location target a.head ∈ pieces
  evaluated : .value coordinate a.coordinate ∈ pieces
  shape : t.program.value? a.coordinate = some a.shape
  enough : image.coordinateComponents ≤ a.shape.width
  widening : .define (.alu .vec4 a.lanes) 4 a.shape.bitSize a.wide ∈ pieces
  widened : Widened a.coordinate image.coordinateComponents a.padding a.lanes
  access : ∃ op ∈ ops, ∃ sample data dest, (added s t).filter (fun i => i.operation.isAny ops) =
      [⟨.intrinsic op (.location a.head :: .ssa a.wide :: .ssa sample :: data) {}, dest⟩] ∧
    if image.dim = .ms then ∃ r, rest.head? = some r ∧ .value r sample ∈ pieces else sample = a.padding
  defined : t.program.Fits → t.program.Defines a.wide (.alu .vec4 a.lanes) 4 a.shape.bitSize ∧
    t.program.Defines a.padding .undef 1 32

theorem Trace.filter_undefined (h : Trace source s ps t) :
    (added s t).filter (fun i => i.operation = .undef) = (own ps).filter fun i => i.operation = .undef := by
  refine (h.addsOnly (Q := fun op => op = .undef) fun op evaluates => decide_eq_false ?_).filter_added
  rintro rfl
  cases evaluates

theorem Stores.defined {p : Target.Program} {result : Option Place} {value : Option ValueId}
    (h : Stores p result value ps) :
    (own ps).filter (fun i => i.operation = .undef) = [] := by
  cases h <;> rfl

/-- For each access to an image one undefined value is emitted. The second source of the access is the coordinate in
four lanes, which reads the undefined value behind the coordinate; the third source is the sample, or else the same
undefined value. -/
theorem image_access_shares_undefined {call : Call} {signature : Signature} {id : IntrinsicId} {data : Nat}
    (found : source.signature? call.callee = some signature) (builtin : signature.intrinsic = some id)
    (access : (ruleOf id).recipe = .image data) (run : Runs (lowerCall source call) s () t) :
    ∃ target coordinate rest image pieces, ∃ a : ImageScript, call.parameters = target :: coordinate :: rest ∧
      target.type.withoutArray = .image image ∧
      a.Shares source (ruleOf id).op.ops image target coordinate rest pieces s t := by
  obtain ⟨op, value, w, stores, chosen, arity, laid, stored, behind⟩ :=
    callIntrinsic_pieces (lowerCall_intrinsic found builtin run)
  rw [access] at arity laid
  obtain ⟨target, coordinate, rest, image, a, params, named, count, script⟩ := applyRecipe_script arity laid
  rw [params] at named count
  have trace : Trace source s (a.before target coordinate rest ++ a.main :: stores) t := by
    have whole := script.trace.append behind
    rwa [List.append_assoc] at whole
  have undefined : (own (a.before target coordinate rest ++ a.main :: stores)).filter (fun i => i.operation = .undef) =
      [⟨.undef, some a.padding⟩] := by
    rw [own_around script.main, List.filter_append, script.undefined_before, List.filter_cons_of_neg (by simp),
      stored.defined]
    rfl
  have once := trace.once (ruleOf_acts id) script.prepares stored.assists (chooseOp_mem chosen) script.main
  have inside : a.before target coordinate rest ⊆ a.before target coordinate rest ++ a.main :: stores :=
    List.subset_append_left _ _
  obtain ⟨sample, more, srcs, third⟩ := script.srcs_cases (sampled_of_count named count) inside
  obtain ⟨isUndefined, isWide⟩ := script.mem_before
  exact ⟨target, coordinate, rest, image, _, a, params, imageParam?_cons.mp named, {
    trace
    undefined
    alone := trace.filter_undefined.trans undefined
    located := inside List.mem_cons_self
    evaluated := inside (List.mem_cons_of_mem _ List.mem_cons_self)
    shape := behind.path.keeps.values script.shape
    enough := script.enough
    widening := inside isWide
    widened := script.widened
    access := ⟨op, chooseOp_mem chosen, sample, more, value, srcs ▸ once, third⟩
    defined := fun fits => ⟨trace.defines fits (inside isWide), trace.defines fits (inside isUndefined)⟩ }⟩

namespace Canvas

def position : Rvalue := .place (.var ⟨3⟩ (.vector .int 4))

def texel : Place := .var ⟨0⟩ (.vector .float 4)

def sheet : Source.Call where
  callee := ⟨0⟩
  parameters := [.place (.var ⟨1⟩ (.image ⟨.ms, true, .float⟩)), position, .swizzle position ⟨0, 0, 0, 0⟩ 1]
  result := some texel

def volume : Source.Call where
  callee := ⟨0⟩
  parameters := [.place (.var ⟨2⟩ (.image ⟨.dim3D, true, .float⟩)), position]
  result := some texel

def program : Source.Program where
  name := "canvas"
  layout := .fragment false .none false
  vars := #[
    { name := "texel", type := .vector .float 4, mode := .shaderOut },
    { name := "sheets", type := .image ⟨.ms, true, .float⟩, mode := .uniform },
    { name := "volumes", type := .image ⟨.dim3D, true, .float⟩, mode := .uniform },
    { name := "position", type := .vector .int 4, mode := .uniform }]
  signatures := #[{
    name := "imageLoad", returnType := .vector .float 4, parameters := [], body := [], isDefined := false,
    intrinsic := some .imageLoad }]

def declared : State := (outcome (do
  let _ ← declare program ⟨0⟩
  let _ ← declare program ⟨1⟩
  let _ ← declare program ⟨2⟩
  declare program ⟨3⟩) (.initial program {})).2

def after (call : Source.Call) : State := (outcome (lowerCall program call) declared).2

end Canvas

theorem image_access_shares_undefined_canvas :
    (Runs (lowerCall Canvas.program Canvas.sheet) Canvas.declared () (Canvas.after Canvas.sheet) ∧
      ∃ padding coordinate lanes wide bitSize,
        (Canvas.after Canvas.sheet).program.Defines wide (.alu .vec4 lanes) 4 bitSize ∧
        lanes[2]? = some ⟨coordinate, .all 2⟩ ∧ lanes[3]? = some ⟨padding, .all 0⟩ ∧
        (added Canvas.declared (Canvas.after Canvas.sheet)).filter (fun i => i.operation = .undef) =
          [⟨.undef, some padding⟩]) ∧
    Runs (lowerCall Canvas.program Canvas.volume) Canvas.declared () (Canvas.after Canvas.volume) ∧
      ∃ padding, (added Canvas.declared (Canvas.after Canvas.volume)).filter (fun i => i.operation = .undef) =
          [⟨.undef, some padding⟩] ∧
        ∃ op head wide data dest, (added Canvas.declared (Canvas.after Canvas.volume)).filter
          (fun i => i.operation.isAny [.imageDerefLoad]) =
            [⟨.intrinsic op (.location head :: .ssa wide :: .ssa padding :: data) {}, dest⟩] := by
  constructor
  · have run : Runs _ _ () (Canvas.after Canvas.sheet) := runs_unit_of_isOk (by decide +kernel)
    obtain ⟨_, _, _, _, _, a, params, type, shares⟩ := image_access_shares_undefined rfl rfl rfl run
    cases params
    cases type
    exact ⟨run, a.padding, a.coordinate, a.lanes, a.wide, _, (shares.defined (by decide +kernel)).1,
      shares.widened.2 2 (by decide), shares.widened.2 3 (by decide), shares.alone⟩
  · have run : Runs _ _ () (Canvas.after Canvas.volume) := runs_unit_of_isOk (by decide +kernel)
    obtain ⟨_, _, _, _, _, a, params, type, shares⟩ := image_access_shares_undefined rfl rfl rfl run
    cases params
    cases type
    obtain ⟨op, -, _, data, dest, once, rfl⟩ := shares.access
    exact ⟨run, a.padding, shares.alone, op, a.head, a.wide, data, dest, once⟩

end ShaderSSA.Lowering
