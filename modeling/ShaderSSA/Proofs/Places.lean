import ShaderSSA.Proofs.Progress

/-!
Chains of places. The chain of a place has one link for each part of the place, root first, and the code
emitted for it is that of its indices, from the root outwards. Evaluating an index may build other chains
between two links of this one, but it leaves all links alone that are there before. A chain is built only if
every part has the type that its whole gives it, also where the indices are computed from other places.
-/

namespace ShaderSSA

namespace Source
open Target

namespace Place

/-- A part has the type that its whole gives it. -/
def narrows : Place → Bool
  | .var .. => true
  | .field record index type => record.type.field? index = some type
  | .element array _ type => array.type.indexResult? = some type

/-- The place, and what it is a part of up to its variable. -/
def wholes : Place → List Place
  | .var id type => [.var id type]
  | .field record index type => .field record index type :: record.wholes
  | .element array index type => .element array index type :: array.wholes

/-- The indices that are no literals, from the root outwards. -/
def indices : Place → List Rvalue
  | .var .. => []
  | .field record _ _ => record.indices
  | .element array index _ => array.indices ++ if index.constant?.isSome then [] else [index]

/-- The links that stand for a place where variables have the given bindings and its indices the given values. -/
inductive Links (bindings : Array (Option Target.VarId)) :
    Place → List ValueId → List (LinkKind × ShaderType) → Prop where
  | var {id : VarId} {type : ShaderType} {v : Target.VarId} (bound : bindings[id.index.toNat]? = some (some v)) :
      Links bindings (.var id type) [] [(.var v, type)]
  | field {record : Place} {index : UInt32} {type : ShaderType} {values : List ValueId}
      {links : List (LinkKind × ShaderType)} (whole : Links bindings record values links) :
      Links bindings (.field record index type) values (links ++ [(.struct index, type)])
  | direct {array : Place} {l : Literal} {type : ShaderType} {word : UInt32} {values : List ValueId}
      {links : List (LinkKind × ShaderType)} (whole : Links bindings array values links) (read : l.word? = some word) :
      Links bindings (.element array (.constant l) type) values (links ++ [(.array (.direct word), type)])
  | indirect {array : Place} {index : Rvalue} {type : ShaderType} {v : ValueId} {values : List ValueId}
      {links : List (LinkKind × ShaderType)} (whole : Links bindings array values links)
      (computed : index.constant? = none) :
      Links bindings (.element array index type) (values ++ [v]) (links ++ [(.array (.indirect v), type)])

end Place

end Source

namespace Lowering
open Source Target Lower

variable {source : Source.Program} {s u t : State} {chain : Chain} {v : ValueId} {type : ShaderType} {op : ExprOp}
  {p : Place}

/-- The state without its links. -/
def State.unlinked (s : State) : State := { s with program := { s.program with links := #[] } }

/-- An index that was evaluated. -/
structure Evaluation (source : Source.Program) where
  index : Rvalue
  before : State
  value : ValueId
  after : State
  run : Runs (evaluate source index) before value after

namespace Evaluation

def instrs (e : Evaluation source) : List Instr := e.after.program.instrs.toList.drop e.before.program.instrs.size

def nodes (e : Evaluation source) : List Node := e.after.region.toList.drop e.before.region.size

end Evaluation

/-- From `s` to `t` the indices are evaluated one after the other, with nothing but links added between them. -/
inductive Consecutive : State → List (Evaluation source) → State → Prop where
  | done {s t : State} (same : s.unlinked = t.unlinked) : Consecutive s [] t
  | next {s t : State} {e : Evaluation source} {es : List (Evaluation source)} (same : s.unlinked = e.before.unlinked)
      (rest : Consecutive e.after es t) : Consecutive s (e :: es) t

namespace Consecutive
variable {es : List (Evaluation source)}

theorem relink (h : Consecutive s es u) (same : u.unlinked = t.unlinked) : Consecutive s es t := by
  induction h with
  | done before => exact .done (before.trans same)
  | next before _ ih => exact .next before (ih same)

theorem snoc {e : Evaluation source} (h : Consecutive s es u) (same : u.unlinked = e.before.unlinked) :
    Consecutive s (es ++ [e]) e.after := by
  induction h with
  | done before => exact .next (before.trans same) (.done rfl)
  | next before _ ih => exact .next before (ih same)

end Consecutive

/-! ### Laying a chain -/

/-- In `t`, the links at `spots` are a chain for the place that was begun in `s`. -/
structure Laid (p : Place) (s t : State) (chain : Chain) (values : List ValueId) (spots : List Spot) : Prop where
  threaded : t.program.links.Threaded spots
  links : p.Links s.scope.vars values (spots.map fun x => (x.kind, x.type))
  head : spots.head?.map Spot.id = some chain.head
  last : ∃ before x, spots = before ++ [x] ∧ x.id = chain.tail ∧ x.type = p.type
  fresh : ∀ x ∈ spots, s.program.links.size ≤ x.position
  kept : ∀ {i : Nat} {l}, s.program.links[i]? = some l → t.program.links[i]? = some l
  narrows : p.narrows = true

namespace Laid
variable {p q : Place} {chain next : Chain} {values : List ValueId} {spots : List Spot}

theorem along (h : Laid p s u chain values spots)
    (kept : ∀ {i : Nat} {l}, u.program.links[i]? = some l → t.program.links[i]? = some l) :
    Laid p s t chain values spots :=
  { h with threaded := h.threaded.congr fun _ _ _ => kept, kept := fun found => kept (h.kept found) }

theorem root {id : Source.VarId} {v : Target.VarId}
    (bound : s.scope.vars[id.index.toNat]? = some (some v)) (run : Runs (rootChain v type) s chain t) :
    Laid (.var id type) s t chain [] [⟨s.program.links.size, .var v, type⟩] := by
  obtain ⟨rfl, rfl⟩ := rootChain_ok run
  exact {
    threaded := .last Array.getElem?_push_size
    links := .var bound
    head := rfl
    last := ⟨[], _, rfl, rfl, rfl⟩
    fresh := by simp
    kept := getElem?_push_of_some
    narrows := rfl }

theorem append {kind : LinkKind} {more : List ValueId} (h : Laid p s u chain values spots)
    (run : Runs (appendLink chain kind type) u next t) (small : u.program.links.size < UInt32.size) (is : q.type = type)
    (narrows : Links.narrowed? kind p.type = .ok (some type) → q.narrows = true)
    (part : ∀ {links}, p.Links s.scope.vars values links → q.Links s.scope.vars more (links ++ [(kind, type)])) :
    Laid q s t next more (spots ++ [⟨u.program.links.size, kind, type⟩]) := by
  obtain ⟨links, appended, rfl⟩ := appendLink_ok run
  obtain ⟨parent, found, narrowed, rfl, rfl⟩ := append_ok appended
  obtain ⟨before, x, rfl, tail, type'⟩ := h.last
  have inside := h.threaded.lt_size x (by simp)
  have position : chain.tail.index.toNat = x.position := by
    rw [← tail]
    exact Spot.id_index (Nat.lt_trans inside small)
  rw [position, h.threaded.last_found] at found
  obtain rfl := Option.some.inj found
  exact {
    threaded := by
      rw [position, List.append_assoc]
      exact h.threaded.append
    links := by
      rw [List.map_append]
      exact part h.links
    head := by
      have first := h.head
      cases before <;> simpa using first
    last := ⟨before ++ [x], _, rfl, rfl, is.symm⟩
    fresh := by
      intro y member
      rcases List.mem_append.mp member with member | member
      · exact h.fresh y member
      · obtain rfl := List.mem_singleton.mp member
        have begun := h.fresh x (by simp)
        simp only
        omega
    kept := by
      intro i l there
      obtain ⟨bound, -⟩ := Array.getElem?_eq_some_iff.mp there
      have begun := h.fresh x (by simp)
      rw [position, Array.getElem?_modify, if_neg (by omega)]
      exact getElem?_push_of_some (h.kept there)
    narrows := by
      rw [← type'] at narrows
      exact narrows narrowed }

end Laid

/-! ### Code of a chain -/

/-- The code that was emitted from `s` to `t` is that of the indices. -/
structure Emitted (s : State) (es : List (Evaluation source)) (t : State) : Prop where
  consecutive : Consecutive s es t
  instrs : t.program.instrs.toList = s.program.instrs.toList ++ es.flatMap Evaluation.instrs
  region : t.region.toList = s.region.toList ++ es.flatMap Evaluation.nodes

namespace Emitted
variable {es : List (Evaluation source)}

theorem relink (h : Emitted s es u) (same : u.unlinked = t.unlinked) : Emitted s es t where
  consecutive := h.consecutive.relink same
  instrs := by
    rw [← h.instrs]
    exact congrArg (fun s => s.program.instrs.toList) same.symm
  region := by
    rw [← h.region]
    exact congrArg (fun s => s.region.toList) same.symm

theorem refl (s : State) : Emitted s ([] : List (Evaluation source)) s :=
  ⟨.done rfl, by simp, by simp⟩

end Emitted

theorem toList_of_kept {α : Type} {xs ys : Array α} (kept : ∀ {i : Nat} {x}, xs[i]? = some x → ys[i]? = some x) :
    ys.toList = xs.toList ++ ys.toList.drop xs.size := by
  have front : xs.toList <+: ys.toList := by
    rw [List.prefix_iff_getElem?]
    intro i inside
    rw [Array.getElem?_toList]
    exact kept (Array.getElem?_eq_getElem inside)
  exact (List.prefix_iff_eq_append.mp front).symm

theorem evaluate_adds {r : Rvalue} (bound : s.Bound) (run : Runs (evaluate source r) s v t) (fits : t.program.Fits) :
    s.program.Extends t.program ∧ ∃ nodes, t.region.toList = s.region.toList ++ nodes := by
  obtain ⟨nodes, tree, -, code⟩ : ∃ nodes tree, r.tree s.env = some tree ∧
      Code s.env none s t nodes [(v, tree)] [] [] := evaluate_code source r bound.ready run fits
  exact ⟨code.keeps, nodes, code.region⟩

theorem Emitted.evaluate {e : Evaluation source} {es : List (Evaluation source)} (h : Emitted s es e.before)
    (bound : e.before.Bound) (fits : e.after.program.Fits) : Emitted s (es ++ [e]) e.after := by
  obtain ⟨keeps, nodes, region⟩ := evaluate_adds bound e.run fits
  refine ⟨h.consecutive.snoc rfl, ?_, ?_⟩
  · rw [toList_of_kept keeps.instrs, h.instrs]
    simp [Evaluation.instrs]
  · have added : e.nodes = nodes := by
      rw [Evaluation.nodes, region]
      exact List.drop_left
    rw [region, h.region, List.flatMap_append, List.append_assoc, ← added]
    simp

theorem Runs.bound {α : Type} {m : Lower α} {a : α} (run : Runs m s a t) (steps : Stepwise .statement m)
    (bound : s.Bound) : t.Bound := (steps.path run).bound bound

/-- Building the chain of a place lays its links and emits the code of its indices. -/
theorem placeChain_laid (bound : s.Bound) (run : Runs (placeChain source p) s chain t)
    (fits : t.program.Fits) : ∃ (es : List (Evaluation source)) (spots : List Spot),
      es.map Evaluation.index = p.indices ∧ Emitted s es t ∧ Laid p s t chain (es.map Evaluation.value) spots := by
  -- along the spine of the place, as its indices are collected
  induction p using Place.indices.induct generalizing chain t with
  | case1 id type =>
    obtain ⟨var, resolved, rootRun⟩ := placeChain_var run
    have laid : Laid (.var id type) s t chain [] _ := .root (resolveVariable_ok resolved) rootRun
    obtain ⟨-, rfl⟩ := rootChain_ok rootRun
    exact ⟨[], _, rfl, (Emitted.refl s).relink rfl, laid⟩
  | case2 record index type ih =>
    obtain ⟨before, u, recordRun, linkRun⟩ := placeChain_field run
    have small := linkRun.fits_before (by simp) fits
    obtain ⟨es, spots, indices, emitted, laid⟩ := ih recordRun small
    have extended := laid.append (q := .field record index type) linkRun small.links rfl
      (by simp [Links.narrowed?, Place.narrows]) .field
    obtain ⟨links, -, rfl⟩ := appendLink_ok linkRun
    exact ⟨es, _, indices, emitted.relink rfl, extended⟩
  | case3 array index type ih =>
    obtain ⟨before, u, arrayRun, ⟨l, word, rfl, read, linkRun⟩ | ⟨computed, v, w, valueRun, linkRun⟩⟩ :=
      placeChain_element run
    · have small := linkRun.fits_before (by simp) fits
      obtain ⟨es, spots, indices, emitted, laid⟩ := ih arrayRun small
      have extended := laid.append (q := .element array (.constant l) type) linkRun small.links rfl
        (by simp [Links.narrowed?, Place.narrows]) (.direct · read)
      obtain ⟨links, -, rfl⟩ := appendLink_ok linkRun
      exact ⟨es, _, by simp [Place.indices, indices, Rvalue.constant?], emitted.relink rfl, extended⟩
    · have small := linkRun.fits_before (by simp) fits
      obtain ⟨es, spots, indices, emitted, laid⟩ := ih arrayRun (valueRun.fits_before (by simp) small)
      have inside := arrayRun.bound (by simp) bound
      -- evaluating the index may build other chains, but the chain so far keeps its links
      obtain ⟨keeps, -⟩ := evaluate_adds inside valueRun small
      have emitted' := emitted.evaluate (e := ⟨index, u, v, w, valueRun⟩) inside small
      have still := laid.along (keeps.links trivial)
      have extended := still.append (q := .element array index type) linkRun small.links rfl
        (by simp [Links.narrowed?, Place.narrows]) (.indirect · computed)
      obtain ⟨links, -, rfl⟩ := appendLink_ok linkRun
      exact ⟨_, _, by simp [Place.indices, indices, computed], emitted'.relink rfl, by simpa using extended⟩

/-! ### Parts of parts -/

/-- What can be lowered to values or chains. -/
inductive Part where
  | value (r : Rvalue)
  | place (p : Place)

/-- The operator evaluates its operand number `i`. -/
def evaluatesOperand (op : ExprOp) (i : Nat) : Bool :=
  match op with
  | .uboLoad => i < 2
  | .getBufferSize => i = 0
  | .interpolateAtCentroid => false
  | .interpolateAtOffset | .interpolateAtSample => i = 1
  | _ => true

def lodValues : LodInfo → List Rvalue
  | .absent | .component _ => []
  | .bias r | .lod r | .sampleIndex r => [r]
  | .grad dpdx dpdy => [dpdx, dpdy]

def textureValues : Texture → List Rvalue
  | ⟨_, _, _, coordinate, projector, comparator, offset, lod⟩ =>
    coordinate.toList ++ projector.toList ++ comparator.toList ++ offset.toList ++ lodValues lod

/-- Lowering the first part lowers the second one. Operands that an operator does not read are not lowered. -/
inductive Part.Uses : Part → Part → Prop where
  | load {p : Place} : Uses (.value (.place p)) (.place p)
  | selected {r : Rvalue} {lanes : Lanes} {width : UInt8} : Uses (.value (.swizzle r lanes width)) (.value r)
  | operand {op : ExprOp} {type : ShaderType} {operands : List Rvalue} {i : Nat} {r : Rvalue}
      (evaluated : evaluatesOperand op i = true) (found : operands[i]? = some r) :
      Uses (.value (.expression op type operands)) (.value r)
  | interpolant {op : ExprOp} {type : ShaderType} {p : Place} {rest : List Rvalue}
      (interpolates : (interpolation? op).isSome = true) :
      Uses (.value (.expression op type (.place p :: rest))) (.place p)
  | sampler {texture : Texture} : Uses (.value (.texture texture)) (.place texture.sampler)
  | source {texture : Texture} {r : Rvalue} (member : r ∈ textureValues texture) :
      Uses (.value (.texture texture)) (.value r)
  | record {record : Place} {index : UInt32} {type : ShaderType} :
      Uses (.place (.field record index type)) (.place record)
  | array {array : Place} {index : Rvalue} {type : ShaderType} :
      Uses (.place (.element array index type)) (.place array)
  | index {array : Place} {index : Rvalue} {type : ShaderType} (computed : index.constant? = none) :
      Uses (.place (.element array index type)) (.value index)

/-- The part is lowered in some state. -/
def Part.Lowered (source : Source.Program) : Part → Prop
  | .value r => ∃ s v t, s.Bound ∧ Runs (evaluate source r) s v t ∧ t.program.Fits
  | .place p => ∃ s chain t, s.Bound ∧ Runs (placeChain source p) s chain t ∧ t.program.Fits

theorem evaluateAll_lowered {rs : List Rvalue} {vs : List ValueId} (bound : s.Bound)
    (run : Runs (evaluateAll source rs) s vs t) (fits : t.program.Fits) : ∀ r ∈ rs, (Part.value r).Lowered source := by
  induction rs generalizing s vs with
  | nil => simp
  | cons r rs ih =>
    obtain ⟨v, u, vs, first, rest, -⟩ := runs_evaluateAll_cons.mp run
    intro x member
    rcases List.mem_cons.mp member with rfl | member
    · exact ⟨s, v, u, bound, first, rest.fits_before (by simp) fits⟩
    · exact ih (first.bound (by simp) bound) rest x member

theorem evaluateOperand_found {number skip : Nat} {rs : List Rvalue}
    (run : Runs (evaluateOperand source op number skip rs) s v t) :
    ∃ r, rs[skip]? = some r ∧ Runs (evaluate source r) s v t := by
  induction rs generalizing skip with
  | nil =>
    simp only [evaluateOperand] at run
    exact (runs_abort run).elim
  | cons r rs ih =>
    cases skip with
    | zero =>
      simp only [evaluateOperand] at run
      exact ⟨r, rfl, run⟩
    | succ skip =>
      simp only [evaluateOperand] at run
      exact ih run

theorem evaluatesOperand_of_interpolation {intrinsic : IntrinsicOp} {i : Nat}
    (interpolates : interpolation? op = some intrinsic) (evaluated : evaluatesOperand op i = true) : i = 1 := by
  cases op <;> simp_all [interpolation?, evaluatesOperand]

theorem expression_lowered {operands : List Rvalue} (bound : s.Bound)
    (run : Runs (evaluate source (.expression op type operands)) s v t) (fits : t.program.Fits) :
    (∀ {i : Nat} {r}, evaluatesOperand op i = true → operands[i]? = some r → (Part.value r).Lowered source) ∧
      ((interpolation? op).isSome = true → ∀ {p rest}, operands = .place p :: rest →
        (Part.place p).Lowered source) := by
  have operand : ∀ {op n i r w s t}, s.Bound → Runs (evaluateOperand source op n i operands) s w t →
      t.program.Fits → operands[i]? = some r → (Part.value r).Lowered source := by
    intro op n i r w s t bound run fits found
    obtain ⟨r', found', run⟩ := evaluateOperand_found run
    obtain rfl := Option.some.inj (found.symm.trans found')
    exact ⟨s, w, t, bound, run, fits⟩
  have interpolant : ∀ {op chain u}, Runs (interpolantChain source op operands) s chain u → u.program.Fits →
      ∀ {p rest}, operands = .place p :: rest → (Part.place p).Lowered source := by
    intro op chain u chainRun fits p rest same
    subst same
    rw [interpolantChain] at chainRun
    exact ⟨s, chain, u, bound, chainRun, fits⟩
  cases evaluate_expression run with
  | uboLoad blockRun offsetRun loadRun =>
    have later := loadRun.fits_before (by simp) fits
    refine ⟨fun {i r} evaluated found => ?_, by simp [interpolation?]⟩
    have few : i = 0 ∨ i = 1 := by
      simp only [evaluatesOperand, decide_eq_true_eq] at evaluated
      omega
    rcases few with rfl | rfl
    · exact operand bound blockRun (offsetRun.fits_before (by simp) later) found
    · exact operand (blockRun.bound (by simp) bound) offsetRun later found
  | size blockRun sizeRun =>
    refine ⟨fun {i r} evaluated found => ?_, by simp [interpolation?]⟩
    obtain rfl : i = 0 := by simpa [evaluatesOperand] using evaluated
    exact operand bound blockRun (sizeRun.fits_before (by simp) fits) found
  | centroid chainRun takeRun =>
    exact ⟨fun evaluated => by simp [evaluatesOperand] at evaluated,
      fun _ => interpolant chainRun (takeRun.fits_before (by simp) fits)⟩
  | sample named other chainRun sampleRun takeRun =>
    have later := takeRun.fits_before (by simp) fits
    refine ⟨fun {i r} evaluated found => ?_, fun _ => interpolant chainRun (sampleRun.fits_before (by simp) later)⟩
    obtain rfl := evaluatesOperand_of_interpolation named evaluated
    exact operand (chainRun.bound (by simp) bound) sampleRun later found
  | convert _ valuesRun convertRun =>
    refine ⟨fun {i r} _ found => ?_, by simp [interpolation?]⟩
    exact evaluateAll_lowered bound valuesRun (convertRun.fits_before (by simp) fits) r (List.mem_of_getElem? found)
  | compute _ _ whole _ valuesRun computeRun =>
    refine ⟨fun {i r} _ found => ?_, by simp [whole]⟩
    exact evaluateAll_lowered bound valuesRun (computeRun.fits_before (by simp) fits) r (List.mem_of_getElem? found)

theorem textureSource_lowered {kind : TexSrcKind} {r : Option Rvalue} {srcs : List TexSrc} (bound : s.Bound)
    (run : Runs (textureSource source kind r) s srcs t) (fits : t.program.Fits) :
    ∀ x ∈ r.toList, (Part.value x).Lowered source := by
  cases r with
  | none => simp
  | some r =>
    simp only [textureSource, runs_bind, runs_pure] at run
    obtain ⟨v, _, valueRun, -, rfl⟩ := run
    intro x member
    obtain rfl : x = r := by simpa using member
    exact ⟨s, v, t, bound, valueRun, fits⟩

theorem lodSources_lowered {op : TextureOp} {lod : LodInfo} {result : List TexSrc × UInt8} (bound : s.Bound)
    (run : Runs (lodSources source op lod) s result t) (fits : t.program.Fits) :
    ∀ x ∈ lodValues lod, (Part.value x).Lowered source := by
  cases lod with
  | absent | component => simp [lodValues]
  | bias r | lod r | sampleIndex r =>
    simp only [lodSources, runs_unless, runs_bind, runs_pure] at run
    obtain ⟨-, v, _, valueRun, -, rfl⟩ := run
    intro x member
    obtain rfl : x = r := by simpa [lodValues] using member
    exact ⟨s, v, t, bound, valueRun, fits⟩
  | grad dpdx dpdy =>
    simp only [lodSources, runs_unless, runs_bind, runs_pure] at run
    obtain ⟨-, v, u, xRun, w, _, yRun, -, rfl⟩ := run
    intro r member
    obtain rfl | rfl : r = dpdx ∨ r = dpdy := by simpa [lodValues] using member
    · exact ⟨s, v, u, bound, xRun, yRun.fits_before (by simp) fits⟩
    · exact ⟨u, w, t, xRun.bound (by simp) bound, yRun, fits⟩

theorem texture_lowered {texture : Texture} (bound : s.Bound) (run : Runs (evaluateTexture source texture) s v t)
    (fits : t.program.Fits) :
    (Part.place texture.sampler).Lowered source ∧ ∀ r ∈ textureValues texture, (Part.value r).Lowered source := by
  obtain ⟨op, type, sampler, coordinate, projector, comparator, offset, lod⟩ := texture
  simp only [evaluateTexture, runs_bind, runs_check] at run
  obtain ⟨_, _, ⟨-, rfl⟩, _, _, ⟨-, rfl⟩, chain, s₁, run₁, _, s₂, run₂, _, s₃, run₃, _, s₄, run₄, _, _, ⟨-, rfl⟩,
    _, s₅, run₅, ⟨_, component⟩, s₆, run₆, run⟩ := run
  simp only [runs_unless] at run
  obtain ⟨-, run⟩ := run
  have fits₆ := run.fits_before (by simp) fits
  have fits₅ := run₆.fits_before (by simp) fits₆
  have fits₄ := run₅.fits_before (by simp) fits₅
  have fits₃ := run₄.fits_before (by simp) fits₄
  have fits₂ := run₃.fits_before (by simp) fits₃
  have fits₁ := run₂.fits_before (by simp) fits₂
  have bound₁ := run₁.bound (by simp) bound
  have bound₂ := run₂.bound (by simp) bound₁
  have bound₃ := run₃.bound (by simp) bound₂
  have bound₄ := run₄.bound (by simp) bound₃
  have bound₅ := run₅.bound (by simp) bound₄
  refine ⟨⟨_, chain, s₁, bound, run₁, fits₁⟩, fun r member => ?_⟩
  simp only [textureValues, List.mem_append] at member
  rcases member with (((member | member) | member) | member) | member
  · exact textureSource_lowered bound₁ run₂ fits₂ r member
  · exact textureSource_lowered bound₂ run₃ fits₃ r member
  · exact textureSource_lowered bound₃ run₄ fits₄ r member
  · exact textureSource_lowered bound₄ run₅ fits₅ r member
  · exact lodSources_lowered bound₅ run₆ fits₆ r member

/-- Lowering a part lowers what it uses. -/
theorem Part.Uses.lowered {a b : Part} (uses : Part.Uses a b) (h : a.Lowered source) : b.Lowered source := by
  cases uses with
  | load =>
    obtain ⟨s, v, t, bound, run, fits⟩ := h
    obtain ⟨chain, u, chainRun, loadRun⟩ := evaluate_place run
    exact ⟨_, chain, u, bound, chainRun, loadRun.fits_before (by simp) fits⟩
  | selected =>
    obtain ⟨s, v, t, bound, run, fits⟩ := h
    obtain ⟨w, u, valueRun, orderRun⟩ := evaluate_swizzle run
    exact ⟨s, w, u, bound, valueRun, orderRun.fits_before (by simp) fits⟩
  | operand evaluated found =>
    obtain ⟨s, v, t, bound, run, fits⟩ := h
    exact (expression_lowered bound run fits).1 evaluated found
  | interpolant interpolates =>
    obtain ⟨s, v, t, bound, run, fits⟩ := h
    exact (expression_lowered bound run fits).2 interpolates rfl
  | sampler =>
    obtain ⟨s, v, t, bound, run, fits⟩ := h
    rw [evaluate] at run
    exact (texture_lowered bound run fits).1
  | source member =>
    obtain ⟨s, v, t, bound, run, fits⟩ := h
    rw [evaluate] at run
    exact (texture_lowered bound run fits).2 _ member
  | record =>
    obtain ⟨s, chain, t, bound, run, fits⟩ := h
    obtain ⟨before, u, recordRun, linkRun⟩ := placeChain_field run
    exact ⟨s, before, u, bound, recordRun, linkRun.fits_before (by simp) fits⟩
  | array =>
    obtain ⟨s, chain, t, bound, run, fits⟩ := h
    obtain ⟨before, u, arrayRun, ⟨l, word, rfl, -, linkRun⟩ | ⟨-, v, w, valueRun, linkRun⟩⟩ := placeChain_element run
    · exact ⟨s, before, u, bound, arrayRun, linkRun.fits_before (by simp) fits⟩
    · have later := linkRun.fits_before (by simp) fits
      exact ⟨s, before, u, bound, arrayRun, valueRun.fits_before (by simp) later⟩
  | index computed =>
    obtain ⟨s, chain, t, bound, run, fits⟩ := h
    obtain ⟨before, u, arrayRun, ⟨l, word, rfl, -, -⟩ | ⟨-, v, w, valueRun, linkRun⟩⟩ := placeChain_element run
    · cases computed
    · exact ⟨u, v, w, arrayRun.bound (by simp) bound, valueRun, linkRun.fits_before (by simp) fits⟩

theorem Part.Lowered.reached {a b : Part} (h : a.Lowered source) (reached : Relation.ReflTransGen Part.Uses a b) :
    b.Lowered source := by
  induction reached with
  | refl => exact h
  | tail _ uses ih => exact uses.lowered ih

theorem uses_wholes {q : Place} (whole : q ∈ p.wholes) : Relation.ReflTransGen Part.Uses (.place p) (.place q) := by
  induction p using Place.wholes.induct with
  | case1 id type =>
    obtain rfl := List.mem_singleton.mp whole
    exact .refl
  | case2 record index type ih =>
    rcases List.mem_cons.mp whole with rfl | whole
    · exact .refl
    · exact .head .record (ih whole)
  | case3 array index type ih =>
    rcases List.mem_cons.mp whole with rfl | whole
    · exact .refl
    · exact .head .array (ih whole)

theorem narrows_of_lowered (h : (Part.place p).Lowered source) : p.narrows = true := by
  obtain ⟨s, chain, t, bound, run, fits⟩ := h
  obtain ⟨_, _, _, _, laid⟩ := placeChain_laid bound run fits
  exact laid.narrows

/-! ### The chain of a place -/

/-- Walking a chain that was laid visits its links up to the tail. -/
theorem Laid.walk {values : List ValueId} {spots : List Spot} (h : Laid p s t chain values spots)
    (small : t.program.links.size < UInt32.size) : t.program.links.walk chain.head = .ok (Links.thread spots) ∧
      ∃ last, (Links.thread spots).getLast? = some (chain.tail, last) ∧ last.child = none := by
  obtain ⟨before, x, split, tail, -⟩ := h.last
  cases spots with
  | nil => simp at split
  | cons y rest =>
    have head : y.id = chain.head := by simpa using h.head
    refine ⟨head ▸ h.threaded.walk small, ⟨x.kind, x.type, none⟩, ?_, rfl⟩
    rw [Links.thread_getLast?, ← tail]
    simp [split]

/-- The chain of a place is a link for each part of the place, and its code that of the place's indices. The fields and
elements that the place is made of have the types that their wholes give them. So do those in the places that its
indices use; of operands that an operator never reads nothing is said, as they are not lowered. -/
theorem placeChain_translates {p : Place} {chain : Chain} (bound : s.Bound)
    (run : Runs (placeChain source p) s chain t) (fits : t.program.Fits) :
    ∃ (es : List (Evaluation source)) (walked : List (LinkId × Link)),
      es.map Evaluation.index = p.indices ∧ Emitted s es t ∧
        (p.indices = [] → t.program.instrs = s.program.instrs ∧ t.region.toList = s.region.toList) ∧
      t.program.links.walk chain.head = .ok walked ∧
        p.Links s.scope.vars (es.map Evaluation.value) (walked.map fun l => (l.2.kind, l.2.type)) ∧
        (∃ last, walked.getLast? = some (chain.tail, last) ∧ last.child = none) ∧
      (∀ {i : Nat} {l}, s.program.links[i]? = some l → t.program.links[i]? = some l) ∧
      (∀ q ∈ p.wholes, q.narrows = true) ∧
      ∀ q, Relation.ReflTransGen Part.Uses (.place p) (.place q) → q.narrows = true := by
  obtain ⟨es, spots, indices, emitted, laid⟩ := placeChain_laid bound run fits
  obtain ⟨walks, last⟩ := laid.walk fits.links
  have lowered : (Part.place p).Lowered source := ⟨s, chain, t, bound, run, fits⟩
  have narrows : ∀ q, Relation.ReflTransGen Part.Uses (.place p) (.place q) → q.narrows = true :=
    fun q reached => narrows_of_lowered (lowered.reached reached)
  refine ⟨es, Links.thread spots, indices, emitted, fun literal => ?_, walks, ?_, last, laid.kept,
    fun q whole => narrows q (uses_wholes whole), narrows⟩
  · obtain rfl : es = [] := by simpa [literal] using indices
    exact ⟨Array.toList_inj.mp (by simpa using emitted.instrs), by simpa using emitted.region⟩
  · rw [thread_links]
    exact laid.links

namespace Swatches

def entry : ShaderType := .struct "Entry" [("tint", .vector .float 4), ("weights", .array (.scalar .float) 2)]

def slot : Rvalue :=
  .place (.element (.var ⟨1⟩ (.array (.scalar .int) 4)) (.place (.var ⟨2⟩ (.scalar .int))) (.scalar .int))

def weight : Place :=
  .element (.field (.element (.var ⟨0⟩ (.array entry 3)) slot entry) 1 (.array (.scalar .float) 2)) (.constant (.int 1))
    (.scalar .float)

def program : Source.Program where
  name := "swatches"
  layout := .fragment false .none false
  vars := #[
    { name := "colors", type := .array entry 3, mode := .uniform },
    { name := "table", type := .array (.scalar .int) 4, mode := .uniform },
    { name := "choice", type := .scalar .int, mode := .shaderIn }]

def declareAll : Lower Unit := do
  let _ ← declare program ⟨0⟩
  let _ ← declare program ⟨1⟩
  let _ ← declare program ⟨2⟩

def declared : State := (outcome declareAll (.initial program {})).2

theorem declared_bound : declared.Bound := by
  have steps : Stepwise .statement declareAll := by
    unfold declareAll
    repeat' first | with_reducible apply stepwise_bind | intro _ | simp
  obtain ⟨_, run⟩ : ∃ a, Runs declareAll (.initial program {}) a declared := runs_of_isOk (by decide +kernel)
  exact run.bound steps (initial_bound program {})

def after : State := (outcome (placeChain program weight) declared).2

theorem weight_runs : ∃ chain, Runs (placeChain program weight) declared chain after :=
  runs_of_isOk (by decide +kernel)

end Swatches

theorem placeChain_translates_weight : ∃ chain,
    Runs (placeChain Swatches.program Swatches.weight) Swatches.declared chain Swatches.after ∧
    Swatches.declared.Bound ∧ Swatches.after.program.Fits ∧
    ∃ (e : Evaluation Swatches.program) (walked : List (LinkId × Link)), e.index = Swatches.slot ∧
      Swatches.after.program.links.walk chain.head = .ok walked ∧
      walked.map (fun l => (l.2.kind, l.2.type)) = [(.var ⟨0⟩, .array Swatches.entry 3),
        (.array (.indirect e.value), Swatches.entry), (.struct 1, .array (.scalar .float) 2),
        (.array (.direct 1), .scalar .float)] := by
  have fits : Swatches.after.program.Fits := by decide +kernel
  obtain ⟨chain, run⟩ := Swatches.weight_runs
  obtain ⟨es, walked, indices, -, -, walks, links, -⟩ := placeChain_translates Swatches.declared_bound run fits
  obtain ⟨e, rfl, slot⟩ : ∃ e, es = [e] ∧ e.index = Swatches.slot := by
    simpa [Swatches.weight, Place.indices, Rvalue.constant?, Swatches.slot] using indices
  refine ⟨chain, run, Swatches.declared_bound, fits, e, walked, slot, walks, ?_⟩
  generalize walked.map (fun l => (l.2.kind, l.2.type)) = shown at links
  generalize same : [e].map Evaluation.value = values at links
  cases links with
  | indirect _ computed => cases computed
  | direct whole read =>
    cases whole with
    | field whole =>
      cases whole with
      | indirect whole _ =>
        cases whole with
        | var bound =>
          obtain rfl := Option.some.inj (read.symm.trans (rfl : Literal.word? (.int 1) = some 1))
          have first : Swatches.declared.scope.vars[0]? = some (some ⟨0⟩) := by decide +kernel
          obtain rfl := Option.some.inj (Option.some.inj (bound.symm.trans first))
          obtain rfl := List.head_eq_of_cons_eq same
          rfl

end Lowering

end ShaderSSA
