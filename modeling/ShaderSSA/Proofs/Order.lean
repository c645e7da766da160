import ShaderSSA.Proofs.Programs

/-!
The order of instructions and values. A value is defined by the instruction that is recorded as its
producer, values are numbered in the order of these instructions, and when no signature is listed twice,
the bodies of the functions hold all instructions in order.
-/

namespace ShaderSSA

namespace Target.Program

variable {p q : Program}

/-- The values that instructions define, with these instructions, in order. -/
def definitions (p : Program) : List (ValueId × InstId) :=
  p.instrs.toList.zipIdx.filterMap fun x => x.1.dest.map fun v => (v, ⟨UInt32.ofNat x.2⟩)

/-- The values with their producers, in order. -/
def producers (p : Program) : List (ValueId × InstId) :=
  p.values.toList.zipIdx.map fun x => (⟨UInt32.ofNat x.2⟩, x.1.producer)

def instrsAt (p : Program) (i : Nat) : List InstId := (p.code? i).elim [] fun code => instrsOf code.2

theorem definitions_push {op : Operation} {dest : Option ValueId} (pushed : q.instrs = p.instrs.push ⟨op, dest⟩) :
    q.definitions = p.definitions ++ (dest.map fun v => (v, ⟨UInt32.ofNat p.instrs.size⟩)).toList := by
  simp only [definitions, pushed, Array.toList_push, List.zipIdx_append, List.filterMap_append]
  cases dest <;> simp

theorem producers_push {d : ValueDef} (pushed : q.values = p.values.push d) :
    q.producers = p.producers ++ [(⟨UInt32.ofNat p.values.size⟩, d.producer)] := by
  simp [producers, pushed, List.zipIdx_append]

section
variable {p : Program} (paired : p.definitions = p.producers)
include paired

theorem dest_iff (fits : p.Fits) {i : Nat} {x : Instr} (found : p.instrs[i]? = some x) (v : ValueId) :
    x.dest = some v ↔ ∃ d, p.value? v = some d ∧ d.producer.index.toNat = i := by
  have small : ∀ {j : Nat} {y}, p.instrs[j]? = some y → (UInt32.ofNat j).toNat = j := by
    intro j y there
    obtain ⟨inside, -⟩ := Array.getElem?_eq_some_iff.mp there
    exact UInt32.toNat_ofNat_of_lt' (Nat.lt_trans inside fits.instrs)
  have narrow : ∀ {k : Nat} {d}, p.values[k]? = some d → (UInt32.ofNat k).toNat = k := by
    intro k d there
    obtain ⟨inside, -⟩ := Array.getElem?_eq_some_iff.mp there
    exact UInt32.toNat_ofNat_of_lt' (Nat.lt_trans inside fits.values)
  constructor
  · intro defines
    have member : (v, ⟨UInt32.ofNat i⟩) ∈ p.definitions := by
      refine List.mem_filterMap.mpr ⟨(x, i), List.mk_mem_zipIdx_iff_getElem?.mpr (by simpa using found), ?_⟩
      simp [defines]
    rw [paired] at member
    obtain ⟨⟨d, k⟩, there, same⟩ := List.mem_map.mp member
    have there : p.values[k]? = some d := by simpa using List.mk_mem_zipIdx_iff_getElem?.mp there
    simp only [Prod.mk.injEq] at same
    obtain ⟨rfl, isProducer⟩ := same
    exact ⟨d, by rw [value?, narrow there, there], by rw [isProducer, small found]⟩
  · rintro ⟨d, there, rfl⟩
    have member : (v, d.producer) ∈ p.producers := by
      refine List.mem_map.mpr ⟨(d, v.index.toNat), List.mk_mem_zipIdx_iff_getElem?.mpr ?_, ?_⟩
      · rw [Array.getElem?_toList]
        exact there
      · simp
    rw [← paired] at member
    obtain ⟨⟨y, j⟩, inside, same⟩ := List.mem_filterMap.mp member
    have inside : p.instrs[j]? = some y := by simpa using List.mk_mem_zipIdx_iff_getElem?.mp inside
    simp only [Option.map_eq_some_iff, Prod.mk.injEq] at same
    obtain ⟨w, defines, rfl, isProducer⟩ := same
    rw [← isProducer, small inside, inside] at found
    rw [← Option.some.inj found, defines]

theorem dests_eq : p.instrs.toList.filterMap Instr.dest =
    (List.range p.values.size).map fun k => ⟨UInt32.ofNat k⟩ := by
  have first : p.definitions.map Prod.fst = p.instrs.toList.filterMap Instr.dest := by
    have fst : p.instrs.toList.filterMap Instr.dest =
        p.instrs.toList.zipIdx.filterMap (Instr.dest ∘ Prod.fst) := by
      rw [← List.filterMap_map, List.zipIdx_map_fst]
    rw [fst, definitions, List.map_filterMap]
    congr 1
    funext x
    cases dest : x.1.dest <;> simp [dest]
  have second : p.producers.map Prod.fst = (List.range p.values.size).map fun k => ⟨UInt32.ofNat k⟩ := by
    rw [List.range_eq_range', ← Array.length_toList, ← List.zipIdx_map_snd, producers, List.map_map,
      List.map_map]
    rfl
  rw [← first, paired, second]

end

end Target.Program

namespace Lowering
open Source Target Lower

variable {source : Source.Program} {s t : State} {layer : Layer} {p : Target.Program}

/-! ### Values and their producers -/

theorem Step.paired (h : Step layer s t) (paired : s.program.definitions = s.program.producers) :
    t.program.definitions = t.program.producers := by
  cases h with
  | effect op =>
    rw [Program.definitions_push rfl, Option.map_none, Option.toList_none, List.append_nil]
    exact paired
  | value op width bitSize =>
    rw [Program.definitions_push rfl, Program.producers_push rfl, paired]
    rfl
  | newVariable stored here added =>
    obtain ⟨_, -, instrs, values, -⟩ := Program.addVariable_vars added
    simpa [Program.definitions, Program.producers, instrs, values] using paired
  | body changed =>
    obtain ⟨_, -, rfl⟩ := Program.setBody_ok changed
    exact paired
  | root var type | append appended | discards | region region | log log | bind above known bound
  | newFunction name | scope scope same native => exact paired

theorem Path.paired (h : Path layer s t) (paired : s.program.definitions = s.program.producers) :
    t.program.definitions = t.program.producers := by
  induction h with
  | refl => exact paired
  | tail _ step ih => exact step.paired ih

/-! ### Functions in order -/

/-- The first `k` functions hold all instructions, in order, and the others have no body. -/
structure Sequenced (k : Nat) (s : State) : Prop where
  instrs : (List.range k).flatMap s.program.instrsAt = instsBetween 0 s.program.instrs.size
  empty : ∀ {i : Nat}, k ≤ i → s.program.code? i = none

namespace Sequenced
variable {k : Nat}

theorem skip (h : Sequenced k s) : Sequenced (k + 1) s where
  instrs := by
    have nothing : s.program.instrsAt k = [] := by rw [Program.instrsAt, h.empty (Nat.le_refl k)]; rfl
    rw [List.range_succ, List.flatMap_append, h.instrs, List.flatMap_singleton, nothing, List.append_nil]
  empty := fun later => h.empty (Nat.le_of_succ_le later)

theorem next (h : Sequenced k s) {signature : Signature} {f : FuncId} {code : Option Target.VarId × List Node}
    (lowers : Lowers source signature f s t code) (here : f.index.toNat = k) : Sequenced (k + 1) t where
  instrs := by
    have before : (List.range k).flatMap t.program.instrsAt = (List.range k).flatMap s.program.instrsAt := by
      rw [List.flatMap_def, List.flatMap_def]
      congr 1
      refine List.map_congr_left fun i member => ?_
      have earlier := List.mem_range.mp member
      rw [Program.instrsAt, Program.instrsAt, lowers.fills.elsewhere (by omega)]
    have last : t.program.instrsAt k = instrsOf code.2 := by
      rw [Program.instrsAt, ← here, lowers.fills.here]
      rfl
    rw [List.range_succ, List.flatMap_append, List.flatMap_singleton, before, h.instrs, last, lowers.numbered]
    exact instsBetween_append (Nat.zero_le _) (Program.Keeps.size_le lowers.keeps.instrs)
  empty := by
    intro i later
    rw [lowers.fills.elsewhere (by omega)]
    exact h.empty (by omega)

end Sequenced

/-- The signatures in `done` are lowered; as long as none is listed twice, to the first functions. -/
structure InOrder (source : Source.Program) (done : List SignatureId) (s : State) : Prop where
  filled : Filled source done s
  sequenced : done <+: source.listed → Sequenced (done.filter source.isUser).length s

namespace InOrder
variable {done : List SignatureId}

theorem declare (h : InOrder source done s) {id : Source.VarId} {v : Target.VarId}
    (run : Runs (declare source id) s v t) : InOrder source done t := by
  have kept := declare_declares run
  refine ⟨h.filled.declare run, fun first => ?_⟩
  obtain ⟨instrs, empty⟩ := h.sequenced first
  have at? : t.program.instrsAt = s.program.instrsAt := by
    funext i
    rw [Program.instrsAt, Program.instrsAt, kept.code?]
  exact ⟨by rw [at?, kept.instrs, instrs], fun later => by rw [kept.code?, empty later]⟩

theorem place (h : InOrder source done s) (fits : s.program.Fits) (once : source.listed.Nodup)
    {id : SignatureId} (first : done ++ [id] <+: source.listed) (user : source.isUser id = true) {f : FuncId}
    (callee : s.callees id = some f) : f.index.toNat = (done.filter source.isUser).length := by
  obtain ⟨rest, whole⟩ := first
  have split : source.listed.filter source.isUser =
      done.filter source.isUser ++ id :: rest.filter source.isUser := by
    rw [← whole, List.append_assoc, List.filter_append, List.singleton_append, List.filter_cons_of_pos user]
  have found := h.filled.placed fits callee
  obtain ⟨inside, -⟩ := List.getElem?_eq_some_iff.mp found
  refine (List.getElem?_inj inside (once.filter _)).mp ?_
  rw [found, split, List.getElem?_append_right (Nat.le_refl _), Nat.sub_self, List.getElem?_cons_zero]

theorem lowerSignature (h : InOrder source done s) (once : source.listed.Nodup) {id : SignatureId}
    (run : Runs (lowerSignature source id) s () t) (fits : t.program.Fits) :
    InOrder source (done ++ [id]) t := by
  refine ⟨h.filled.lowerSignature run fits, fun first => ?_⟩
  have before := h.sequenced ((List.prefix_append done [id]).trans first)
  rw [List.filter_append, List.length_append]
  obtain ⟨signature, found, ⟨builtin, rfl⟩ | ⟨user, f, resolved, outcome⟩⟩ := lowerSignature_ok run
  · have other : source.isUser id = false := by simp [Program.isUser, found, builtin]
    simpa [other] using before
  have own : source.isUser id = true := by simp [Program.isUser, found, user]
  rw [List.filter_cons_of_pos own]
  obtain ⟨-, log, rfl⟩ | ⟨-, body⟩ := outcome
  · have after := before.skip
    exact ⟨after.instrs, after.empty⟩
  · have path := (stepwise_lowerBody source signature f).path body
    obtain ⟨code, lowers⟩ := lowerBody_code h.filled.bound body fits
    exact before.next lowers (h.place (path.fits fits) once first own (Option.join_eq_some_iff.mpr resolved))

end InOrder

theorem instrsIn_eq (fits : p.Fits) {i : Nat} (inside : i < p.functions.size) :
    p.instrsIn ⟨UInt32.ofNat i⟩ = .ok (p.instrsAt i) := by
  have index : (UInt32.ofNat i).toNat = i := UInt32.toNat_ofNat_of_lt' (Nat.lt_trans inside fits.functions)
  have there : p.function? ⟨UInt32.ofNat i⟩ = some p.functions[i] := by
    rw [Program.function?, index, Array.getElem?_eq_getElem inside]
  rw [Program.instrsIn, Program.getFunction, there]
  cases body : p.functions[i].body <;>
    simp [Program.instrsAt, Program.code?, inside, body]

theorem mapM_instrsIn (fits : p.Fits) {is : List Nat} (inside : ∀ i ∈ is, i < p.functions.size) :
    (is.mapM fun i => p.instrsIn ⟨UInt32.ofNat i⟩) = .ok (is.map p.instrsAt) := by
  rw [mapM_eq_ok, List.forall₂_map_right_iff, List.forall₂_same]
  exact fun i member => instrsIn_eq fits (inside i member)

/-- Read one after the other, the functions of a lowered program hold its instructions in order. -/
theorem lower_instrsAt {capabilities : Capabilities} (h : lower source capabilities = .ok p) (fits : p.Fits)
    (once : source.listed.Nodup) : (List.range p.functions.size).flatMap p.instrsAt = instsBetween 0 p.instrs.size := by
  have start : ∀ {s}, Registers source (source.listed.filter source.isUser) s → InOrder source [] s :=
    fun registers => ⟨registers.filled, fun _ => ⟨by rw [registers.instrs]; rfl, fun _ => registers.empty _⟩⟩
  obtain ⟨t, info, rfl, -, done⟩ := lower_invariant h fits start (fun before run _ => before.declare run)
    fun before run fits => before.lowerSignature once run fits
  have sequenced := done.sequenced List.prefix_rfl
  rw [← done.filled.size] at sequenced
  exact sequenced.instrs

/-- The functions of a lowered program hold its instructions in order, and values are numbered in the order
of the instructions that define them. -/
theorem lower_ordered {capabilities : Capabilities} {p : Target.Program} (h : lower source capabilities = .ok p)
    (fits : p.Fits) (once : source.listed.Nodup) :
    ((List.range p.functions.size).mapM (fun f => p.instrsIn ⟨UInt32.ofNat f⟩)).map List.flatten =
        .ok ((List.range p.instrs.size).map fun i => ⟨UInt32.ofNat i⟩) ∧
      (∀ {i : Nat} {x}, p.instrs[i]? = some x → ∀ v, x.dest = some v ↔
        ∃ d, p.value? v = some d ∧ d.producer.index.toNat = i) ∧
      p.instrs.toList.filterMap Instr.dest = (List.range p.values.size).map fun k => ⟨UInt32.ofNat k⟩ := by
  have joined := lower_instrsAt h fits once
  obtain ⟨s, t, info, registered, lowered, rfl⟩ := lower_ok h
  have small : t.program.Fits := ⟨fits.instrs, fits.values, fits.vars, fits.links, fits.functions⟩
  have path : Path .program (.initial source capabilities) t :=
    ((stepwise_registerAll ..).path registered).trans ((stepwise_lowerAll ..).path lowered)
  have paired := path.paired rfl
  refine ⟨?_, Program.dest_iff paired small, Program.dests_eq paired⟩
  rw [mapM_instrsIn fits fun i member => List.mem_range.mp member]
  rw [List.flatMap_def, instsBetween, Nat.sub_zero, ← List.range_eq_range'] at joined
  exact congrArg Except.ok joined

theorem lower_ordered_sample : ∃ p, lower Sample.program {} = .ok p ∧ p.Fits ∧
    Sample.program.listed.Nodup ∧ p.instrs.size = 14 ∧
    ((List.range p.functions.size).mapM (fun f => p.instrsIn ⟨UInt32.ofNat f⟩)).map List.flatten =
      .ok ((List.range 14).map fun i => ⟨UInt32.ofNat i⟩) ∧
    p.instrs.toList.filterMap Instr.dest = (List.range p.values.size).map fun k => ⟨UInt32.ofNat k⟩ := by
  obtain ⟨p, lowered, fits, size, -⟩ := Sample.lowers
  have once : Sample.program.listed.Nodup := by decide
  obtain ⟨functions, -, values⟩ := lower_ordered lowered fits once
  rw [size] at functions
  exact ⟨p, lowered, fits, once, size, functions, values⟩

end Lowering

end ShaderSSA
