import Mathlib.Algebra.BigOperators.Group.List.Basic
import ShaderSSA.Proofs.Discards
import ShaderSSA.Proofs.Packing
import ShaderSSA.Proofs.Resources

/-!
The summary of a lowered program is exact. Its counters are words, so it can fail; it fails exactly when an array
length or a total, as a natural number, does not fit a word, in whatever order the variables are counted.
-/

namespace ShaderSSA

namespace ShaderType

def lengths : ShaderType → List Nat
  | .array element length => length.toNat :: element.lengths
  | _ => []

def leaves (type : ShaderType) : Nat := type.lengths.prod

/-- From some array level inwards, there are more leaves than a word can count. -/
def Overflows (type : ShaderType) : Prop := ∃ inner, inner <:+ type.lengths ∧ UInt32.size ≤ inner.prod

theorem overflows_array {element : ShaderType} {length : UInt32} : (ShaderType.array element length).Overflows ↔
    element.Overflows ∨ UInt32.size ≤ length.toNat * element.leaves := by
  simp only [Overflows, lengths, List.suffix_cons_iff]
  constructor
  · rintro ⟨inner, rfl | inside, large⟩
    · exact .inr large
    · exact .inl ⟨inner, inside, large⟩
  · rintro (⟨inner, inside, large⟩ | large)
    · exact ⟨inner, .inr inside, large⟩
    · exact ⟨_, .inl rfl, large⟩

/-- The length in words is the number of leaves; there is none if a level overflows. A level of length zero does not
make up for an overflow further in. -/
theorem flattenedLength?_cases (type : ShaderType) :
    type.flattenedLength? = none ∧ type.Overflows ∨
      ∃ n, type.flattenedLength? = some n ∧ n.toNat = type.leaves ∧ ¬ type.Overflows := by
  fun_induction flattenedLength? type with
  | case1 element length none ih =>
    obtain ⟨-, large⟩ | ⟨n, found, -⟩ := ih
    · exact .inl ⟨rfl, overflows_array.mpr (.inl large)⟩
    · cases none.symm.trans found
  | case2 element length inner found small ih =>
    obtain ⟨none, -⟩ | ⟨n, again, leaves, fits⟩ := ih
    · cases none.symm.trans found
    obtain rfl := Option.some.inj (found.symm.trans again)
    refine .inr ⟨_, rfl, ?_, fun large => ?_⟩
    · rw [UInt32.toNat_mul, Nat.mod_eq_of_lt small, leaves]
      rfl
    · obtain large | large := overflows_array.mp large
      · exact fits large
      · rw [← leaves] at large
        omega
  | case3 element length inner found large ih =>
    obtain ⟨none, -⟩ | ⟨n, again, leaves, -⟩ := ih
    · cases none.symm.trans found
    obtain rfl := Option.some.inj (found.symm.trans again)
    exact .inl ⟨rfl, overflows_array.mpr (.inr (by rw [← leaves]; omega))⟩
  | case4 type flat =>
    have none : type.lengths = [] := by
      cases type with
      | array element length => exact absurd rfl (flat element length)
      | _ => rfl
    refine .inr ⟨1, rfl, by rw [leaves, none]; rfl, ?_⟩
    rintro ⟨inner, inside, large⟩
    rw [none, List.suffix_nil] at inside
    rw [inside] at large
    exact absurd large (by decide)

end ShaderType

namespace Target

open Source (Resource)

namespace Variable

def handle? (x : Variable) : Option Resource :=
  match x.type.withoutArray with
  | .sampler _ => some .texture
  | .image _ => some .image
  | .atomicUint => some .counter
  | _ => none

def buffer? (x : Variable) : Option Resource :=
  match x.storage with
  | .uniformBuffer => some .uniformBuffer
  | .storageBuffer => some .storageBuffer
  | _ => none

/-- An array of blocks binds a buffer for each leaf, any other variable in a buffer one. -/
def bindings (x : Variable) : Nat := if x.interfaceBlock.isSome && x.type.isArray then x.type.leaves else 1

def uses (x : Variable) (r : Resource) : Nat :=
  (if x.handle? = some r then x.type.leaves else 0) + if x.buffer? = some r then x.bindings else 0

end Variable

def totalUse (xs : List Variable) (r : Resource) : Nat := (xs.map (·.uses r)).sum

/-- A length or a total does not fit a word. -/
def Oversized (xs : List Variable) : Prop :=
  (∃ x ∈ xs, x.type.Overflows) ∨ ∃ r, UInt32.size ≤ totalUse xs r

/-- The number of leaves of the last variable that is the given builtin, if there is one. -/
def lastLength? (b : Builtin) (xs : List Variable) : Option Nat :=
  (xs.filter fun x => x.builtin = some b).getLast?.map fun x => x.type.leaves

namespace Program

def globalVars (p : Program) : List Variable := p.globals.toList.filterMap p.var?

def Listed (p : Program) : Prop := ∀ v ∈ p.globals, v.index.toNat < p.vars.size

end Program

end Target

namespace Lowering
open Source Target Lower

variable {source : Source.Program} {s t : State} {info after : Info} {x : Variable} {xs ys : List Variable}
  {n : UInt32} {p : Target.Program} {capabilities : Capabilities} {ids : List Target.VarId}

/-! ### Counting -/

/-- Counting `xs` leads from one summary to the other: the totals are added, and the last distances are noted. -/
structure Counts (info : Info) (xs : List Variable) (after : Info) : Prop where
  counts : ∀ r, (counted after r).toNat = (counted info r).toNat + totalUse xs r
  clip : after.clipDistances.toNat = (lastLength? .clipDistance xs).getD info.clipDistances.toNat
  cull : after.cullDistances.toNat = (lastLength? .cullDistance xs).getD info.cullDistances.toNat
  discards : after.usesDiscard = info.usesDiscard

theorem lastLength?_append {b : Builtin} {n : Nat} :
    (lastLength? b (xs ++ ys)).getD n = (lastLength? b ys).getD ((lastLength? b xs).getD n) := by
  simp only [lastLength?, List.filter_append, List.getLast?_append]
  cases (ys.filter fun x => x.builtin = some b).getLast? <;> rfl

theorem Counts.append {between : Info} (h : Counts info xs between) (h' : Counts between ys after) :
    Counts info (xs ++ ys) after where
  counts := by
    intro r
    rw [h'.counts, h.counts, Nat.add_assoc, totalUse, totalUse, totalUse, List.map_append, List.sum_append]
  clip := by rw [lastLength?_append, h'.clip, h.clip]
  cull := by rw [lastLength?_append, h'.cull, h.cull]
  discards := h'.discards.trans h.discards

theorem countHandles_variable (info : Info) (x : Variable) (n : UInt32) :
    countHandles info x.type n = countMore info n x.handle? := by
  rw [countHandles, Variable.handle?]
  cases x.type.withoutArray <;> rfl

theorem countBuffers_variable (info : Info) (x : Variable) (n : UInt32) :
    countBuffers info x n = countMore info (bufferCount x n) x.buffer? := by
  rw [countBuffers, Variable.buffer?]
  cases x.storage <;> rfl

theorem countMore_counts {r? : Option Resource} (h : countMore info n r? = .ok after) :
    (∀ r, (counted after r).toNat = (counted info r).toNat + if r? = some r then n.toNat else 0) ∧
      after.clipDistances = info.clipDistances ∧ after.cullDistances = info.cullDistances ∧
      after.usesDiscard = info.usesDiscard := by
  cases r? with
  | none =>
    obtain rfl := Except.ok.inj h
    exact ⟨by simp, rfl, rfl, rfl⟩
  | some r =>
    rw [countMore, addCount] at h
    split at h
    · rename_i small
      obtain ⟨_, again, counts⟩ : ∃ again, countMore info n (some r) = .ok again ∧ _ :=
        countMore_ok fun _ is => by rwa [← Option.some.inj is]
      rw [countMore, addCount, if_pos small] at again
      obtain rfl := Except.ok.inj (h.symm.trans again)
      obtain rfl := Except.ok.inj h
      refine ⟨counts, ?_⟩
      cases r <;> exact ⟨rfl, rfl, rfl⟩
    · cases h

theorem uses_of_leaves (leaves : n.toNat = x.type.leaves) (r : Resource) :
    x.uses r = (if x.handle? = some r then n.toNat else 0) +
      if x.buffer? = some r then (bufferCount x n).toNat else 0 := by
  have bindings : x.bindings = (bufferCount x n).toNat := by
    rw [Variable.bindings, bufferCount]
    split
    · exact leaves.symm
    · rfl
  rw [Variable.uses, leaves, bindings]

theorem counts_noteDistances (leaves : n.toNat = x.type.leaves)
    (counts : ∀ r, (counted after r).toNat = (counted info r).toNat + x.uses r)
    (clip : after.clipDistances = info.clipDistances) (cull : after.cullDistances = info.cullDistances)
    (discards : after.usesDiscard = info.usesDiscard) : Counts info [x] (noteDistances after x.builtin n) := by
  have same : ∀ r, counted (noteDistances after x.builtin n) r = counted after r := by
    intro r
    unfold noteDistances
    split <;> cases r <;> rfl
  refine ⟨fun r => ?_, ?_, ?_, ?_⟩
  · rw [same, counts, totalUse, List.map_singleton, List.sum_singleton]
  all_goals
    unfold noteDistances
    split <;> simp_all [lastLength?]

theorem countVariable_counts (h : countVariable info x = .ok after) : ¬ x.type.Overflows ∧ Counts info [x] after := by
  obtain ⟨none, -⟩ | ⟨n, length, leaves, fits⟩ := x.type.flattenedLength?_cases
  · simp [countVariable, none] at h
  simp only [countVariable, length, countHandles_variable, countBuffers_variable, bind_eq_ok, pure_eq_ok] at h
  obtain ⟨between, first, counted', second, rfl⟩ := h
  obtain ⟨counts, clip, cull, discards⟩ := countMore_counts first
  obtain ⟨counts', clip', cull', discards'⟩ := countMore_counts second
  refine ⟨fits, counts_noteDistances leaves (fun r => ?_) (clip'.trans clip) (cull'.trans cull)
    (discards'.trans discards)⟩
  rw [counts', counts, uses_of_leaves leaves, Nat.add_assoc]

theorem countVariable_succeeds (fits : ¬ x.type.Overflows)
    (small : ∀ r, (counted info r).toNat + x.uses r < UInt32.size) : ∃ after, countVariable info x = .ok after := by
  obtain ⟨-, large⟩ | ⟨n, length, leaves, -⟩ := x.type.flattenedLength?_cases
  · exact absurd large fits
  simp only [uses_of_leaves leaves] at small
  obtain ⟨between, first, counts⟩ : ∃ between, countMore info n x.handle? = .ok between ∧ _ :=
    countMore_ok fun r is => by
      have bound := small r
      rw [if_pos is] at bound
      omega
  obtain ⟨counted', second, -⟩ : ∃ counted', countMore between (bufferCount x n) x.buffer? = .ok counted' ∧ _ :=
    countMore_ok fun r is => by
      have bound := small r
      rw [if_pos is] at bound
      rw [counts r]
      omega
  refine ⟨noteDistances counted' x.builtin n, ?_⟩
  simp [countVariable, length, countHandles_variable, countBuffers_variable, first, second]

theorem countVariables_counts (found : ids.map p.var? = xs.map some) (h : countVariables p info ids = .ok after) :
    (∀ x ∈ xs, ¬ x.type.Overflows) ∧ Counts info xs after := by
  induction ids generalizing xs info with
  | nil =>
    obtain rfl : xs = [] := by simpa using found.symm
    obtain rfl := Except.ok.inj h
    exact ⟨by simp, fun r => by simp [totalUse], rfl, rfl, rfl⟩
  | cons id ids ih =>
    obtain ⟨x, xs, rfl, here, others⟩ := List.map_eq_cons_iff.mp found.symm
    simp only [countVariables, Target.Program.getVariable, ← here, ok_bind] at h
    obtain ⟨between, first, rest⟩ := bind_eq_ok.mp h
    obtain ⟨fits, counts⟩ := countVariable_counts first
    obtain ⟨fit, counts'⟩ := ih others.symm rest
    exact ⟨by simpa using ⟨fits, fit⟩, counts.append counts'⟩

theorem countVariables_succeeds (found : ids.map p.var? = xs.map some) (fits : ∀ x ∈ xs, ¬ x.type.Overflows)
    (small : ∀ r, (counted info r).toNat + totalUse xs r < UInt32.size) :
    ∃ after, countVariables p info ids = .ok after := by
  induction ids generalizing xs info with
  | nil => exact ⟨info, rfl⟩
  | cons id ids ih =>
    obtain ⟨x, xs, rfl, here, others⟩ := List.map_eq_cons_iff.mp found.symm
    simp only [totalUse, List.map_cons, List.sum_cons] at small
    obtain ⟨between, first⟩ : ∃ between, countVariable info x = .ok between :=
      countVariable_succeeds (fits x List.mem_cons_self) fun r => by
        have bound := small r
        omega
    obtain ⟨-, counts⟩ := countVariable_counts first
    have room : ∀ r, (counted between r).toNat + totalUse xs r < UInt32.size := by
      intro r
      have bound := small r
      rw [counts.counts, totalUse, List.map_singleton, List.sum_singleton, totalUse]
      omega
    obtain ⟨after, rest⟩ := ih others.symm (fun y member => fits y (List.mem_cons_of_mem _ member)) room
    exact ⟨after, by simp [countVariables, Target.Program.getVariable, ← here, first, rest]⟩

/-! ### Summaries -/

theorem globalVars_of_listed (listed : p.Listed) : p.globals.toList.map p.var? = p.globalVars.map some := by
  have found : ∀ v ∈ p.globals.toList, ∃ x, p.var? v = some x := fun v member =>
    ⟨_, Array.getElem?_eq_getElem (listed v (by simpa using member))⟩
  rw [Program.globalVars]
  generalize p.globals.toList = ids at found
  induction ids with
  | nil => rfl
  | cons v ids ih =>
    obtain ⟨x, there⟩ := found v List.mem_cons_self
    rw [List.map_cons, ih fun w member => found w (List.mem_cons_of_mem _ member), List.filterMap_cons_some there,
      there, List.map_cons]

/-- Counting cannot wrap, so it fails exactly where the exact numbers are too large. -/
theorem summarize_error_iff (listed : p.Listed) (zero : ∀ r, counted p.info r = 0) :
    (∃ f, summarize p = .error f) ↔ Oversized p.globalVars := by
  have found := globalVars_of_listed listed
  constructor
  · rintro ⟨f, failed⟩
    by_contra countable
    simp only [Oversized, not_or, not_exists, not_and, Nat.not_le] at countable
    obtain ⟨after, counted'⟩ := countVariables_succeeds found countable.1 fun r => by
      rw [zero, UInt32.toNat_zero, Nat.zero_add]
      exact countable.2 r
    simp [summarize, counted'] at failed
  · intro large
    cases result : countVariables p p.info p.globals.toList with
    | error f => exact ⟨f, by simp [summarize, result]⟩
    | ok after =>
      obtain ⟨fits, counts⟩ := countVariables_counts found result
      obtain ⟨x, member, overflows⟩ | ⟨r, large⟩ := large
      · exact absurd overflows (fits x member)
      · have exact := counts.counts r
        rw [zero, UInt32.toNat_zero, Nat.zero_add] at exact
        exact absurd (counted after r).toNat_lt (Nat.not_lt.mpr (by rw [exact]; exact large))

theorem summarize_counts (listed : p.Listed) (h : summarize p = .ok info) :
    Counts p.info p.globalVars info ∧ info.entryPoint = entryPoint? p.functions.toList := by
  obtain ⟨after, result, last⟩ := bind_eq_ok.mp h
  obtain rfl := pure_eq_ok.mp last
  obtain ⟨-, counts⟩ := countVariables_counts (globalVars_of_listed listed) result
  exact ⟨⟨fun r => by rw [← counts.counts]; cases r <;> rfl, counts.clip, counts.cull, counts.discards⟩, rfl⟩

theorem entryPoint?_eq (functions : List Function) :
    entryPoint? functions =
      if functions.any (fun f => f.name = "main" && f.body.isSome) then some "main" else none := by
  rw [entryPoint?]
  cases found : functions.find? fun f => f.name = "main" && f.body.isSome with
  | none =>
    rw [List.find?_eq_none] at found
    rw [if_neg (by simpa using found)]
    rfl
  | some f =>
    have main := List.find?_some found
    rw [if_pos (List.any_eq_true.mpr ⟨f, List.mem_of_find?_eq_some found, main⟩)]
    simp only [Bool.and_eq_true, decide_eq_true_eq] at main
    rw [Option.map_some, main.1]

/-! ### Orders -/

theorem totalUse_of_perm (h : xs.Perm ys) (r : Resource) : totalUse xs r = totalUse ys r :=
  (h.map _).sum_eq

theorem oversized_of_perm (h : xs.Perm ys) (large : Oversized xs) : Oversized ys := by
  obtain ⟨x, member, overflows⟩ | ⟨r, large⟩ := large
  · exact .inl ⟨x, h.mem_iff.mp member, overflows⟩
  · exact .inr ⟨r, by rwa [← totalUse_of_perm h]⟩

/-- In another order the same is counted. -/
theorem summarize_reordered (listed : p.Listed) (zero : ∀ r, counted p.info r = 0) (h : summarize p = .ok info)
    {order : Array Target.VarId} (perm : order.toList.Perm p.globals.toList) :
    ∃ other, summarize { p with globals := order } = .ok other ∧ ∀ r, counted other r = counted info r := by
  have listed' : Program.Listed { p with globals := order } := by
    intro v member
    exact listed v (by simpa using perm.mem_iff.mp (by simpa using member))
  have vars : (Program.globalVars { p with globals := order }).Perm p.globalVars := perm.filterMap _
  cases result : summarize { p with globals := order } with
  | error f =>
    have large := (summarize_error_iff listed' zero).mp ⟨f, result⟩
    obtain ⟨g, failed⟩ := (summarize_error_iff listed zero).mpr (oversized_of_perm vars large)
    cases h.symm.trans failed
  | ok other =>
    refine ⟨other, rfl, fun r => UInt32.toNat_inj.mp ?_⟩
    rw [(summarize_counts listed' result).1.counts, (summarize_counts listed h).1.counts, totalUse_of_perm vars]

/-! ### Lowering -/

/-- Lowering comes to its last pass, with program `p`. -/
def Reaches (source : Source.Program) (capabilities : Capabilities) (p : Target.Program) : Prop :=
  ∃ s t, Runs (registerAll source source.statements) (.initial source capabilities) () s ∧
    Runs (lowerAll source source.statements) s () t ∧ t.program = p

theorem Step.listed {layer : Layer} (h : Step layer s t) (listed : s.program.Listed) : t.program.Listed := by
  cases h with
  | @newVariable _ _ _ _ _ p stored here added =>
    obtain ⟨owner, vars, -⟩ := Program.addVariable_vars added
    have known := addVariable_known added
    intro v member
    have older : v ∈ s.program.globals → v.index.toNat < p.vars.size := fun member => by
      rw [vars, Array.size_push]
      exact Nat.lt_succ_of_lt (listed v member)
    rw [Program.addVariable_globals added] at member
    split at member
    · exact older member
    · rcases Array.mem_push.mp member with member | rfl
      · exact older member
      · exact known
  | body changed =>
    obtain ⟨_, -, rfl⟩ := Program.setBody_ok changed
    exact listed
  | effect op | value op width bitSize | root var type | append appended | discards | region region | log log
  | bind above known bound | newFunction name | scope scope same native => exact listed

theorem Path.listed {layer : Layer} (h : Path layer s t) (listed : s.program.Listed) : t.program.Listed := by
  induction h with
  | refl => exact listed
  | tail _ step ih => exact step.listed ih

/-- What is known in the last pass: globals are found, counters are still zero, and discards have been noted. -/
structure Unsummarized (p : Target.Program) : Prop where
  listed : p.Listed
  zero : ∀ r, counted p.info r = 0
  clip : p.info.clipDistances = 0
  cull : p.info.cullDistances = 0
  discards : p.info.usesDiscard = p.instrs.any fun i => i.operation.discards

theorem Reaches.unsummarized (h : Reaches source capabilities p) : Unsummarized p := by
  obtain ⟨s, t, registered, lowered, rfl⟩ := h
  have path : Path .program _ t :=
    ((stepwise_registerAll ..).path registered).trans ((stepwise_lowerAll ..).path lowered)
  have info := path.steady.info
  have start : (State.initial source capabilities).program.Listed := by
    intro v member
    simp [State.initial, Program.new] at member
  have noted : (State.initial source capabilities).Noted := by
    simp [State.Noted, State.initial, Program.new]
  have registered' := (adding_registerAll source _).noting.noted registered noted
  refine ⟨path.listed start, fun r => ?_, ?_, ?_, (noting_lowerAll _).noted lowered registered'⟩
  · rw [info]
    cases r <;> rfl
  · rw [info]
    rfl
  · rw [info]
    rfl

theorem lower_of_reaches (h : Reaches source capabilities p) :
    lower source capabilities = ((summarize p).mapError .fault).map fun info => { p with info } := by
  obtain ⟨s, t, registered, lowered, rfl⟩ := h
  have last : outcome (lowerProgram source) (.initial source capabilities) = outcome finish t :=
    (outcome_of_runs registered).trans (outcome_of_runs lowered)
  rw [lower_eq, last, finish, outcome_of_runs (runs_program.mpr ⟨rfl, rfl⟩)]
  cases summarize t.program <;> rfl

/-- The summary says what the program uses. -/
structure Summarizes (p : Target.Program) (info : Info) : Prop where
  counts : ∀ r, (counted info r).toNat = totalUse p.globalVars r
  clip : info.clipDistances.toNat = (lastLength? .clipDistance p.globalVars).getD 0
  cull : info.cullDistances.toNat = (lastLength? .cullDistance p.globalVars).getD 0
  discards : info.usesDiscard = true ↔ ∃ i ∈ p.instrs, i.operation.discards = true
  entry : info.entryPoint = some "main" ↔ ∃ f ∈ p.functions, f.name = "main" ∧ f.body.isSome = true
  entries : info.entryPoint = none ∨ info.entryPoint = some "main"

theorem Unsummarized.summarizes (h : Unsummarized p) (summary : summarize p = .ok info) : Summarizes p info := by
  obtain ⟨counts, entry⟩ := summarize_counts h.listed summary
  rw [entryPoint?_eq] at entry
  have main : p.functions.toList.any (fun f => f.name = "main" && f.body.isSome) = true ↔
      ∃ f ∈ p.functions, f.name = "main" ∧ f.body.isSome = true := by
    simp only [List.any_eq_true, Array.mem_toList_iff, Bool.and_eq_true, decide_eq_true_eq]
  refine ⟨fun r => ?_, ?_, ?_, ?_, ?_, ?_⟩
  · rw [counts.counts, h.zero, UInt32.toNat_zero, Nat.zero_add]
  · rw [counts.clip, h.clip, UInt32.toNat_zero]
  · rw [counts.cull, h.cull, UInt32.toNat_zero]
  · rw [counts.discards, h.discards]
    exact Array.any_eq_true'
  · rw [entry, ← main]
    split <;> simp_all
  · rw [entry]
    split
    · exact .inr rfl
    · exact .inl rfl

/-- The summary is exact. The last pass fails exactly if, from some array level of a global inwards, or in total, there
is more than a word can count. Otherwise the counters are the totals, whatever the order of the globals; the clip and
cull distances are those of the last global that is the builtin; and the program is said to discard if an instruction
does, and to start at `main` if such a function has a body. -/
theorem lower_summary_exact {capabilities : Capabilities} {p : Target.Program}
    (reached : Reaches source capabilities p) :
    p.globals.toList.map p.var? = p.globalVars.map some ∧
    ((∃ f, summarize p = .error f ∧ lower source capabilities = .error (.fault f)) ↔ Oversized p.globalVars) ∧
    (¬ Oversized p.globalVars → ∃ info, lower source capabilities = .ok { p with info } ∧ Summarizes p info ∧
      ∀ order : Array Target.VarId, order.toList.Perm p.globals.toList →
        ∃ other, summarize { p with globals := order } = .ok other ∧ ∀ r, counted other r = counted info r) := by
  have known := reached.unsummarized
  have result := lower_of_reaches reached
  have fails := summarize_error_iff known.listed known.zero
  refine ⟨globalVars_of_listed known.listed, ⟨?_, ?_⟩, ?_⟩
  · rintro ⟨f, failed, -⟩
    exact fails.mp ⟨f, failed⟩
  · intro large
    obtain ⟨f, failed⟩ := fails.mpr large
    exact ⟨f, failed, by rw [result, failed]; rfl⟩
  · intro countable
    cases summary : summarize p with
    | error f => exact absurd (fails.mp ⟨f, summary⟩) countable
    | ok info =>
      refine ⟨info, by rw [result, summary]; rfl, known.summarizes summary, fun order perm => ?_⟩
      exact summarize_reordered known.listed known.zero summary perm

namespace Inventory

def program : Source.Program where
  name := "inventory"
  layout := .fragment false .none false
  vars := #[
    { name := "maps", type := .array (.array (.sampler ⟨.dim2D, false, false, .float⟩) 3) 2, mode := .uniform },
    { name := "target", type := .image ⟨.dim2D, false, .float⟩, mode := .uniform },
    { name := "hits", type := .array .atomicUint 4, mode := .uniform },
    { name := "lights", type := .array (.vector .float 4) 5, mode := .uniform, interfaceBlock := some "Light" },
    { name := "log", type := .array (.scalar .uint) 7, mode := .shaderStorage },
    { name := "early", type := .array (.scalar .float) 8, mode := .shaderOut, builtin := some .clipDistance },
    { name := "late", type := .array (.scalar .float) 2, mode := .shaderOut, builtin := some .clipDistance }]
  signatures := #[
    { name := "main", returnType := .void, parameters := [], isDefined := true, body := [.discard none] }]
  statements := [.declare ⟨0⟩, .declare ⟨1⟩, .declare ⟨2⟩, .declare ⟨3⟩, .declare ⟨4⟩, .declare ⟨5⟩, .declare ⟨6⟩,
    .function "main" [⟨0⟩]]

def oversized : Source.Program where
  name := "oversized"
  layout := .fragment false .none false
  vars := #[{ name := "grid", type := .array (.array (.array (.scalar .float) 65536) 65536) 0, mode := .shaderOut }]
  signatures := #[]
  statements := [.declare ⟨0⟩]

def before (source : Source.Program) : Target.Program :=
  (outcome (registerAll source source.statements >>= fun _ => lowerAll source source.statements)
    (.initial source {})).2.program

theorem reaches {source : Source.Program}
    (h : (outcome (registerAll source source.statements >>= fun _ => lowerAll source source.statements)
      (.initial source {})).1.isOk = true) : Reaches source {} (before source) := by
  obtain ⟨_, run⟩ := runs_of_isOk h
  obtain ⟨_, s, registered, lowered⟩ := runs_bind.mp run
  exact ⟨s, _, registered, lowered, rfl⟩

end Inventory

theorem lower_summary_exact_inventory :
    Reaches Inventory.program {} (Inventory.before Inventory.program) ∧
    (∃ info, lower Inventory.program {} = .ok { Inventory.before Inventory.program with info } ∧
      Summarizes (Inventory.before Inventory.program) info) ∧
    [Resource.texture, .image, .counter, .uniformBuffer, .storageBuffer].map
      (totalUse (Inventory.before Inventory.program).globalVars) = [6, 1, 4, 5, 1] ∧
    lastLength? .clipDistance (Inventory.before Inventory.program).globalVars = some 2 ∧
    Reaches Inventory.oversized {} (Inventory.before Inventory.oversized) ∧
    ∃ f, lower Inventory.oversized {} = .error (.fault f) := by
  have reached : Reaches Inventory.program {} _ := Inventory.reaches (by decide +kernel)
  have reached' : Reaches Inventory.oversized {} _ := Inventory.reaches (by decide +kernel)
  refine ⟨reached, ?_, by decide +kernel, by decide +kernel, reached', ?_⟩
  · obtain ⟨-, fails, succeeds⟩ := lower_summary_exact reached
    have countable : ¬ Oversized (Inventory.before Inventory.program).globalVars := by
      intro large
      obtain ⟨f, -, failed⟩ := fails.mpr large
      have lowered : (lower Inventory.program {}).isOk = true := by decide +kernel
      rw [failed] at lowered
      cases lowered
    obtain ⟨info, lowered, summarizes, -⟩ := succeeds countable
    exact ⟨info, lowered, summarizes⟩
  · obtain ⟨-, fails, -⟩ := lower_summary_exact reached'
    obtain ⟨f, -, failed⟩ := fails.mpr (.inl ⟨_, List.mem_singleton_self _, [65536, 65536], ⟨[0], rfl⟩, by decide⟩)
    exact ⟨f, failed⟩

end Lowering

end ShaderSSA
