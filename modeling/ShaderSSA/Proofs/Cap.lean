import ShaderSSA.Proofs.Programs
import ShaderSSA.Target.Json

/-!
A cap on the number of instructions. Whole programs keep in lockstep with their lowering without a cap: a
cap that is large enough changes nothing, and any other one is met in the body of the signature that would
emit the first instruction for which there is no room.
-/

namespace ShaderSSA.Lowering
open Source Target Lower

variable {source : Source.Program} {site : Option Location} {id : SignatureId} {r : Except Failure Unit}

/-! ### Functions -/

theorem lockstep_setBody (id : FuncId) (body : Option Body) :
    Lockstep site (program >>= fun p => check (p.setBody id body) >>= setProgram) :=
  lockstep_of_next Program.setBody_instrs fun p limit => p.setBody_limited limit id body

theorem lockstep_registerSignature (id : SignatureId) : Lockstep site (registerSignature source id) := by
  have added : ∀ name, Lockstep site (program >>= fun p => setProgram (p.addFunction name).2 >>= fun _ =>
      pure (p.addFunction name).1) := fun name =>
    lockstep_of_change (fun p => (.ok (p.addFunction name).1, (p.addFunction name).2)) (fun _ => rfl)
      (fun _ => rfl) fun _ _ => rfl
  refine lockstep_bind (lockstep_check _) fun signature => ?_
  split
  · exact lockstep_pure ()
  · change Lockstep site ((program >>= fun p => setProgram (p.addFunction signature.name).2 >>= fun _ =>
      pure (p.addFunction signature.name).1) >>= fun function => do
        setScope (← check ((← scope).bindFunction id function))
        report (.registered signature.name function))
    refine lockstep_bind (added signature.name) fun function => ?_
    repeat' first | with_reducible apply lockstep_bind | intro _ | simp

theorem lockstep_registerSignatures (ids : List SignatureId) : Lockstep site (registerSignatures source ids) := by
  induction ids with
  | nil => exact lockstep_pure ()
  | cons id ids ih => exact lockstep_bind (lockstep_registerSignature id) fun _ => ih

theorem lockstep_registerAll (stmts : List Stmt) : Lockstep site (registerAll source stmts) := by
  rw [registerAll_eq]
  exact lockstep_registerSignatures _

theorem lockstep_declareParams (signature : Signature) (f : FuncId) (ids : List Source.VarId) :
    Lockstep site (declareParams source signature f ids) := by
  induction ids with
  | nil => exact lockstep_pure ()
  | cons id ids ih =>
    unfold declareParams
    refine lockstep_bind (lockstep_declare source id) fun v => lockstep_read (fun _ _ => rfl) fun p => ?_
    repeat' first
      | exact ih
      | with_reducible apply lockstep_bind
      | intro _
      | split
      | simp

theorem lockstep_declareReturn (f : FuncId) (type : ShaderType) : Lockstep site (declareReturn f type) := by
  unfold declareReturn
  repeat' first | with_reducible apply lockstep_bind | intro _ | split | simp

theorem lockstep_lowerBody (signature : Signature) (f : FuncId) :
    Lockstep signature.site (lowerBody source signature f) := by
  have stmts := lockstep_withSite (lockstep_inRegion
    ((stepwise_lowerStmts source signature.body).lockstep nofun)) signature.site
  have opened : lowerBody source signature f =
      ((program >>= fun p => check (p.setBody f (some {})) >>= setProgram) >>= fun _ => do
        setScope (← check ((← scope).enterFunction f))
        declareParams source signature f signature.parameters
        declareReturn f signature.returnType
        let region ← withSite signature.site (inRegion (lowerStmts source signature.body))
        report (.bodyLowered signature.name region.size)
        modifyBody f fun b => { b with nodes := region.toList }
        setScope (← scope).leaveFunction) := by
    simp only [lowerBody, bind_assoc]
  rw [opened]
  refine lockstep_bind (lockstep_setBody f (some {})) fun _ => ?_
  repeat' first
    | exact stmts
    | exact lockstep_declareParams signature f signature.parameters
    | exact lockstep_declareReturn f signature.returnType
    | with_reducible apply lockstep_bind
    | intro _
    | simp

theorem lockstep_lowerSignature {signature : Signature} (found : source.signature? id = some signature) :
    Lockstep signature.site (lowerSignature source id) := by
  have opened : lowerSignature source id = (if signature.isIntrinsic then pure () else do
      let function ← check ((← scope).resolveFunction source id)
      if signature.isDefined then lowerBody source signature function
      else report (.declaredOnly signature.name)) := by
    rw [lowerSignature, getSignature_ok.mpr found]
    rfl
  rw [opened]
  repeat' first
    | exact lockstep_lowerBody signature _
    | with_reducible apply lockstep_bind
    | intro _
    | split
    | simp

theorem lowerSignature_missing (missing : source.signature? id = none) :
    lowerSignature source id = abort (.signatureRange id) := by
  rw [lowerSignature, Program.getSignature, missing]
  rfl

section
variable (source)

theorem repeats_lowerSignature (id : SignatureId) : Repeats (lowerSignature source id) := by
  cases found : source.signature? id with
  | some signature => exact (lockstep_lowerSignature found).toRepeats
  | none =>
    rw [lowerSignature_missing found]
    exact (@lockstep_abort _ none _).toRepeats

theorem repeats_lowerSignatures (ids : List SignatureId) : Repeats (lowerSignatures source ids) := by
  induction ids with
  | nil => exact (@lockstep_pure _ none ()).toRepeats
  | cons id ids ih => exact repeats_bind (repeats_lowerSignature source id) fun _ => ih

theorem repeats_lowerAll (stmts : List Stmt) : Repeats (lowerAll source stmts) := by
  fun_induction lowerAll source stmts with
  | case1 => exact (@lockstep_pure _ none ()).toRepeats
  | case2 id rest ih => exact repeats_bind (@lockstep_declare none source id).toRepeats fun _ => ih
  | case3 name ids rest ih => exact repeats_bind (repeats_lowerSignatures source ids) fun _ => ih
  | case4 => exact (@lockstep_abort _ none _).toRepeats

end

/-! ### Where the room runs out -/

/-- The first of the signatures by whose end more than `k` instructions are emitted, if `s` is the state before
them: instruction number `k` stands in its body. -/
def emitterAmong? (source : Source.Program) (k : Nat) : List SignatureId → State → Option Signature
  | [], _ => none
  | id :: ids, s =>
    let after := (outcome (lowerSignature source id) s).2
    if k < after.emitted then source.signature? id else emitterAmong? source k ids after

/-- The signature in whose body the top level emits instruction number `k`. -/
def emitterFrom? (source : Source.Program) (k : Nat) : List Stmt → State → Option Signature
  | [], _ => none
  | .declare id :: rest, s => emitterFrom? source k rest (outcome (declare source id) s).2
  | .function _ ids :: rest, s =>
    let after := (outcome (lowerSignatures source ids) s).2
    if k < after.emitted then emitterAmong? source k ids s else emitterFrom? source k rest after
  | _ :: _, _ => none

/-- The signature whose body emits instruction number `k` if there is no cap. -/
def emitter? (source : Source.Program) (nativeIntegers : Bool) (k : Nat) : Option Signature :=
  emitterFrom? source k source.statements
    (outcome (registerAll source source.statements) (.initial source { nativeIntegers })).2

section
variable {α : Type} {s t : State} {k : UInt32}

/-- The computation fails under the cap, for want of room in the body of the signature. -/
def Exhausts (m : Lower α) (s : State) (k : UInt32) (signature : Signature) : Prop :=
  ∃ u, outcome m (s.capped k) = (.error (.exhausted ⟨"instructions", signature.site⟩), u)

/-- What would report want of room at any site never wants for room. -/
theorem stays_within {m : Lower α} (h : ∀ site, Lockstep site m) {r : Except Failure α}
    (run : outcome m s = (r, t)) (free : s.program.instrLimit = none) (inside : s.emitted ≤ k.toNat) :
    t.emitted ≤ k.toNat := by
  refine Nat.not_lt.mp fun outside => ?_
  obtain ⟨u, nowhere⟩ := (h none).beyond run free inside outside
  obtain ⟨v, somewhere⟩ := (h (some ⟨"", 0, 0⟩)).beyond run free inside outside
  rw [nowhere] at somewhere
  simp at somewhere

theorem lowerSignature_beyond (run : outcome (lowerSignature source id) s = (r, t))
    (free : s.program.instrLimit = none) (inside : s.emitted ≤ k.toNat) (outside : k.toNat < t.emitted) :
    ∃ signature, source.signature? id = some signature ∧ Exhausts (lowerSignature source id) s k signature := by
  cases found : source.signature? id with
  | some signature => exact ⟨signature, rfl, (lockstep_lowerSignature found).beyond run free inside outside⟩
  | none =>
    rw [lowerSignature_missing found] at run
    obtain ⟨-, rfl⟩ := Prod.mk.inj run
    exact absurd inside (Nat.not_le.mpr outside)

theorem lowerSignatures_beyond {ids : List SignatureId} (run : outcome (lowerSignatures source ids) s = (r, t))
    (free : s.program.instrLimit = none) (inside : s.emitted ≤ k.toNat) (outside : k.toNat < t.emitted) :
    ∃ signature, emitterAmong? source k.toNat ids s = some signature ∧
      Exhausts (lowerSignatures source ids) s k signature := by
  induction ids generalizing s with
  | nil =>
    obtain ⟨-, rfl⟩ := Prod.mk.inj run
    exact absurd inside (Nat.not_le.mpr outside)
  | cons id ids ih =>
    obtain ⟨_, u, first, full, passed⟩ | ⟨_, u, first, room, still, next, same⟩ :=
      beyond_bind (repeats_lowerSignature source id) run free outside
    · obtain ⟨signature, found, v, failed⟩ := lowerSignature_beyond first free inside full
      exact ⟨signature, by rw [emitterAmong?, first, if_pos full, found], v, passed failed⟩
    · obtain ⟨signature, found, v, failed⟩ := ih next still room
      exact ⟨signature, by rw [emitterAmong?, first, if_neg (Nat.not_lt.mpr room), found], v, same.trans failed⟩

theorem lowerAll_beyond {stmts : List Stmt} (run : outcome (lowerAll source stmts) s = (r, t))
    (free : s.program.instrLimit = none) (inside : s.emitted ≤ k.toNat) (outside : k.toNat < t.emitted) :
    ∃ signature, emitterFrom? source k.toNat stmts s = some signature ∧
      Exhausts (lowerAll source stmts) s k signature := by
  fun_induction lowerAll source stmts generalizing s with
  | case1 =>
    obtain ⟨-, rfl⟩ := Prod.mk.inj run
    exact absurd inside (Nat.not_le.mpr outside)
  | case2 id rest ih =>
    have declared := fun site => @lockstep_declare site source id
    obtain ⟨_, u, first, full, -⟩ | ⟨_, u, first, room, still, next, same⟩ :=
      beyond_bind (declared none).toRepeats run free outside
    · exact absurd (stays_within declared first free inside) (Nat.not_le.mpr full)
    · obtain ⟨signature, found, v, failed⟩ := ih next still room
      exact ⟨signature, by rw [emitterFrom?, first, found], v, same.trans failed⟩
  | case3 name ids rest ih =>
    obtain ⟨_, u, first, full, passed⟩ | ⟨_, u, first, room, still, next, same⟩ :=
      beyond_bind (repeats_lowerSignatures source ids) run free outside
    · obtain ⟨signature, found, v, failed⟩ := lowerSignatures_beyond first free inside full
      exact ⟨signature, by rw [emitterFrom?, first, if_pos full, found], v, passed failed⟩
    · obtain ⟨signature, found, v, failed⟩ := ih next still room
      exact ⟨signature, by rw [emitterFrom?, first, if_neg (Nat.not_lt.mpr room), found], v, same.trans failed⟩
  | case4 =>
    obtain ⟨-, rfl⟩ := Prod.mk.inj run
    exact absurd inside (Nat.not_le.mpr outside)

end

/-! ### Whole programs -/

theorem countVariables_limited (p : Target.Program) (limit : Option UInt32) (info : Info) (ids : List Target.VarId) :
    countVariables (p.limited limit) info ids = countVariables p info ids := by
  induction ids generalizing info with
  | nil => rfl
  | cons id ids ih =>
    rw [countVariables, countVariables, show (p.limited limit).getVariable id = p.getVariable id from rfl]
    simp only [ih]

theorem lockstep_finish : Lockstep site finish := by
  have blind : ∀ p limit, summarize (p.limited limit) = summarize p := by
    intro p limit
    simp only [summarize, countVariables_limited]
    rfl
  have unfolded : ∀ s, outcome finish s = match summarize s.program with
      | .ok info => (.ok (), { s with
          program := { s.program with info }
          log := s.log.push (.finished info.stage info.name s.program.functions.size s.program.instrs.size
            s.program.values.size) })
      | .error f => (.error (.fault f), s) := by
    intro s
    have opened : outcome finish s = outcome (do
        let info ← check (summarize s.program)
        setProgram { s.program with info }
        report (.finished info.stage info.name s.program.functions.size s.program.instrs.size
          s.program.values.size)) s := rfl
    rw [opened]
    cases summarize s.program <;> rfl
  refine lockstep_of_silent (fun s => ?_) fun s k => ?_
  · rw [unfolded]
    split <;> exact ⟨rfl, rfl, nofun⟩
  · rw [unfolded, unfolded, show (s.capped k).program = s.program.limited (some k) from rfl, blind]
    split <;> rfl

theorem repeats_lowerProgram (source : Source.Program) : Repeats (lowerProgram source) :=
  repeats_bind (@lockstep_registerAll _ none _).toRepeats fun _ =>
    repeats_bind (repeats_lowerAll source _) fun _ => (@lockstep_finish none).toRepeats

theorem lowerProgram_beyond {nativeIntegers : Bool} {k : UInt32} {t : State}
    (run : outcome (lowerProgram source) (.initial source { nativeIntegers }) = (r, t))
    (outside : k.toNat < t.emitted) : ∃ signature, emitter? source nativeIntegers k.toNat = some signature ∧
      Exhausts (lowerProgram source) (.initial source { nativeIntegers }) k signature := by
  have registers := fun site => @lockstep_registerAll source site source.statements
  obtain ⟨_, u, first, full, -⟩ | ⟨_, u, first, room, still, next, same⟩ :=
    beyond_bind (registers none).toRepeats run rfl outside
  · exact absurd (stays_within registers first rfl (Nat.zero_le _)) (Nat.not_le.mpr full)
  obtain ⟨_, v, lowered, full, passed⟩ | ⟨_, v, lowered, inside, free, finished, -⟩ :=
    beyond_bind (repeats_lowerAll source _) next still outside
  · obtain ⟨signature, found, w, failed⟩ := lowerAll_beyond lowered still room full
    exact ⟨signature, by rw [emitter?, first, found], w, same.trans (passed failed)⟩
  · exact absurd (stays_within (fun _ => lockstep_finish) finished free inside) (Nat.not_le.mpr outside)

/-- A cap on the number of instructions only decides whether lowering succeeds. A program that is lowered without
a cap is lowered to the same program under every cap that its instructions stay within. Under any other cap
lowering reports want of room, at the site of the signature whose body emits the first instruction too many. A
program that cannot be lowered without a cap fails in the same way under a cap, or for want of room before. -/
theorem lower_capped (source : Source.Program) (nativeIntegers : Bool) (k : UInt32) :
    (∀ {p}, lower source { nativeIntegers } = .ok p →
      (p.instrs.size ≤ k.toNat →
        lower source { nativeIntegers, maxInstructions := some k } = .ok (p.limited (some k)) ∧
          (p.limited (some k)).toJson = p.toJson) ∧
      (k.toNat < p.instrs.size → ∃ signature, emitter? source nativeIntegers k.toNat = some signature ∧
        lower source { nativeIntegers, maxInstructions := some k } =
          .error (.exhausted ⟨"instructions", signature.site⟩))) ∧
    ∀ {e}, lower source { nativeIntegers } = .error e →
      (∃ f, e = .fault f) ∧
      (lower source { nativeIntegers, maxInstructions := some k } = .error e ∨
        ∃ signature, emitter? source nativeIntegers k.toNat = some signature ∧
          lower source { nativeIntegers, maxInstructions := some k } =
            .error (.exhausted ⟨"instructions", signature.site⟩)) := by
  have capped : State.initial source { nativeIntegers, maxInstructions := some k } =
      (State.initial source { nativeIntegers }).capped k := rfl
  have paces := repeats_lowerProgram source
  rw [lower_eq, lower_eq, capped]
  rcases run : outcome (lowerProgram source) (.initial source { nativeIntegers }) with ⟨e | _, t⟩
  · refine ⟨by rintro _ ⟨⟩, ?_⟩
    rintro _ ⟨⟩
    obtain ⟨-, -, recoverable⟩ := paces.uncapped run rfl
    refine ⟨?_, ?_⟩
    · cases e with
      | fault f => exact ⟨f, rfl⟩
      | exhausted e => exact absurd rfl (recoverable e)
    · rcases Nat.lt_or_ge k.toNat t.emitted with full | room
      · obtain ⟨signature, found, u, failed⟩ := lowerProgram_beyond run full
        exact .inr ⟨signature, found, by rw [failed]⟩
      · exact .inl (by rw [paces.within run rfl room])
  · refine ⟨?_, by rintro _ ⟨⟩⟩
    rintro _ ⟨⟩
    refine ⟨fun room => ?_, fun full => ?_⟩
    · exact ⟨by rw [paces.within run rfl room]; rfl, rfl⟩
    · obtain ⟨signature, found, u, failed⟩ := lowerProgram_beyond run full
      exact ⟨signature, found, by rw [failed]⟩

namespace Sites

def pick : Location := ⟨"sample.frag", 3, 1⟩

def main : Location := ⟨"sample.frag", 8, 1⟩

def sampleWith (body : List Stmt) : Source.Program :=
  { Sample.program with signatures := #[
      { name := "pick", returnType := .scalar .float, parameters := [], isDefined := true,
        body := [.ret (some Sample.weight)], site := some pick },
      { name := "main", returnType := .void, parameters := [], isDefined := true, body, site := some main }] }

/-- Both functions are lowered, to three instructions each. -/
def whole : Source.Program := sampleWith [.barrier, .barrier, .ret none]

/-- The second function emits an instruction before its body is found to be malformed. -/
def broken : Source.Program := sampleWith [.barrier, .function "inner" []]

theorem whole_lowers : ∃ p, lower whole {} = .ok p ∧ p.instrs.size = 6 := lower_checked (by decide +kernel)

theorem broken_fails : ∃ e, lower broken {} = .error e := by
  have checked : (lower broken {}).toOption.isNone = true := by decide +kernel
  cases failed : lower broken {} with
  | error e => exact ⟨e, rfl⟩
  | ok p => simp [failed, Except.toOption] at checked

end Sites

theorem lower_capped_sites :
    (∃ p, lower Sites.whole {} = .ok p ∧ p.instrs.size = 6 ∧
      lower Sites.whole { maxInstructions := some 6 } = .ok (p.limited (some 6)) ∧
      lower Sites.whole { maxInstructions := some 3 } = .error (.exhausted ⟨"instructions", some Sites.main⟩) ∧
      lower Sites.whole { maxInstructions := some 2 } = .error (.exhausted ⟨"instructions", some Sites.pick⟩)) ∧
    ∃ e, lower Sites.broken {} = .error e ∧ lower Sites.broken { maxInstructions := some 4 } = .error e := by
  obtain ⟨p, lowered, size⟩ := Sites.whole_lowers
  obtain ⟨e, failed⟩ := Sites.broken_fails
  have site : ∀ k : UInt32, ∀ l, k.toNat < 6 →
      (emitter? Sites.whole true k.toNat).map Signature.site = some (some l) →
      lower Sites.whole { maxInstructions := some k } = .error (.exhausted ⟨"instructions", some l⟩) := by
    intro k l full at'
    obtain ⟨signature, found, reported⟩ := ((lower_capped Sites.whole true k).1 lowered).2 (by omega)
    rw [found, Option.map_some, Option.some.injEq] at at'
    rw [reported, at']
  refine ⟨⟨p, lowered, size, ?_, ?_, ?_⟩, e, failed, ?_⟩
  · exact (((lower_capped Sites.whole true 6).1 lowered).1 (by rw [size]; decide)).1
  · exact site 3 _ (by decide) (by decide +kernel)
  · exact site 2 _ (by decide) (by decide +kernel)
  · obtain same | ⟨signature, found, -⟩ := ((lower_capped Sites.broken true 4).2 failed).2
    · exact same
    · have never : emitter? Sites.broken true (4 : UInt32).toNat = none := by
        have checked : (emitter? Sites.broken true (4 : UInt32).toNat).isNone = true := by decide +kernel
        exact Option.isNone_iff_eq_none.mp checked
      rw [never] at found
      cases found

end ShaderSSA.Lowering
