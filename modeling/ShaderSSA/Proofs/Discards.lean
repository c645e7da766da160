import ShaderSSA.Proofs.Additions

/-!
The summary says that a program discards exactly when one of its instructions does. Only the lowering of a discard
emits such an instruction, and it notes so; all other parts of lowering leave the note alone.
-/

namespace ShaderSSA

namespace Target

theorem Operation.retains_of_evaluates {op : Operation} (h : op.evaluates = true) : op.retains = true := by
  cases op with
  | intrinsic op srcs indices => cases op <;> first | rfl | cases h
  | _ => rfl

end Target

namespace Lowering
open Source Target Lower

variable {source : Source.Program} {s u t : State} {α β : Type} {op : Operation} {m : Lower α}

@[simp]
theorem Evaluates.retaining (h : Evaluates m) : Adding Operation.retains m :=
  h.adding.mono fun _ => Operation.retains_of_evaluates

/-- The summary says that the program discards exactly when an instruction does. -/
def State.Noted (s : State) : Prop :=
  s.program.info.usesDiscard = s.program.instrs.any fun i => i.operation.discards

theorem State.Noted.adds (noted : s.Noted) (h : Adds Operation.retains s t) : t.Noted := by
  obtain ⟨⟨more, instrs, retained⟩, info⟩ := h
  have quiet : more.any (fun i => i.operation.discards) = false := by
    rw [List.any_eq_false]
    intro i member
    simpa [Operation.retains] using retained i member
  rw [State.Noted, info, noted, ← Array.any_toList, ← Array.any_toList, instrs, List.any_append, quiet, Bool.or_false]

theorem State.Noted.discard (discards : op.discards = true) (info : Info) (note : info.usesDiscard = true) :
    State.Noted { s.withEffect op with program := { (s.withEffect op).program with info } } := by
  simp [State.Noted, State.withEffect, State.pushed, discards, note]

/-- `m` keeps the summary's word. -/
structure Noting (m : Lower α) : Prop where
  noted : ∀ {s a t}, Runs m s a t → s.Noted → t.Noted

theorem Adding.noting (h : Adding Operation.retains m) : Noting m :=
  ⟨fun run noted => noted.adds (h.adds run)⟩

theorem noting_bind {x : Lower α} {f : α → Lower β} (hx : Noting x) (hf : ∀ a, Noting (f a)) : Noting (x >>= f) := by
  refine ⟨fun run noted => ?_⟩
  obtain ⟨a, u, first, next⟩ := runs_bind.mp run
  exact (hf a).noted next (hx.noted first noted)

theorem noting_inRegion {m : Lower Unit} (h : Noting m) : Noting (inRegion m) := by
  refine ⟨fun run noted => ?_⟩
  obtain ⟨u, inner, -, rfl⟩ := runs_inRegion.mp run
  have after : u.Noted := h.noted inner noted
  exact after

theorem Composes.noting {layer : Layer} (h : Composes true layer m) : Noting m := by
  induction h with
  | evaluates h => exact h.retaining.noting
  | read _ _ ih => exact noting_bind adding_program.noting ih
  | @select _ _ e _ _ ih =>
    cases e with
    | error f => exact (adding_check (.error f)).noting
    | ok a => exact ih a rfl
  | bind _ _ first rest => exact noting_bind first rest
  | effect retains => exact (adding_emitEffect (retains rfl)).noting
  | value retains width bitSize => exact (adding_emitValue (retains rfl) width bitSize).noting
  | discard discards =>
    refine ⟨fun run _ => ?_⟩
    simp only [runs_bind, runs_program, runs_setProgram] at run
    obtain ⟨_, _, emitted, _, _, ⟨rfl, rfl⟩, rfl⟩ := run
    obtain rfl := emitEffect_ok emitted
    exact .discard discards _ rfl
  | inRegion _ ih => exact noting_inRegion ih
  | attach _ => exact (adding_modifyRegion _).noting
  | declare _ source id => exact (adding_declare source id).noting

/-! ### Programs -/

theorem noting_lowerBody (signature : Signature) (f : FuncId) : Noting (lowerBody source signature f) := by
  refine ⟨fun {s a t} run noted => ?_⟩
  obtain ⟨v, w, q, log, ⟨p, u, emptied, params, returned⟩, stmts, changed, rfl⟩ := lowerBody_ok run
  obtain ⟨g, -, rfl⟩ := Program.setBody_ok emptied
  have declared : v.Noted :=
    (adding_declareReturn f _).noting.noted returned
      ((adding_declareParams source signature f _).noting.noted params noted)
  have lowered : w.Noted := (composes_lowerStmts true source signature.body).noting.noted stmts declared
  obtain ⟨g, b, -, -, rfl⟩ := Program.modifyBody_ok changed
  exact lowered

theorem noting_lowerSignatures (ids : List SignatureId) : Noting (lowerSignatures source ids) := by
  induction ids with
  | nil => exact (adding_pure ()).noting
  | cons id ids ih =>
    unfold lowerSignatures
    refine noting_bind ⟨fun {s a t} run noted => ?_⟩ fun _ => ih
    obtain ⟨signature, -, ⟨-, rfl⟩ | ⟨-, f, -, ⟨-, log, rfl⟩ | ⟨-, body⟩⟩⟩ := lowerSignature_ok run
    · exact noted
    · exact noted
    · exact (noting_lowerBody signature f).noted body noted

theorem noting_lowerAll (stmts : List Stmt) : Noting (lowerAll source stmts) := by
  fun_induction lowerAll source stmts with
  | case1 => exact (adding_pure ()).noting
  | case2 id rest ih => exact noting_bind (adding_declare source id).noting fun _ => ih
  | case3 name signatures rest ih => exact noting_bind (noting_lowerSignatures signatures) fun _ => ih
  | case4 => exact (adding_abort _).noting

end Lowering

end ShaderSSA
