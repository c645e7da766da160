import ShaderSSA.Proofs.Bookkeeping
import ShaderSSA.Proofs.Weave

/-!
Programs whose chains are linear. Lowering hands every chain to one instruction, so in a lowered program the
instructions name each root once and the walks from them visit every link once.
-/

namespace ShaderSSA.Lowering
open Source Target Lower

variable {source : Source.Program}

/-- The chains that wait are strands beside those that instructions name. Roots have the types of their variables if
the source is typed. -/
def chainLedger (source : Source.Program) : Ledger source where
  fine := source.varsTyped = true
  holds s _ live := s.program.Woven (live.map Held.chain) ∧ (source.varsTyped = true → s.program.RootsTyped)
  frame frames h :=
    ⟨h.1.congr frames.instrs frames.links, fun fine => (h.2 fine).mono (by rw [frames.vars]; exact id) frames.links⟩
  add creates _ _ h := by
    obtain ⟨x, vars, -⟩ := creates.vars
    exact ⟨h.1.congr creates.instrs creates.links,
      fun fine => (h.2 fine).mono (by rw [vars]; exact getElem?_push_of_some) creates.links⟩
  root _ typed run _ h := by
    obtain ⟨rfl, rfl⟩ := rootChain_ok run
    rw [List.map_append]
    refine ⟨h.1.root _ _, fun fine => (h.2 fine).push fun w root => ?_⟩
    obtain rfl := LinkKind.var.inj root
    exact typed fine
  constant {s u t f l c done live} creates run fits h := by
    obtain ⟨x, vars, makes⟩ := creates.vars
    have small := (run.fits_before (by simp) fits).vars
    rw [vars, Array.size_push] at small
    have there : u.program.var? s.nextVar = some x := by
      rw [Target.Program.var?, vars, State.nextVar, UInt32.toNat_ofNat_of_lt' (Nat.lt_of_succ_lt small),
        Array.getElem?_push_size]
    obtain ⟨rfl, rfl⟩ := rootChain_ok run
    rw [List.map_append]
    refine ⟨(h.1.congr creates.instrs creates.links).root _ _, fun fine => ?_⟩
    refine ((h.2 fine).mono (by rw [vars]; exact getElem?_push_of_some) creates.links).push fun w root => ?_
    obtain rfl := LinkKind.var.inj root
    exact ⟨x, there, makes.2.2.2.2.1⟩
  append run fits h := by
    have small := (run.fits_before (by simp) fits).links
    obtain ⟨links, appended, rfl⟩ := appendLink_ok run
    obtain ⟨parent, found, narrowed, rfl, rfl⟩ := append_ok appended
    have narrows := LinkKind.narrows?_of_narrowed narrowed
    rw [List.map_append] at h ⊢
    refine ⟨h.1.append small found narrows, fun fine => .adopt ((h.2 fine).push fun v root => ?_) _ _⟩
    cases root
    cases narrows
  emit issue issued h := by
    rw [List.map_append] at h
    exact ⟨h.1.emit issued.instrs issued.links (by rw [List.map_map]; exact issue.names),
      fun fine => (h.2 fine).mono (by rw [issued.vars]; exact id) issued.links⟩

/-- In a lowered program no chain waits. -/
theorem lower_woven {capabilities : Capabilities} {p : Target.Program} (h : lower source capabilities = .ok p)
    (fits : p.Fits) : p.Woven [] ∧ (source.varsTyped = true → p.RootsTyped) := by
  obtain ⟨t, rfl, -, woven⟩ := lower_carries (chainLedger source) h fits id fun {s} registers _ => by
    refine ⟨⟨[], [], ?_, rfl, ?_⟩, fun _ i link v found => ?_⟩
    · rw [Program.locations, registers.instrs]
      rfl
    · rw [registers.links]
      exact .empty
    · rw [registers.links] at found
      cases found
  exact woven

/-- In a lowered program every chain is named once and visited whole. Where every variable of the source carries the
type of its declaration, every root has the type of the variable that it names. -/
theorem lower_linear {capabilities : Capabilities} {p : Target.Program} (h : lower source capabilities = .ok p)
    (fits : p.Fits) : p.Linear ∧ (source.varsTyped = true → p.RootsTyped) := by
  obtain ⟨woven, typed⟩ := lower_woven h fits
  exact ⟨woven.linear fits, typed⟩

/-- The chain of an element waits while the index is loaded, so the links of chains lie mixed. -/
theorem lower_linear_sample : Sample.program.varsTyped = true ∧ ∃ p, lower Sample.program {} = .ok p ∧ p.Fits ∧
    p.locations = [2, 0, 1, 4, 5, 6, 8, 10, 9, 7].map LinkId.mk ∧
    p.links.toList.filterMap Link.child = [3, 11].map LinkId.mk ∧ p.Linear ∧ p.RootsTyped := by
  have typed : Sample.program.varsTyped = true := by decide +kernel
  obtain ⟨p, lowered, fits, locations, children⟩ : ∃ p, lower Sample.program {} = .ok p ∧ p.Fits ∧
      p.locations = [2, 0, 1, 4, 5, 6, 8, 10, 9, 7].map LinkId.mk ∧
      p.links.toList.filterMap Link.child = [3, 11].map LinkId.mk := lower_checked (by decide +kernel)
  obtain ⟨linear, roots⟩ := lower_linear lowered fits
  exact ⟨typed, p, lowered, fits, locations, children, linear, roots typed⟩

end ShaderSSA.Lowering
