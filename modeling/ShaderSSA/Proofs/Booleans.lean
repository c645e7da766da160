import ShaderSSA.Proofs.Order

/-!
Booleans in buffer memory. In a lowered program every raw load stands between a zero and its test, and the
test is all that reads what it loads: every other operand, condition and index is clean.
-/

namespace ShaderSSA

namespace Target

variable {p : Program}

/-! ### Raw loads in a finished program -/

/-- The region is the body of a function, or inside one. -/
def Program.HasRegion (p : Program) (region : List Node) : Prop :=
  ∃ function ∈ p.functions, ∃ body, function.body = some body ∧ Within region body.nodes

/-- The raw load stands between its zero and its test wherever it stands, and only its test reads it. -/
structure RawTest.Normalised (x : RawTest) (p : Program) (n : Nat) : Prop where
  stands : x.At p n
  together : ∀ {region}, p.HasRegion region → .instr ⟨UInt32.ofNat (n + 1)⟩ ∈ region →
    ∃ before behind, region = before ++ (instsBetween n (n + 3)).map .instr ++ behind
  operand : ∀ {i : Nat} {y}, p.instrs[i]? = some y → x.raw ∈ y.operation.values → i = n + 2
  condition : ∀ {region c a b}, p.HasRegion region → .branch c a b ∈ region → c ≠ x.raw
  index : ∀ {i : Nat} {link}, p.links[i]? = some link → link.kind.index? ≠ some x.raw

/-- Moreover, some region holds the three instructions as long as no signature of the source is listed twice. -/
structure RawTest.Settled (x : RawTest) (source : Source.Program) (p : Program) (n : Nat) : Prop extends
    x.Normalised p n where
  held : source.listed.Nodup → ∃ before behind, p.HasRegion (before ++ (instsBetween n (n + 3)).map .instr ++ behind)

/-- What `p` holds is tidy in `q`. -/
structure Neat (p q : Program) : Prop where
  placed : ∀ {i : Nat}, i < p.instrs.size → Placed q i
  indices : ∀ {i : Nat} {link v}, p.links[i]? = some link → link.kind.index? = some v → q.Clean v
  bodies : ∀ {i : Nat} {code}, p.code? i = some code → Tidy q code.2

theorem Neat.region (neat : Neat p p) {region : List Node} (has : p.HasRegion region) : Tidy p region := by
  obtain ⟨function, member, body, has, inside⟩ := has
  obtain ⟨i, there⟩ := Array.mem_iff_getElem?.mp member
  have code : p.code? i = some (body.returnVar, body.nodes) := by
    rw [Program.code?, there, Option.bind_some, has, Option.map_some]
  exact (neat.bodies code).within inside

theorem Within.cons {first node : Node} {rest : List Node} (h : ∃ region, Within region rest ∧ node ∈ region) :
    ∃ region, Within region (first :: rest) ∧ node ∈ region := by
  obtain ⟨region, inside, member⟩ := h
  cases inside with
  | here => exact ⟨_, .here _, List.mem_cons_of_mem _ member⟩
  | thenBody there inner => exact ⟨region, .thenBody (List.mem_cons_of_mem _ there) inner, member⟩
  | elseBody there inner => exact ⟨region, .elseBody (List.mem_cons_of_mem _ there) inner, member⟩
  | body there inner => exact ⟨region, .body (List.mem_cons_of_mem _ there) inner, member⟩

end Target

namespace Lowering
open Source Target Lower

variable {source : Source.Program} {s u t : State} {p : Target.Program} {capabilities : Capabilities} {i : Nat}
  {v : ValueId}

/-! ### Whole programs are tidy -/

theorem Declares.neat {q : Target.Program} (h : Declares s t) (neat : Neat s.program q) : Neat t.program q :=
  ⟨by rw [h.instrs]; exact neat.placed, by rw [h.links]; exact neat.indices, by rw [h.code?]; exact neat.bodies⟩

theorem Lowers.neat {signature : Signature} {f : FuncId} {code : Option Target.VarId × List Node}
    (h : Lowers source signature f s t code) (rested : s.Rested) {q : Target.Program} (neat : Neat s.program q)
    (later : t.program.Extends q) (fits : q.Fits) : Neat t.program q := by
  have sealed := h.sealed rested later fits
  have grown := Program.Keeps.size_le later.instrs
  refine ⟨?_, ?_, ?_⟩
  · intro i inside
    rcases Nat.lt_or_ge i s.program.instrs.size with old | new
    · exact neat.placed old
    · -- the body holds the new instructions
      have member : (⟨UInt32.ofNat i⟩ : InstId) ∈ instrsOf code.2 := by
        rw [h.numbered]
        exact mem_instsBetween.mpr ⟨i, new, inside, rfl⟩
      obtain ⟨j, same, placed⟩ := sealed.tidy.placed member
      obtain ⟨n, length, group, above, below⟩ := placed
      have bound := group.le_size
      have index := congrArg (fun id => id.index.toNat) same
      simp only [UInt32.toNat_ofNat_of_lt' (Nat.lt_trans (Nat.lt_of_lt_of_le inside grown) fits.instrs),
        UInt32.toNat_ofNat_of_lt' (Nat.lt_trans (Nat.lt_of_lt_of_le below bound) fits.instrs)] at index
      rw [index]
      exact ⟨n, length, group, above, below⟩
  · intro i link v there index
    rcases Nat.lt_or_ge i s.program.links.size with old | new
    · have before := Array.getElem?_eq_getElem old
      obtain rfl := Option.some.inj (there.symm.trans (h.keeps.links trivial before))
      exact neat.indices before index
    · exact sealed.indices new there index
  · intro i other there
    by_cases here : f.index.toNat = i
    · rw [← here, h.fills.here] at there
      rw [← Option.some.inj there]
      exact sealed.tidy
    · rw [h.fills.elsewhere here] at there
      exact neat.bodies there

/-- The signatures in `done` are lowered, and all that was emitted is tidy. -/
structure Tidied (source : Source.Program) (done : List SignatureId) (s : State) : Prop where
  filled : Filled source done s
  rested : s.Rested
  neat : ∀ {q}, s.program.Extends q → q.Fits → Neat s.program q

namespace Tidied
variable {done : List SignatureId}

theorem declare (h : Tidied source done s) {x : Source.VarId} {v : Target.VarId}
    (run : Runs (declare source x) s v t) : Tidied source done t where
  filled := h.filled.declare run
  rested := by
    intro i y last there
    rw [(declare_declares run).instrs] at last there
    exact h.rested last there
  neat := by
    intro q later fits
    have kept := declare_declares run
    exact kept.neat (h.neat (kept.keeps.trans later fun _ => id) fits)

theorem lowerSignature (h : Tidied source done s) {x : SignatureId}
    (run : Runs (lowerSignature source x) s () t) (fits : t.program.Fits) : Tidied source (done ++ [x]) t := by
  have filled := h.filled.lowerSignature run fits
  obtain ⟨signature, -, ⟨-, rfl⟩ | ⟨-, f, -, ⟨-, log, rfl⟩ | ⟨-, body⟩⟩⟩ := lowerSignature_ok run
  · exact ⟨filled, h.rested, h.neat⟩
  · exact ⟨filled, h.rested, h.neat⟩
  · obtain ⟨code, lowers⟩ := lowerBody_code h.filled.bound body fits
    refine ⟨filled, lowers.rested h.rested, ?_⟩
    intro q later fits
    exact lowers.neat h.rested (h.neat (lowers.keeps.trans later fun _ => id) fits) later fits

end Tidied

/-- What the state has emitted stands in the program. -/
structure State.EmittedIn (t : State) (p : Target.Program) : Prop where
  instrs : t.program.instrs.toList <+: p.instrs.toList
  values : t.program.values.toList <+: p.values.toList

theorem Path.emittedIn {layer : Layer} (path : Path layer s t) : s.EmittedIn t.program := by
  have kept : ∀ {α : Type} {a b : Array α}, (∀ {i : Nat} {x}, a[i]? = some x → b[i]? = some x) →
      a.toList <+: b.toList := by
    intro α a b kept
    refine List.prefix_iff_getElem?.mpr fun i inside => ?_
    rw [Array.getElem?_toList]
    exact kept (by simp)
  exact ⟨kept path.keeps.instrs, kept path.keeps.values⟩

theorem State.EmittedIn.instr (h : t.EmittedIn p) {x : Instr} (found : t.program.instrs[i]? = some x) :
    p.instrs[i]? = some x := by
  obtain ⟨inside, rfl⟩ := Array.getElem?_eq_some_iff.mp found
  have there := List.prefix_iff_getElem?.mp h.instrs i (by simpa using inside)
  simpa using there

theorem State.EmittedIn.small (h : t.EmittedIn p) (fits : p.Fits) : t.program.values.size < UInt32.size := by
  have shorter := h.values.length_le
  simp only [Array.length_toList] at shorter
  exact Nat.lt_of_le_of_lt shorter fits.values

namespace Flags

def seen : Place := .var ⟨1⟩ (.scalar .bool)

def load : Rvalue :=
  .expression .uboLoad (.scalar .bool) [.constant (.uint 0), .constant (.uint 4)]

def fetch : Source.Call :=
  { callee := ⟨0⟩, parameters := [.constant (.uint 0), .constant (.uint 8)], result := some seen }

/-- Booleans are read from buffer memory in all three ways. -/
def body : List Stmt := [
  .assign seen load 0 none,
  .call fetch,
  .assign seen (.expression .logicNot (.scalar .bool) [.place (.var ⟨0⟩ (.scalar .bool))]) 0 none]

def program : Source.Program where
  name := "flags"
  layout := .fragment false .none false
  vars := #[
    { name := "flag", type := .scalar .bool, mode := .uniform, interfaceBlock := some "Block" },
    { name := "seen", type := .scalar .bool, mode := .shaderOut }]
  signatures := #[
    { name := "fetch", returnType := .scalar .bool, parameters := [], body := [], isDefined := false,
      intrinsic := some .ssboLoad },
    { name := "main", returnType := .void, parameters := [], body, isDefined := true }]
  statements := [.declare ⟨0⟩, .declare ⟨1⟩, .function "fetch" [⟨0⟩], .function "main" [⟨1⟩]]

theorem body_runs (lowered : lower program {} = .ok p) :
    ∃ s t u w, Runs (assign program seen load 0 none) s () t ∧ Runs (lowerCall program fetch) t () u ∧
      Path .statement u w ∧ w.program.instrs = p.instrs ∧ w.program.values = p.values := by
  obtain ⟨s, t, info, -, top, rfl⟩ := lower_ok lowered
  rw [show program.statements = [.declare ⟨0⟩, .declare ⟨1⟩, .function "fetch" [⟨0⟩], .function "main" [⟨1⟩]] from rfl]
    at top
  simp only [lowerAll, lowerSignatures, runs_bind, runs_pure] at top
  obtain ⟨_, _, -, _, _, -, _, _, -, _, _, ⟨_, _, main, -, rfl⟩, -, rfl⟩ := top
  obtain ⟨_, found, ⟨builtin, -⟩ | ⟨-, f, -, ⟨declared, -⟩ | ⟨-, filled⟩⟩⟩ := lowerSignature_ok main
  all_goals obtain rfl := Option.some.inj found
  · cases builtin
  · cases declared
  obtain ⟨v, w, q, _, -, stmts, changed, rfl⟩ := lowerBody_ok filled
  obtain ⟨b, -, written⟩ := Program.modifyBody_code? changed
  obtain ⟨g, -, rfl⟩ := Program.setBody_ok written
  have stmts : Runs (lowerStmts program body) { v with region := {} } () w := stmts
  simp only [body, lowerStmts, lowerStmt, runs_bind, runs_pure] at stmts
  obtain ⟨_, t, assigned, _, u, called, _, w, last, -, rfl⟩ := stmts
  exact ⟨_, t, u, w, assigned, called, (composes_assign ..).stepwise.path last, rfl, rfl⟩

theorem runs : ∃ p s v t u w, lower program {} = .ok p ∧ p.Fits ∧
    (∃ x, p.instrs[13]? = some x ∧ p.loadsRaw x.operation = true) ∧
    Runs (evaluate program load) s v t ∧ t.EmittedIn p ∧
    Runs (lowerCall program fetch) u () w ∧ w.EmittedIn p := by
  have checked : (lower program {}).toOption.any (fun p => decide p.Fits &&
      p.instrs[13]?.any fun x => p.loadsRaw x.operation) = true := by
    decide +kernel
  simp only [Option.any_eq_true, Bool.and_eq_true, decide_eq_true_eq] at checked
  obtain ⟨p, found, fits, raw⟩ := checked
  have lowered : lower program {} = .ok p := by
    cases result : lower program {} <;> simp_all [Except.toOption]
  obtain ⟨_, u, w, z, assigned, called, path, instrs, values⟩ := body_runs lowered
  simp only [assign, runs_bind, runs_check, show load.isStored = false from rfl, Bool.false_and, Bool.false_eq_true,
    if_false, if_true, runs_pure, guarded] at assigned
  obtain ⟨_, _, -, _, s, -, v, _, evaluated, _, t, ⟨rfl, rfl⟩, stored⟩ := assigned
  have between : Path .statement t w :=
    ((composes_storeLocation ..).stepwise.path stored).trans ((composes_lowerCall ..).stepwise.path called)
  have emitted : ∀ {x : State}, Path .statement x z → x.EmittedIn p := by
    intro x path
    obtain ⟨kept, kept'⟩ := path.emittedIn
    exact ⟨instrs ▸ kept, values ▸ kept'⟩
  exact ⟨p, s, _, t, u, w, lowered, fits, raw, evaluated, emitted (between.trans path), called, emitted path⟩

end Flags

end Lowering

end ShaderSSA
