import ShaderSSA.Proofs.Likeness

/-!
Runs of lowering on states that are alike give results that are alike. The results need not be reached by the same
computation: what was read from the two states may differ as far as the likeness allows.
-/

namespace ShaderSSA.Lowering
open Source Target Lower

variable {c : Prop} {d : Defect} {op op' : Operation}

/-! ### Growing computations -/

/-- Every run of `m` leaves all arenas at least as large as they were. -/
class Grows {α : Type} (m : Lower α) : Prop where
  steps : Stepwise .program m

section
variable {α β : Type} {source : Source.Program} {m n : Lower α} {v w : ValueId} {head tail : LinkId} {i : IntrinsicOp}
  {r : Rvalue} {rs : List Rvalue} {srcs : List Src} {indices : Indices} {type : ShaderType} {width bits : UInt8}

instance {x : α} : Grows (pure x : Lower α) := ⟨by simp⟩

instance : Grows (abort d : Lower α) := ⟨by simp⟩

instance {e : Except Fault α} : Grows (check e) := ⟨by simp⟩

instance {f : α → Lower β} [first : Grows m] [rest : ∀ a, Grows (f a)] : Grows (m >>= f) :=
  ⟨stepwise_bind first.steps fun a => (rest a).steps⟩

instance [Decidable c] [Grows m] [Grows n] : Grows (if c then m else n) := by
  split <;> infer_instance

instance {m : Lower Unit} [h : Grows m] : Grows (inRegion m) := ⟨by simp [h.steps]⟩

instance : Grows nativeIntegers := ⟨by simp⟩

instance : Grows program := ⟨by simp⟩

instance : Grows (valueDef v) := ⟨by simp⟩

instance {f : Region → Region} : Grows (modifyRegion f) := ⟨by simp⟩

instance : Grows (emitEffect op) := ⟨by simp⟩

instance : Grows (emitValue op width bits) := ⟨by simp⟩

instance : Grows emitZero := ⟨by simp⟩

instance : Grows emitUndef := ⟨by simp⟩

instance : Grows (nonzeroTest v w) := ⟨by simp⟩

instance {raw : Bool} : Grows (emitLoad raw op width bits) := ⟨by simp⟩

instance {var : Target.VarId} : Grows (rootChain var type) := ⟨by simp⟩

instance {c : Chain} {kind : LinkKind} : Grows (appendLink c kind type) := ⟨by simp⟩

instance {x : Variable} {owner : Option FuncId} : Grows (addVariable x owner) := ⟨stepwise_addVariable x owner⟩

instance : Grows (loadLocation type head) := ⟨by simp⟩

instance {mask : UInt8} : Grows (storeLocation head v mask) := ⟨by simp⟩

instance : Grows (copyLocation head tail) := ⟨by simp⟩

instance {l : Literal} : Grows (constantChain l) := ⟨by simp⟩

instance {lanes : Lanes} : Grows (reorder v lanes width) := ⟨by simp⟩

instance {vs : List ValueId} : Grows (componentwise vs) := ⟨by simp⟩

instance : Grows (evaluate source r) := ⟨by simp⟩

instance : Grows (evaluateAll source rs) := ⟨by simp⟩

instance {op : ExprOp} {number skip : Nat} : Grows (evaluateOperand source op number skip rs) := ⟨by simp⟩

instance {p : Place} : Grows (placeChain source p) := ⟨by simp⟩

instance {kind : TexSrcKind} {r : Option Rvalue} : Grows (textureSource source kind r) := ⟨by simp⟩

instance {op : TextureOp} {lod : LodInfo} : Grows (lodSources source op lod) := ⟨by simp⟩

instance : Grows (locationChain source r) := ⟨by simp⟩

instance : Grows (locations source rs) := ⟨by simp⟩

instance : Grows (valueSources source rs) := ⟨by simp⟩

instance : Grows (emitResult i srcs indices width bits) := ⟨by simp⟩

instance : Grows (emitNoResult i srcs indices) := ⟨by simp⟩

instance {id : IntrinsicId} {image : ImageType} {result : Option ShaderType} :
    Grows (imageAccess source id i image result rs) := ⟨by simp⟩

instance : Grows (program >>= fun p => setProgram { p with info := { p.info with usesDiscard := true } }) :=
  ⟨stepwise_noteDiscard⟩

instance {condition : Option Rvalue} {m : Lower Unit} [Grows m] : Grows (guarded source condition m) := by
  cases condition <;> unfold guarded <;> infer_instance

instance {stmts : List Stmt} : Grows (lowerStmts source stmts) := ⟨by simp⟩

end

/-! ### Runs side by side -/

/-- Runs of `m` and `n` from states that are alike give results in `R` and states that are alike. -/
def Parallel (L : Likeness) {α β : Type} (R : α → β → Prop) (m : Lower α) (n : Lower β) : Prop :=
  ∀ ⦃s a s' t b t'⦄, Runs m s a s' → Runs n t b t' → s'.program.NoLarger L.left → t'.program.NoLarger L.right →
    L.alike s t → R a b ∧ L.alike s' t'

section
variable {L : Likeness} {α α' β β' : Type} {R : α → α' → Prop} {S : β → β' → Prop}

theorem parallel_pure {a : α} {b : α'} (results : R a b) : Parallel L R (pure a) (pure b) := by
  intro s _ _ t _ _ run run' _ _ alike
  obtain ⟨rfl, rfl⟩ := runs_pure.mp run
  obtain ⟨rfl, rfl⟩ := runs_pure.mp run'
  exact ⟨results, alike⟩

theorem parallel_abort {n : Lower α'} : Parallel L R (abort d) n := by
  intro s a _ t b _ run
  exact (runs_abort run).elim

theorem parallel_bind {x : Lower α} {y : Lower α'} {f : α → Lower β} {g : α' → Lower β'} [grows : ∀ a, Grows (f a)]
    [grows' : ∀ b, Grows (g b)] (first : Parallel L R x y) (rest : ∀ {a b}, R a b → Parallel L S (f a) (g b)) :
    Parallel L S (x >>= f) (y >>= g) := by
  intro s c s' t d t' run run' small small' alike
  obtain ⟨a, u, run, next⟩ := runs_bind.mp run
  obtain ⟨b, v, run', next'⟩ := runs_bind.mp run'
  have before := ((grows a).steps.path next).noLarger.trans small
  have before' := ((grows' b).steps.path next').noLarger.trans small'
  obtain ⟨results, alike⟩ := first run run' before before' alike
  exact rest results next next' small small' alike

/-- A remainder that takes cases has no instance of `Grows`: it is taken apart by the rules of `Stepwise`. -/
theorem parallel_bind_of {x : Lower α} {y : Lower α'} {f : α → Lower β} {g : α' → Lower β'}
    (first : Parallel L R x y) (rest : ∀ {a b}, R a b → Parallel L S (f a) (g b))
    (steps : ∀ a, Stepwise .program (f a) := by
      repeat' first | with_reducible apply stepwise_bind | intro _ | split | simp)
    (steps' : ∀ b, Stepwise .program (g b) := by
      repeat' first | with_reducible apply stepwise_bind | intro _ | split | simp) :
    Parallel L S (x >>= f) (y >>= g) :=
  have := fun a => Grows.mk (steps a)
  have := fun b => Grows.mk (steps' b)
  parallel_bind first rest

theorem parallel_check {e : Except Fault α} {e' : Except Fault α'} (results : ∀ {a b}, e = .ok a → e' = .ok b → R a b) :
    Parallel L R (check e) (check e') := by
  intro s a _ t b _ run run' _ _ alike
  obtain ⟨found, rfl⟩ := runs_check.mp run
  obtain ⟨found', rfl⟩ := runs_check.mp run'
  exact ⟨results found found', alike⟩

theorem parallel_check_same (e : Except Fault α) : Parallel L Eq (check e) (check e) :=
  parallel_check fun found found' => Except.ok.inj (found.symm.trans found')

theorem parallel_ite [Decidable c] {m₁ m₂ : Lower α} {n₁ n₂ : Lower α'} (yes : c → Parallel L R m₁ n₁)
    (no : ¬ c → Parallel L R m₂ n₂) : Parallel L R (if c then m₁ else m₂) (if c then n₁ else n₂) := by
  by_cases h : c
  · rw [if_pos h, if_pos h]
    exact yes h
  · rw [if_neg h, if_neg h]
    exact no h

theorem parallel_unless [Decidable c] {f : β → Lower α} {f' : β' → Lower α'} {m : Lower α} {n : Lower α'}
    (rest : ¬ c → Parallel L R m n) :
    Parallel L R (if c then abort d >>= f else m) (if c then abort d >>= f' else n) := by
  refine parallel_ite (fun _ => ?_) rest
  intro s a _ t b _ run
  obtain ⟨_, _, aborted, -⟩ := runs_bind.mp run
  exact (runs_abort aborted).elim

/-! ### Reading the state -/

theorem parallel_nativeIntegers : Parallel L (fun a b => L.sameMode → a = b) nativeIntegers nativeIntegers := by
  intro s a _ t b _ run run' _ _ alike
  obtain ⟨rfl, rfl⟩ := runs_nativeIntegers.mp run
  obtain ⟨rfl, rfl⟩ := runs_nativeIntegers.mp run'
  exact ⟨L.mode alike, alike⟩

theorem parallel_scope : Parallel L (fun c d => ∃ s t, L.alike s t ∧ s.scope = c ∧ t.scope = d) scope scope := by
  intro s c _ t d _ run run' _ _ alike
  obtain ⟨rfl, rfl⟩ := runs_scope.mp run
  obtain ⟨rfl, rfl⟩ := runs_scope.mp run'
  exact ⟨⟨_, _, alike, rfl, rfl⟩, alike⟩

theorem parallel_program :
    Parallel L (fun p q => ∃ s t, L.alike s t ∧ s.program = p ∧ t.program = q) program program := by
  intro s p _ t q _ run run' _ _ alike
  obtain ⟨rfl, rfl⟩ := runs_program.mp run
  obtain ⟨rfl, rfl⟩ := runs_program.mp run'
  exact ⟨⟨_, _, alike, rfl, rfl⟩, alike⟩

theorem parallel_valueDef {v w : ValueId} (values : L.value v w) :
    Parallel L (ValueDef.Alike L.toPairing) (valueDef v) (valueDef w) := by
  intro s a _ t b _ run run' _ _ alike
  obtain ⟨found, rfl⟩ := runs_valueDef.mp run
  obtain ⟨found', rfl⟩ := runs_valueDef.mp run'
  exact ⟨L.values alike values found found', alike⟩

/-! ### Regions -/

theorem parallel_inRegion {m n : Lower Unit} (inner : Parallel L (fun _ _ => True) m n) :
    Parallel L (fun r r' => NodesAlike L.toPairing r.toList r'.toList) (inRegion m) (inRegion n) := by
  intro s r _ t r' _ run run' small small' alike
  obtain ⟨u, within, rfl, rfl⟩ := runs_inRegion.mp run
  obtain ⟨v, within', rfl, rfl⟩ := runs_inRegion.mp run'
  obtain ⟨-, after⟩ := inner within within' small small' (L.region alike .nil)
  exact ⟨L.nodes after, L.region after (L.nodes alike)⟩

theorem parallel_push {n m : Node} (nodes : n.Alike L.toPairing m) :
    Parallel L (fun _ _ => True) (modifyRegion (·.push n)) (modifyRegion (·.push m)) := by
  intro s _ _ t _ _ run run' _ _ alike
  obtain rfl := runs_modifyRegion.mp run
  obtain rfl := runs_modifyRegion.mp run'
  exact ⟨trivial, L.region alike ((L.nodes alike).push nodes)⟩

/-! ### Additions to the program -/

theorem parallel_emitEffect (ops : op.Alike L.toPairing op') :
    Parallel L (fun _ _ => True) (emitEffect op) (emitEffect op') := by
  intro s _ _ t _ _ run run' small small' alike
  obtain rfl := emitEffect_ok run
  obtain rfl := emitEffect_ok run'
  exact ⟨trivial, L.effect alike ops small small'⟩

theorem parallel_emitValue {width bits bits' : UInt8} (ops : op.Alike L.toPairing op')
    (sizes : L.sameMode → bits = bits') : Parallel L L.value (emitValue op width bits) (emitValue op' width bits') := by
  intro s v _ t w _ run run' small small' alike
  obtain ⟨rfl, rfl, width⟩ := emitValue_ok run
  obtain ⟨rfl, rfl, -⟩ := emitValue_ok run'
  exact L.define alike ops width sizes small small'

theorem parallel_rootChain {v w : Target.VarId} (vars : L.var v w) (type : ShaderType) :
    Parallel L (Chain.Alike L.toPairing) (rootChain v type) (rootChain w type) := by
  intro s c _ t d _ run run' small small' alike
  obtain ⟨rfl, rfl⟩ := rootChain_ok run
  obtain ⟨rfl, rfl⟩ := rootChain_ok run'
  obtain ⟨heads, alike⟩ := L.root alike vars rfl rfl small small'
  exact ⟨⟨heads, heads⟩, alike⟩

theorem parallel_appendLink {c d : Chain} (chains : c.Alike L.toPairing d) {kind kind' : LinkKind}
    (kinds : kind.Alike L.toPairing kind') (type : ShaderType) :
    Parallel L (Chain.Alike L.toPairing) (appendLink c kind type) (appendLink d kind' type) := by
  intro s _ _ t _ _ run run' small small' alike
  obtain ⟨ls, appended, rfl⟩ := appendLink_ok run
  obtain ⟨ls', appended', rfl⟩ := appendLink_ok run'
  exact L.append alike chains kinds appended appended' small small'

theorem parallel_addVariable {x y : Variable} (vars : x.Alike L.toPairing y) (stored : L.stores x.storage) :
    Parallel L L.var (addVariable x L.current) (addVariable y L.current) := by
  intro s v _ t w _ run run' small small' alike
  obtain ⟨p, added, rfl⟩ := addVariable_ok run
  obtain ⟨q, added', rfl⟩ := addVariable_ok run'
  exact L.add alike vars stored added added' small small'

end

end ShaderSSA.Lowering
