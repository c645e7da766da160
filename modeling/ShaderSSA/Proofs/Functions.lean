import ShaderSSA.Proofs.Accounts

/-!
Functions and their calls. A listed signature gets a function of its own each time it is listed, and calls name
the last one. The calls of a body are those of its statements, in order, and each passes the locations of its
parameters.
-/

namespace ShaderSSA

namespace Target

structure CallInstr where
  callee : FuncId
  params : List LinkId
  result : Option LinkId

def Operation.call? : Operation → Option CallInstr
  | .call callee params result => some ⟨callee, params, result⟩
  | _ => none

namespace Program

/-- The calls among the given instructions, in order. -/
def calls (p : Program) (ids : List InstId) : List CallInstr :=
  ids.filterMap fun id => (p.instr? id).bind fun x => x.operation.call?

theorem calls_append (p : Program) (a b : List InstId) : p.calls (a ++ b) = p.calls a ++ p.calls b :=
  List.filterMap_append

/-- The path that a chain reads back as. -/
def path? (p : Program) (minted : Nat) (head : LinkId) : Option (List Segment) :=
  (p.chain? head).bind fun kinds => kinds.mapM (p.segment minted (p.unfold minted p.values.size))

end Program

end Target

namespace Source

mutual

/-- The calls of functions in a statement, in order; a branch has those of its first body first. -/
def Stmt.calls (source : Program) : Stmt → List Call
  | .call call => if source.isUser call.callee then [call] else []
  | .loop body => stmtsCalls source body
  | .branch _ thenBody elseBody => stmtsCalls source thenBody ++ stmtsCalls source elseBody
  | .declare _ | .function .. | .discard _ | .jump _ | .ret _ | .assign .. | .emitVertex _ | .endPrimitive _
  | .barrier => []

def stmtsCalls (source : Program) : List Stmt → List Call
  | [] => []
  | s :: ss => s.calls source ++ stmtsCalls source ss

end

end Source

namespace Lowering
open Source Target Lower

variable {env : Env} {result : Option Target.VarId} {source : Source.Program} {s u t : State} {q : Target.Program}
  {nodes : List Node} {known : List Known} {live : List Live} {effects : List Skeleton} {native : Bool} {call : Call}
  {done : List SignatureId} {v : Target.VarId}

/-! ### Calls -/

def Env.Stands (env : Env) (source : Source.Program) (p : Target.Program) : Prop :=
  ∀ ⦃id : Source.VarId⦄ ⦃v⦄, env.bindings[id.index.toNat]? = some (some v) → ∃ decl x owner,
    source.var? id = some decl ∧ p.var? v = some x ∧ StandsFor x decl owner

/-- The chain reads back as the path of the location. -/
def Locates (env : Env) (p : Target.Program) (r : Rvalue) (head : LinkId) : Prop :=
  ∃ path, r.location? env = some path ∧ p.path? env.storage.size head = some path

/-- The instruction makes the call: it names the function of the callee, the location of every parameter, in
order, and the place of the result, if there is one. -/
structure Makes (source : Source.Program) (env : Env) (p : Target.Program) (call : Call) (x : CallInstr) :
    Prop where
  callee : source.functionOf? call.callee = some x.callee
  params : List.Forall₂ (Locates env p) call.parameters x.params
  result : Option.Rel (fun place => Locates env p (.place place)) call.result x.result

/-- The instruction makes the call, with variables in scope that stand for their declarations. -/
def IsMade (source : Source.Program) (native : Bool) (p : Target.Program) (call : Call) (x : CallInstr) : Prop :=
  ∃ env : Env, env.nativeIntegers = native ∧ env.Stands source p ∧ Makes source env p call x

theorem Facts.path?_eq {depth : Nat} (facts : Facts env result q depth nodes known live effects) (fits : q.Fits)
    {c : Live} (member : c ∈ live) (threaded : q.links.Threaded c.spots) (deep : depth ≤ q.values.size) :
    q.path? env.storage.size c.head = some c.path := by
  have walked : q.links.walk c.head = .ok (Links.thread c.spots) := threaded.walk fits.links
  have kinds : q.chain? c.head = some c.kinds := Program.chain?_of_walk walked
  rw [Program.path?, kinds, Option.bind_some]
  exact facts.drawn c member _ deep

/-- The calls among instructions, in order. -/
def callAccount (source : Source.Program) (native : Bool) : Account where
  Amount := List Call
  nothing := []
  join := (· ++ ·)
  nothing_join _ := rfl
  counts p ids calls := List.Forall₂ (IsMade source native p) calls (p.calls ids)
  nil _ := .nil
  append first rest := by
    rw [Program.calls_append]
    exact List.rel_append first rest
  tells
    | .call .. => true
    | _ => false
  silent {p id x _ _} there silent := by
    have other : x.operation.call? = none := by
      cases operation : x.operation <;> simp_all [Operation.call?, Operation.effect?]
    simp [Program.calls, there, other]

theorem callFunction_calls (inside : s.Inside result) (calling : s.Calling source native)
    (run : Runs (callFunction source call) s () t) (fits : t.program.Fits) :
    Amounts (callAccount source native) s t [call] := by
  obtain ⟨u, nodes, callee, params, target, found, paths, path, code, run⟩ :=
    @callFunction_draws s.env result source s t inside.ready call run fits
  obtain rfl := emitEffect_ok run
  have emitted := emits_effect u (.call callee (params.map Live.head) (target.map Live.head))
  refine code.amounts_trans (fun q kept small => ?_) emitted.keeps
  obtain ⟨facts, threaded, there⟩ := emitted.later code.toDraft (kept.mono fun _ _ => trivial) small
  have deep : u.program.values.size ≤ q.values.size :=
    Program.Keeps.size_le (emitted.before kept).values
  have drawn : ∀ c ∈ params ++ target.toList, q.path? s.env.storage.size c.head = some c.path :=
    fun c member => facts.path?_eq small member (threaded c member) deep
  have only : q.calls (instsBetween u.program.instrs.size (u.program.instrs.size + 1)) =
      [⟨callee, params.map Live.head, target.map Live.head⟩] := by
    have here : q.instr? ⟨UInt32.ofNat u.program.instrs.size⟩ = _ := there
    rw [instsBetween_succ]
    simp [Program.calls, here, Operation.call?]
  show List.Forall₂ (IsMade source native q) [call] (q.calls _)
  rw [emitted.size, only]
  refine .cons ⟨s.env, calling.native, ?_, ?_, ?_, ?_⟩ .nil
  · intro id v bound
    obtain ⟨decl, x, declared, there, owner, stands⟩ := calling.stands bound
    exact ⟨decl, x, owner, declared, (emitted.before kept).vars (code.keeps.vars there), stands⟩
  · rw [← calling.callees, found]
  · have both := (List.forall₂_and_left _ _).mpr
      ⟨fun c member => drawn c (List.mem_append_left _ member), paths.flip⟩
    exact List.forall₂_map_right_iff.mpr (both.flip.imp fun _ c h => ⟨c.path, h.2, h.1⟩)
  · have last : ∀ c ∈ target, q.path? s.env.storage.size c.head = some c.path :=
      fun c member => drawn c (List.mem_append_right _ (Option.mem_toList.mpr member))
    generalize call.result = place at path
    clear drawn there threaded facts emitted code run
    cases path with
    | none => exact .none
    | some path => exact .some ⟨_, path, last _ rfl⟩

/-! ### Statements -/

theorem callIntrinsic_quiet {functions : SignatureId → Option FuncId} {effects : List Effect}
    (builtin : source.isUser call.callee = false) (h : calling source functions call = some effects) :
    (callAccount source native).Quiet (effects.map .effect) := by
  rw [Account.Quiet, effectsOf_map]
  simp only [calling, Option.bind_eq_bind, Option.bind_eq_some_iff] at h
  obtain ⟨signature, found, h⟩ := h
  split at h
  · rename_i user
    simp [Program.isUser, found, Signature.isIntrinsic, user] at builtin
  · simp only [Option.bind_eq_some_iff, Option.pure_def, Option.some.injEq] at h
    obtain ⟨_, -, rfl⟩ := h
    split <;> simp [callAccount]

theorem lowerCall_calls (inside : s.Inside result) (calling : s.Calling source native)
    (run : Runs (lowerStmt source (.call call)) s () t) (fits : t.program.Fits) :
    Amounts (callAccount source native) s t ((Stmt.call call).calls source) := by
  rw [Stmt.calls]
  split
  · rename_i user
    simp only [lowerStmt, lowerCall, runs_bind, runs_check] at run
    obtain ⟨signature, _, ⟨found, rfl⟩, run⟩ := run
    split at run
    · rename_i id intrinsic
      simp [Program.isUser, getSignature_ok.mp found, Signature.isIntrinsic, intrinsic] at user
    · exact callFunction_calls inside calling run fits
  · rename_i builtin
    refine quiet_amounts inside run fits fun {effects} read => ?_
    simp only [Stmt.skeleton?, Option.map_eq_some_iff] at read
    obtain ⟨_, read, rfl⟩ := read
    exact callIntrinsic_quiet (by simpa using builtin) read

theorem simple_quiet {stmt : Stmt} (simple : stmt.isSimple = true) (other : ∀ call, stmt ≠ .call call)
    {functions : SignatureId → Option FuncId} (read : stmt.skeleton? source functions = some effects) :
    (callAccount source native).Quiet effects := by
  cases stmt with
  | declare id | function name ids | loop body | branch condition thenBody elseBody => cases simple
  | call call => exact absurd rfl (other call)
  | ret value =>
    obtain rfl := Option.some.inj read
    rw [Account.Quiet, effectsOf_map]
    cases value with
    | none => simp [returning, callAccount]
    | some value => simp only [returning]; split <;> simp [callAccount]
  | assign target value mask condition =>
    obtain rfl := Option.some.inj read
    have either : assignment target value mask = .copy false ∨ assignment target value mask = .store false := by
      unfold assignment
      split <;> simp
    rcases either with same | same <;> cases condition <;>
      simp [same, Account.Quiet, effectsOf, Skeleton.effects, callAccount]
  | jump jump =>
    cases jump <;> obtain rfl := Option.some.inj read <;>
      simp [Account.Quiet, effectsOf, Skeleton.effects, callAccount]
  | discard condition | emitVertex stream | endPrimitive stream | barrier =>
    obtain rfl := Option.some.inj read
    simp [Account.Quiet, effectsOf, Skeleton.effects, callAccount]

theorem calls_explain : Explains source native (callAccount source native) (Stmt.calls source) (stmtsCalls source) where
  nil := by rw [stmtsCalls]; rfl
  cons _ _ := by rw [stmtsCalls]; rfl
  loop _ := by rw [Stmt.calls]
  branch _ _ _ := by rw [Stmt.calls]; rfl
  declare _ := by rw [Stmt.calls]; rfl
  simple {stmt _ _ _} simple inside calling run fits := by
    by_cases called : ∃ call, stmt = .call call
    · obtain ⟨call, rfl⟩ := called
      exact lowerCall_calls inside calling run fits
    · have other := not_exists.mp called
      have none : stmt.calls source = [] := by
        cases stmt with
        | loop body | branch condition thenBody elseBody => cases simple
        | call call => exact absurd rfl (other call)
        | _ => rw [Stmt.calls]
      rw [none]
      exact quiet_amounts inside run fits fun read => simple_quiet simple other read

/-! ### Programs -/

/-- The signature whose function is the one at place `i` is defined, and the code makes its calls. -/
def IsBodyOf (source : Source.Program) (native : Bool) (s : State) (i : Nat) (nodes : List Node) : Prop :=
  ∃ id signature f, s.callees id = some f ∧ f.index.toNat = i ∧ source.signature? id = some signature ∧
    signature.isDefined = true ∧ ∀ ⦃q⦄, s.program.Extends q → q.Fits →
      List.Forall₂ (IsMade source native q) (stmtsCalls source signature.body) (q.calls (instrsOf nodes))

theorem IsBodyOf.mono {i : Nat} (h : IsBodyOf source native s i nodes) (callees : t.callees = s.callees)
    (keeps : s.program.Extends t.program) : IsBodyOf source native t i nodes := by
  obtain ⟨x, signature, f, callee, here, found, defined, makes⟩ := h
  exact ⟨x, signature, f, by rw [callees, callee], here, found, defined,
    fun q kept fits => makes (keeps.trans kept fun _ => id) fits⟩

/-- The signatures in `done` are lowered, and every body is that of a signature. -/
structure Resolved (source : Source.Program) (native : Bool) (done : List SignatureId) (s : State) : Prop where
  filled : Filled source done s
  calling : s.Calling source native
  bodies : ∀ {i : Nat} {code}, s.program.code? i = some code → IsBodyOf source native s i code.2

namespace Resolved
variable {done : List SignatureId}

theorem declare (h : Resolved source native done s) {x : Source.VarId} (run : Runs (declare source x) s v t)
    (fits : t.program.Fits) : Resolved source native done t where
  filled := h.filled.declare run
  calling := h.calling.declare run fits
  bodies := by
    intro i code there
    have kept := declare_declares run
    rw [kept.code?] at there
    exact (h.bodies there).mono kept.callees kept.keeps

theorem lowerSignature (h : Resolved source native done s) {x : SignatureId}
    (run : Runs (lowerSignature source x) s () t) (fits : t.program.Fits) :
    Resolved source native (done ++ [x]) t := by
  have filled := h.filled.lowerSignature run fits
  obtain ⟨signature, found, ⟨-, rfl⟩ | ⟨-, f, resolved, ⟨-, log, rfl⟩ | ⟨defined, body⟩⟩⟩ := lowerSignature_ok run
  · exact ⟨filled, h.calling, h.bodies⟩
  · exact ⟨filled, ⟨h.calling.callees, h.calling.native, h.calling.stands⟩, h.bodies⟩
  · obtain ⟨calling, makes⟩ := calls_explain.lowerBody h.filled.bound h.calling body fits
    obtain ⟨code, lowers⟩ := lowerBody_code h.filled.bound body fits
    refine ⟨filled, calling, fun {i other} there => ?_⟩
    by_cases this : f.index.toNat = i
    · rw [← this, lowers.fills.here] at there
      obtain rfl := Option.some.inj there
      refine ⟨x, signature, f, ?_, this, found, defined, ?_⟩
      · rw [lowers.fills.callees]
        exact Option.join_eq_some_iff.mpr resolved
      · rw [lowers.numbered]
        exact makes
    · rw [lowers.fills.elsewhere this] at there
      exact (h.bodies there).mono lowers.fills.callees lowers.keeps

end Resolved

/-- Functions stand in the order in which their signatures are listed. -/
theorem Filled.names_eq (h : Filled source done s) :
    (s.program.functions.toList.map fun f => some f.name) =
      (source.listed.filter source.isUser).map fun id => (source.signature? id).map Signature.name := by
  refine List.ext_getElem? fun i => ?_
  rw [List.getElem?_map, List.getElem?_map, Array.getElem?_toList]
  cases listed : (source.listed.filter source.isUser)[i]? with
  | none =>
    rw [List.getElem?_eq_none_iff, ← h.size] at listed
    rw [Array.getElem?_eq_none listed, Option.map_none, Option.map_none]
  | some id =>
    obtain ⟨inside, -⟩ := List.getElem?_eq_some_iff.mp listed
    rw [← h.size] at inside
    have named := h.names listed
    rw [Array.getElem?_map, Array.getElem?_eq_getElem inside, Option.map_some] at named
    rw [Array.getElem?_eq_getElem inside, Option.map_some, Option.map_some, named]

namespace Resolved
variable {f : FuncId} {id : SignatureId} {signature : Signature}

theorem body_isSome (h : Resolved source native source.listed s) (fits : s.program.Fits)
    (callee : s.callees id = some f) (found : source.signature? id = some signature)
    (defined : signature.isDefined = true) : ∃ code, s.program.code? f.index.toNat = some code := by
  have member := List.mem_filter.mp (List.mem_of_getElem? (h.filled.placed fits callee))
  have user : signature.isIntrinsic = false := by simpa [Program.isUser, found] using member.2
  obtain ⟨g, code, again, there, -⟩ := h.filled.done id member.1 found user defined
  obtain rfl := Option.some.inj (callee.symm.trans again)
  exact ⟨code, there⟩

theorem body_calls (h : Resolved source native done s) (fits : s.program.Fits) (callee : s.callees id = some f)
    (found : source.signature? id = some signature) {code} (there : s.program.code? f.index.toNat = some code) :
    signature.isDefined = true ∧ ∀ ⦃q⦄, s.program.Extends q → q.Fits →
      List.Forall₂ (IsMade source native q) (stmtsCalls source signature.body) (q.calls (instrsOf code.2)) := by
  obtain ⟨other, signature', g, callee', here, found', defined, makes⟩ := h.bodies there
  obtain rfl := h.filled.callee_inj fits callee' callee here
  obtain rfl := Option.some.inj (found.symm.trans found')
  exact ⟨defined, makes⟩

end Resolved

/-- Functions and their calls. There is one function for each place at which a signature of the program is listed,
with the name of the signature. The last one that a signature is listed at has a body exactly if the signature is
defined, and no other function has one. The calls in the body of a defined signature are those of its statements, in
order, and each names the function of its callee and the locations of its parameters and result. -/
theorem lower_functions {capabilities : Capabilities} {p : Target.Program} (h : lower source capabilities = .ok p)
    (fits : p.Fits) :
    (p.functions.toList.map fun f => some f.name) =
      ((source.listed.filter source.isUser).map fun id => (source.signature? id).map Signature.name) ∧
    (∀ {id f}, source.functionOf? id = some f → ∃ signature function, source.signature? id = some signature ∧
      p.function? f = some function ∧ function.body.isSome = signature.isDefined ∧
      ∀ {body}, function.body = some body →
        List.Forall₂ (IsMade source capabilities.nativeIntegers p) (stmtsCalls source signature.body)
          (p.calls (instrsOf body.nodes))) ∧
    ∀ {i : Nat} {function}, p.functions[i]? = some function →
      (∀ id, source.functionOf? id ≠ some ⟨UInt32.ofNat i⟩) → function.body = none := by
  obtain ⟨s, t, info, registered, lowered, rfl⟩ := lower_ok h
  have small : t.program.Fits := ⟨fits.instrs, fits.values, fits.vars, fits.links, fits.functions⟩
  have registers := registerAll_registers (initial_registers source capabilities) registered
  have path := (stepwise_registerAll source source.statements).path registered
  have start : Resolved source capabilities.nativeIntegers [] s :=
    ⟨registers.filled, ⟨funext registers.callees, path.steady.native, fun _ _ found => absurd found registers.unbound⟩,
      by simp [registers.empty]⟩
  have done : Resolved source capabilities.nativeIntegers source.listed t :=
    lowerAll_invariant (fun before run fits => before.declare run fits)
      (fun before run fits => before.lowerSignature run fits) start lowered small
  have code : ∀ {i : Nat} {function body}, t.program.functions[i]? = some function → function.body = some body →
      t.program.code? i = some (body.returnVar, body.nodes) := by
    intro i function body there has
    rw [Target.Program.code?, there, Option.bind_some, has, Option.map_some]
  refine ⟨done.filled.names_eq, ?_, ?_⟩
  · intro x f callee
    rw [← done.calling.callees] at callee
    have listed := done.filled.placed small callee
    obtain ⟨inside, -⟩ := List.getElem?_eq_some_iff.mp listed
    rw [← done.filled.size] at inside
    have user := (List.mem_filter.mp (List.mem_of_getElem? listed)).2
    obtain ⟨signature, found, -⟩ := (Option.any_eq_true _ _).mp user
    have there := Array.getElem?_eq_getElem inside
    refine ⟨signature, t.program.functions[f.index.toNat], found, there, ?_, ?_⟩
    · rw [Bool.eq_iff_iff]
      constructor
      · intro has
        obtain ⟨body, has⟩ := Option.isSome_iff_exists.mp has
        exact (done.body_calls small callee found (code there has)).1
      · intro defined
        obtain ⟨_, stands⟩ := done.body_isSome small callee found defined
        simp only [Target.Program.code?, there, Option.bind_some, Option.map_eq_some_iff] at stands
        obtain ⟨body, has, -⟩ := stands
        rw [has, Option.isSome_some]
    · intro body has
      exact (done.body_calls small callee found (code there has)).2 ⟨id, id, id, fun _ => id⟩ fits
  · intro i function there other
    cases has : function.body with
    | none => rfl
    | some body =>
      obtain ⟨x, -, f, callee, here, -⟩ := done.bodies (code there has)
      rw [done.calling.callees] at callee
      refine absurd callee ?_
      have same := other x
      rwa [← here, UInt32.ofNat_toNat] at same

namespace Recursion

def input : Place := .var ⟨0⟩ (.scalar .float)
def output : Place := .var ⟨1⟩ (.scalar .float)

def scaled : Call := { callee := ⟨0⟩, parameters := [.place input], result := some output }
def again : Call := { callee := ⟨1⟩, parameters := [], result := none }
def shown : Call := { callee := ⟨2⟩, parameters := [.place output, .constant (.float 0)], result := none }

/-- A function that calls itself, one that is listed twice and behind its caller, and one that is only declared. -/
def program : Source.Program where
  name := "recursion"
  layout := .fragment false .none false
  vars := #[
    { name := "input", type := .scalar .float, mode := .shaderIn },
    { name := "output", type := .scalar .float, mode := .shaderOut },
    { name := "x", type := .scalar .float, mode := .functionIn }]
  signatures := #[
    { name := "scale", returnType := .scalar .float, parameters := [⟨2⟩], isDefined := true,
      body := [.ret (some (.place (.var ⟨2⟩ (.scalar .float))))] },
    { name := "main", returnType := .void, parameters := [], isDefined := true,
      body := [
        .branch (.expression .less (.scalar .bool) [.place input, .constant (.float 0)]) [.call again] [.call scaled],
        .call shown] },
    { name := "show", returnType := .void, parameters := [], isDefined := false, body := [] }]
  statements := [.declare ⟨0⟩, .declare ⟨1⟩,
    .function "main" [⟨1⟩], .function "scale" [⟨0⟩, ⟨0⟩], .function "show" [⟨2⟩]]

end Recursion

theorem lower_functions_recursion : ∃ p, lower Recursion.program {} = .ok p ∧ p.Fits ∧
    (p.functions.toList.map fun f => some f.name) = [some "main", some "scale", some "scale", some "show"] ∧
    (∃ function, p.function? ⟨3⟩ = some function ∧ function.body = none) ∧
    ∃ function body, p.function? ⟨0⟩ = some function ∧ function.body = some body ∧
      List.Forall₂ (IsMade Recursion.program true p) [Recursion.again, Recursion.scaled, Recursion.shown]
        (p.calls (instrsOf body.nodes)) := by
  obtain ⟨p, lowered, fits⟩ : ∃ p, lower Recursion.program {} = .ok p ∧ p.Fits := lower_checked (by decide +kernel)
  obtain ⟨names, last, -⟩ := lower_functions lowered fits
  refine ⟨p, lowered, fits, names.trans (by decide), ?_, ?_⟩
  · obtain ⟨signature, function, found, there, has, -⟩ :=
      last (show Recursion.program.functionOf? ⟨2⟩ = some ⟨3⟩ by decide)
    obtain rfl := Option.some.inj found
    exact ⟨function, there, Option.isSome_eq_false_iff.mp has |> Option.isNone_iff_eq_none.mp⟩
  · obtain ⟨signature, function, found, there, has, calls⟩ :=
      last (show Recursion.program.functionOf? ⟨1⟩ = some ⟨0⟩ by decide)
    obtain rfl := Option.some.inj found
    obtain ⟨body, has⟩ := Option.isSome_iff_exists.mp has
    exact ⟨function, body, there, has, calls has⟩

end Lowering

end ShaderSSA
