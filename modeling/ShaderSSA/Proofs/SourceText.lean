import ShaderSSA.Proofs.TypeText

/-!
# Source programs are read back

A source program is decoded from its own text, also when members that have a default are missing from
the text. Float components are left out: they are written in decimal notation.
-/

namespace ShaderSSA

open Json Source

variable {spare : List (String × Value)}

theorem ExprOp.reads (op : ExprOp) : Reads spare reader op.toJson op :=
  .names (by rintro ⟨⟩ <;> decide) (by decide +kernel) op

theorem IntrinsicId.reads (id : IntrinsicId) : Reads spare reader id.toJson id :=
  .names (by rintro ⟨⟩ <;> decide) (by decide +kernel) id

theorem VarMode.reads (m : VarMode) : Reads spare reader m.toJson m :=
  .names (by rintro ⟨⟩ <;> decide) (by decide) m

theorem LoopJump.reads (j : LoopJump) : Reads spare reader j.toJson j :=
  .names (by rintro ⟨⟩ <;> decide) (by decide) j

namespace Source

variable {levels : Nat} {r : Option Rvalue}

theorem VarId.reads (id : VarId) : Reads spare reader id.toJson id := .map _ (.uint32 id.index)

theorem SignatureId.reads (id : SignatureId) : Reads spare reader id.toJson id :=
  .map _ (.uint32 id.index)

/-! ### Literals -/

def Scalar.isDecimal : Scalar → Bool
  | .f32 _ | .f64 _ => true
  | _ => false

theorem Scalar.reads (s : Scalar) (discrete : s.isDecimal = false) :
    Reads optionalMembers reader s.toJson s := by
  cases s with
  | u8 v => exact .variants rfl (.map _ (.uint8 v)) rfl
  | i8 v => exact .variants rfl (.map _ (.int8 v)) rfl
  | u16 v => exact .variants rfl (.map _ (.uint16 v)) rfl
  | i16 v => exact .variants rfl (.map _ (.int16 v)) rfl
  | u32 v => exact .variants rfl (.map _ (.uint32 v)) rfl
  | i32 v => exact .variants rfl (.map _ (.int32 v)) rfl
  | u64 v => exact .variants rfl (.map _ (.uint64 v)) rfl
  | i64 v => exact .variants rfl (.map _ (.int64 v)) rfl
  | f16 bits => exact .variants rfl (.map _ (.uint16 bits)) rfl
  | f32 bits => cases discrete
  | f64 bits => cases discrete
  | bool v => exact .variants rfl (.map _ (.bool v)) rfl

mutual

def Literal.scalars : Literal → List Scalar
  | .components _ scalars => scalars
  | .aggregate _ elements => literalsScalars elements

def literalsScalars : List Literal → List Scalar
  | [] => []
  | l :: ls => l.scalars ++ literalsScalars ls

end

theorem literalsScalars_eq (ls : List Literal) : literalsScalars ls = ls.flatMap Literal.scalars := by
  induction ls with
  | nil => rfl
  | cons l ls ih => rw [literalsScalars, ih, List.flatMap_cons]

theorem Literal.listToJson_eq_map (ls : List Literal) : listToJson ls = ls.map toJson := by
  induction ls with
  | nil => rfl
  | cons l ls ih => rw [listToJson, ih, List.map_cons]

theorem Literal.readerAt_reads (l : Literal) (discrete : ∀ s ∈ l.scalars, s.isDecimal = false)
    (deep : l.toJson.depth < levels) : Reads optionalMembers (readerAt levels) l.toJson l := by
  induction levels generalizing l with
  | zero => omega
  | succ levels ih =>
    cases l with
    | components type scalars =>
      refine .record (type, Sum.inl scalars, ()) ⟨type.reads, ?_, rfl⟩ rfl
      exact .variants rfl (.map _ (.list fun s member => s.reads (discrete s member))) rfl
    | aggregate type elements =>
      simp only [toJson, listToJson_eq_map] at deep ⊢
      simp only [scalars, literalsScalars_eq, List.mem_flatMap] at discrete
      refine .record (type, Sum.inr elements, ()) ⟨type.reads, ?_, rfl⟩ rfl
      refine .variants rfl (.map _ (.list fun l member => ?_)) rfl
      have inner := depth_le_itemsDepth (List.mem_map_of_mem (f := toJson) member)
      simp only [Value.variant, Value.depth, membersDepth] at deep
      exact ih l (fun s inside => discrete s ⟨l, member, inside⟩) (by omega)

theorem Literal.reads (l : Literal) (discrete : ∀ s ∈ l.scalars, s.isDecimal = false) :
    Reads optionalMembers reader l.toJson l :=
  .of_depth fun shallow => l.readerAt_reads discrete (Nat.lt_succ_of_le shallow)

/-! ### Values and places -/

mutual

def Rvalue.scalars : Rvalue → List Scalar
  | .expression _ _ operands => rvaluesScalars operands
  | .swizzle value _ _ => value.scalars
  | .texture ⟨_, _, sampler, coordinate, projector, comparator, offset, lod⟩ =>
    sampler.scalars ++ (rvalueScalars? coordinate ++ (rvalueScalars? projector ++
      (rvalueScalars? comparator ++ (rvalueScalars? offset ++ lod.scalars))))
  | .constant l => l.scalars
  | .place p => p.scalars

def rvaluesScalars : List Rvalue → List Scalar
  | [] => []
  | r :: rs => r.scalars ++ rvaluesScalars rs

def rvalueScalars? : Option Rvalue → List Scalar
  | none => []
  | some r => r.scalars

def Place.scalars : Place → List Scalar
  | .var _ _ => []
  | .field record _ _ => record.scalars
  | .element array index _ => array.scalars ++ index.scalars

def LodInfo.scalars : LodInfo → List Scalar
  | .absent => []
  | .bias r | .lod r | .sampleIndex r | .component r => r.scalars
  | .grad dpdx dpdy => dpdx.scalars ++ dpdy.scalars

end

theorem rvaluesScalars_eq (rs : List Rvalue) : rvaluesScalars rs = rs.flatMap Rvalue.scalars := by
  induction rs with
  | nil => rfl
  | cons r rs ih => rw [rvaluesScalars, ih, List.flatMap_cons]

theorem rvaluesToJson_eq_map (rs : List Rvalue) : rvaluesToJson rs = rs.map Rvalue.toJson := by
  induction rs with
  | nil => rfl
  | cons r rs ih => rw [rvaluesToJson, ih, List.map_cons]

theorem rvalueToJson?_eq (r : Option Rvalue) : rvalueToJson? r = .option Rvalue.toJson r := by
  cases r <;> rfl

theorem Rvalue.toJson_isPresent (r : Rvalue) : r.toJson.isPresent = true := by
  cases r with
  | texture t => cases t; rfl
  | _ => rfl

theorem Place.toJson_isPresent (p : Place) : p.toJson.isPresent = true := by
  cases p <;> rfl

/-- The readers read every value and place back whose text nests fewer than `levels` deep. -/
structure TreeReaders.ReadBelow (levels : Nat) (readers : TreeReaders) : Prop where
  rvalue (r : Rvalue) : (∀ s ∈ r.scalars, s.isDecimal = false) → r.toJson.depth < levels →
    Reads optionalMembers readers.rvalue r.toJson r
  place (p : Place) : (∀ s ∈ p.scalars, s.isDecimal = false) → p.toJson.depth < levels →
    Reads optionalMembers readers.place p.toJson p

namespace TreeReaders.ReadBelow

variable {levels : Nat} {readers : TreeReaders}

theorem option (below : readers.ReadBelow levels) (discrete : ∀ s ∈ rvalueScalars? r, s.isDecimal = false)
    (deep : (rvalueToJson? r).depth < levels) : Reads optionalMembers readers.rvalue.option (rvalueToJson? r) r := by
  rw [rvalueToJson?_eq]
  refine .option (fun r _ => r.toJson_isPresent) fun a member => ?_
  cases member
  exact below.rvalue a discrete deep

theorem lodInfo (below : readers.ReadBelow levels) (l : LodInfo)
    (discrete : ∀ s ∈ l.scalars, s.isDecimal = false) (deep : l.toJson.depth ≤ levels) :
    Reads optionalMembers readers.lodInfo l.toJson l := by
  cases l with
  | absent => exact .bare rfl
  | bias r | lod r | sampleIndex r | component r =>
    simp only [LodInfo.toJson, Value.variant, Value.depth, membersDepth] at deep
    exact .variants rfl (.map _ (below.rvalue r discrete (by omega))) rfl
  | grad dpdx dpdy =>
    simp only [LodInfo.toJson, Value.variant, Value.depth, membersDepth] at deep
    simp only [LodInfo.scalars, List.forall_mem_append] at discrete
    have x := below.rvalue dpdx discrete.1 (by omega)
    have y := below.rvalue dpdy discrete.2 (by omega)
    exact .variants rfl (.record (dpdx, dpdy, ()) ⟨x, y, rfl⟩ rfl) rfl

theorem next (below : readers.ReadBelow levels) : readers.next.ReadBelow (levels + 1) where
  rvalue r discrete deep := by
    cases r with
    | expression op type operands =>
      simp only [Rvalue.toJson, rvaluesToJson_eq_map] at deep ⊢
      simp only [Rvalue.scalars, rvaluesScalars_eq, List.mem_flatMap] at discrete
      refine .variants rfl (.map _ (.record (op, type, operands, ())
        ⟨op.reads, type.reads, .list fun r member => ?_, rfl⟩ rfl)) rfl
      have inner := depth_le_itemsDepth (List.mem_map_of_mem (f := Rvalue.toJson) member)
      simp only [Value.variant, Value.depth, membersDepth] at deep
      exact below.rvalue r (fun s inside => discrete s ⟨r, member, inside⟩) (by omega)
    | swizzle value lanes width =>
      simp only [Rvalue.toJson, Value.variant, Value.depth, membersDepth] at deep
      exact .variants rfl (.map _ (.record (value, lanes, width, ())
        ⟨below.rvalue value discrete (by omega), lanes.reads, .uint8 _, rfl⟩ rfl))
        rfl
    | texture t =>
      obtain ⟨op, type, sampler, coordinate, projector, comparator, offset, lod⟩ := t
      simp only [Rvalue.toJson, Value.variant, Value.depth, membersDepth, Nat.max_zero,
        Nat.add_lt_add_iff_right] at deep
      replace deep := Nat.lt_of_succ_lt deep
      simp only [Nat.max_lt] at deep
      simp only [Rvalue.scalars, List.forall_mem_append] at discrete
      obtain ⟨-, -, d₀, d₁, d₂, d₃, d₄, d₅⟩ := deep
      obtain ⟨e₀, e₁, e₂, e₃, e₄, e₅⟩ := discrete
      exact .variants rfl (.map _ (.record (op, type, sampler, coordinate, projector, comparator,
          offset, lod, ())
        ⟨op.reads, type.reads, below.place sampler e₀ d₀, below.option e₁ d₁,
          below.option e₂ d₂, below.option e₃ d₃, below.option e₄ d₄,
          below.lodInfo lod e₅ (Nat.le_of_lt d₅), rfl⟩ rfl)) rfl
    | constant l => exact .variants rfl (.map _ (l.reads discrete)) rfl
    | place p =>
      simp only [Rvalue.toJson, Value.variant, Value.depth, membersDepth] at deep
      exact .variants rfl (.map _ (below.place p discrete (by omega))) rfl
  place p discrete deep := by
    cases p with
    | var id type =>
      exact .variants rfl (.record (id, type, ()) ⟨id.reads, type.reads, rfl⟩ rfl) rfl
    | field record index type =>
      simp only [Place.toJson, Value.variant, Value.depth, membersDepth] at deep
      exact .variants rfl (.record (record, index, type, ())
        ⟨below.place record discrete (by omega), .uint32 _, type.reads, rfl⟩ rfl) rfl
    | element array index type =>
      simp only [Place.toJson, Value.variant, Value.depth, membersDepth] at deep
      simp only [Place.scalars, List.forall_mem_append] at discrete
      exact .variants rfl (.record (array, index, type, ())
        ⟨below.place array discrete.1 (by omega), below.rvalue index discrete.2 (by omega),
          type.reads, rfl⟩ rfl) rfl

end TreeReaders.ReadBelow

theorem TreeReaders.ofLevels_readBelow (levels : Nat) : (ofLevels levels).ReadBelow levels := by
  induction levels with
  | zero => exact ⟨fun _ _ deep => absurd deep (Nat.not_lt_zero _),
      fun _ _ deep => absurd deep (Nat.not_lt_zero _)⟩
  | succ levels ih => exact ih.next

theorem Rvalue.reads (r : Rvalue) (discrete : ∀ s ∈ r.scalars, s.isDecimal = false) :
    Reads optionalMembers reader r.toJson r :=
  .of_depth fun shallow =>
    (TreeReaders.ofLevels_readBelow _).rvalue r discrete (Nat.lt_succ_of_le shallow)

theorem Place.reads (p : Place) (discrete : ∀ s ∈ p.scalars, s.isDecimal = false) :
    Reads optionalMembers reader p.toJson p :=
  .of_depth fun shallow =>
    (TreeReaders.ofLevels_readBelow _).place p discrete (Nat.lt_succ_of_le shallow)

theorem Rvalue.option_reads (discrete : ∀ s ∈ rvalueScalars? r, s.isDecimal = false) :
    Reads optionalMembers reader.option (.option toJson r) r := by
  refine .option (fun r _ => r.toJson_isPresent) fun a member => ?_
  cases member
  exact a.reads discrete

/-! ### Statements -/

def Call.scalars (c : Call) : List Scalar :=
  c.parameters.flatMap Rvalue.scalars ++ c.result.elim [] Place.scalars

theorem Call.reads (c : Call) (discrete : ∀ s ∈ c.scalars, s.isDecimal = false) :
    Reads optionalMembers reader c.toJson c := by
  simp only [scalars, List.forall_mem_append, List.mem_flatMap] at discrete
  obtain ⟨values, place⟩ := discrete
  refine .record (c.callee, c.parameters, c.result, ())
    ⟨c.callee.reads, .list fun r member => r.reads fun s inside => values s ⟨r, member, inside⟩,
      .option (fun p _ => p.toJson_isPresent) fun p member => p.reads ?_, rfl⟩ rfl
  rw [Option.mem_def.mp member] at place
  exact place

mutual

def Stmt.scalars : Stmt → List Scalar
  | .declare _ | .function _ _ | .jump _ | .barrier => []
  | .loop body => stmtsScalars body
  | .branch condition thenBody elseBody =>
    condition.scalars ++ (stmtsScalars thenBody ++ stmtsScalars elseBody)
  | .discard condition => rvalueScalars? condition
  | .ret value => rvalueScalars? value
  | .call c => c.scalars
  | .assign target value _ condition =>
    target.scalars ++ (value.scalars ++ rvalueScalars? condition)
  | .emitVertex stream | .endPrimitive stream => stream.scalars

def stmtsScalars : List Stmt → List Scalar
  | [] => []
  | s :: ss => s.scalars ++ stmtsScalars ss

end

theorem stmtsScalars_eq (ss : List Stmt) : stmtsScalars ss = ss.flatMap Stmt.scalars := by
  induction ss with
  | nil => rfl
  | cons s ss ih => rw [stmtsScalars, ih, List.flatMap_cons]

theorem Stmt.listToJson_eq_map (ss : List Stmt) : listToJson ss = ss.map toJson := by
  induction ss with
  | nil => rfl
  | cons s ss ih => rw [listToJson, ih, List.map_cons]

theorem Stmt.readerAt_reads (s : Stmt) (discrete : ∀ c ∈ s.scalars, c.isDecimal = false)
    (deep : s.toJson.depth < levels) : Reads optionalMembers (readerAt levels) s.toJson s := by
  induction levels generalizing s with
  | zero => omega
  | succ levels ih =>
    have body (ss : List Stmt) (discrete : ∀ c ∈ stmtsScalars ss, c.isDecimal = false)
        (deep : itemsDepth (listToJson ss) < levels) :
        Reads optionalMembers (.list (readerAt levels)) (.array (listToJson ss)) ss := by
      rw [stmtsScalars_eq] at discrete
      rw [listToJson_eq_map] at deep ⊢
      refine .list fun s member => ih s (fun c inside => discrete c (List.mem_flatMap.mpr ⟨s, member, inside⟩)) ?_
      exact Nat.lt_of_le_of_lt (depth_le_itemsDepth (List.mem_map_of_mem member)) deep
    cases s with
    | declare id => exact .variants rfl (.map _ id.reads) rfl
    | function name signatures =>
      exact .variants rfl (.record (name, signatures, ())
        ⟨.string _, .list fun id _ => id.reads, rfl⟩ rfl) rfl
    | loop ss =>
      simp only [toJson, Value.variant, Value.depth, membersDepth] at deep
      exact .variants rfl (.record (ss, ()) ⟨body ss discrete (by omega), rfl⟩ rfl) rfl
    | branch condition thenBody elseBody =>
      simp only [toJson, Value.variant, Value.depth, membersDepth] at deep
      simp only [scalars, List.forall_mem_append] at discrete
      exact .variants rfl (.record (condition, thenBody, elseBody, ())
        ⟨condition.reads discrete.1, body thenBody discrete.2.1 (by omega),
          body elseBody discrete.2.2 (by omega), rfl⟩ rfl) rfl
    | discard condition =>
      exact .variants rfl (.record (condition, ()) ⟨Rvalue.option_reads discrete, rfl⟩ rfl) rfl
    | jump j => exact .variants rfl (.map _ j.reads) rfl
    | ret value =>
      exact .variants rfl (.record (value, ()) ⟨Rvalue.option_reads discrete, rfl⟩ rfl) rfl
    | call c => exact .variants rfl (.map _ (c.reads discrete)) rfl
    | assign target value mask condition =>
      simp only [scalars, List.forall_mem_append] at discrete
      exact .variants rfl (.record (target, value, mask, condition, ())
        ⟨target.reads discrete.1, value.reads discrete.2.1, .uint8 _, Rvalue.option_reads discrete.2.2,
          rfl⟩ rfl) rfl
    | emitVertex stream | endPrimitive stream =>
      exact .variants rfl (.record (stream, ()) ⟨stream.reads discrete, rfl⟩ rfl) rfl
    | barrier => exact .bare rfl

theorem Stmt.reads (s : Stmt) (discrete : ∀ c ∈ s.scalars, c.isDecimal = false) :
    Reads optionalMembers reader s.toJson s :=
  .of_depth fun shallow => s.readerAt_reads discrete (Nat.lt_succ_of_le shallow)

/-! ### Declarations -/

theorem absurd_of_isFixed {m : String × Value} {p : Prop}
    (fixed : isFixed optionalMembers m.1 = true) (member : m ∈ optionalMembers) : p :=
  absurd member (not_mem_of_isFixed fixed)

theorem eq_none_of_mem_optionalMembers {α : Type} {name : String} {f : α → Value} {x : Option α}
    (other : name ≠ "read_only") (present : ∀ a ∈ x, (f a).isPresent = true)
    (member : (name, Value.option f x) ∈ optionalMembers) : some none = some x := by
  have isNull : Value.option f x = .null := by
    simp only [optionalMembers, List.mem_cons, Prod.mk.injEq, List.not_mem_nil, or_false, other,
      false_and, false_or] at member
    grind
  cases x with
  | none => rfl
  | some a =>
    have := present a rfl
    rw [show f a = .null from isNull] at this
    cases this

theorem eq_false_of_mem_optionalMembers {b : Bool}
    (member : ("read_only", Value.bool b) ∈ optionalMembers) : some false = some b := by
  simp [optionalMembers] at member
  rw [member]

def VarDecl.scalars (d : VarDecl) : List Scalar := d.initializer.elim [] Literal.scalars

theorem VarDecl.reads (d : VarDecl) (discrete : ∀ s ∈ d.scalars, s.isDecimal = false) :
    Reads optionalMembers reader d.toJson d := by
  have initializer : Reads optionalMembers Literal.reader.option (.option Literal.toJson d.initializer)
      d.initializer := by
    refine .option (fun l _ => by cases l <;> rfl) fun l member => l.reads ?_
    rwa [scalars, Option.mem_def.mp member] at discrete
  refine .recordWith (d.name, d.type, d.mode, d.location, d.binding, d.interpolation, d.readOnly,
    d.initializer, d.builtin, d.interfaceBlock, d.site, ()) ⟨rfl, ?_, ?_⟩ (by decide)
  · exact ⟨.string _, d.type.reads, d.mode.reads, .option (fun _ _ => rfl) fun i _ => .int32 i,
      .option (fun _ _ => rfl) fun n _ => .uint32 n, .option (fun _ _ => rfl) fun i _ => i.reads,
      .bool _, initializer, .option (fun _ _ => rfl) fun b _ => b.reads,
      .option (fun _ _ => rfl) fun s _ => .string s, .option (fun _ _ => rfl) fun l _ => l.reads, rfl⟩
  · exact ⟨absurd_of_isFixed rfl, absurd_of_isFixed rfl, absurd_of_isFixed rfl,
      eq_none_of_mem_optionalMembers (by decide) fun _ _ => rfl,
      eq_none_of_mem_optionalMembers (by decide) fun _ _ => rfl,
      eq_none_of_mem_optionalMembers (by decide) fun _ _ => rfl,
      eq_false_of_mem_optionalMembers,
      eq_none_of_mem_optionalMembers (by decide) fun l _ => by cases l <;> rfl,
      eq_none_of_mem_optionalMembers (by decide) fun _ _ => rfl,
      eq_none_of_mem_optionalMembers (by decide) fun _ _ => rfl,
      eq_none_of_mem_optionalMembers (by decide) fun _ _ => rfl, trivial⟩

def Signature.scalars (s : Signature) : List Scalar := s.body.flatMap Stmt.scalars

theorem Signature.reads (s : Signature) (discrete : ∀ c ∈ s.scalars, c.isDecimal = false) :
    Reads optionalMembers reader s.toJson s := by
  simp only [scalars, List.mem_flatMap] at discrete
  refine .recordWith (s.name, s.returnType, s.parameters, s.body, s.isDefined, s.intrinsic, s.site,
    ()) ⟨rfl, ?_, ?_⟩ (by decide)
  · exact ⟨.string _, s.returnType.reads, .list fun id _ => id.reads,
      .list fun t member => t.reads fun c inside => discrete c ⟨t, member, inside⟩, .bool _,
      .option (fun _ _ => rfl) fun i _ => i.reads, .option (fun _ _ => rfl) fun l _ => l.reads, rfl⟩
  · exact ⟨absurd_of_isFixed rfl, absurd_of_isFixed rfl, absurd_of_isFixed rfl, absurd_of_isFixed rfl,
      absurd_of_isFixed rfl, eq_none_of_mem_optionalMembers (by decide) fun _ _ => rfl,
      eq_none_of_mem_optionalMembers (by decide) fun _ _ => rfl, trivial⟩

/-! ### Programs -/

def Program.scalars (p : Program) : List Scalar :=
  p.vars.toList.flatMap VarDecl.scalars ++
    (p.signatures.toList.flatMap Signature.scalars ++ p.statements.flatMap Stmt.scalars)

theorem Program.reads (p : Program) (discrete : ∀ s ∈ p.scalars, s.isDecimal = false) :
    Reads optionalMembers reader p.toJson p := by
  simp only [scalars, List.forall_mem_append, List.mem_flatMap, Array.mem_toList_iff] at discrete
  obtain ⟨vars, signatures, statements⟩ := discrete
  exact .record (p.name, p.layout, p.vars, p.signatures, p.statements, ())
    ⟨.string _, p.layout.reads,
      .array fun d member => d.reads fun s inside => vars s ⟨d, member, inside⟩,
      .array fun f member => f.reads fun s inside => signatures s ⟨f, member, inside⟩,
      .list fun t member => t.reads fun s inside => statements s ⟨t, member, inside⟩, rfl⟩ rfl

namespace Parcel

def weights : VarDecl where
  name := "weights"
  type := .struct "W\n" [("rows", .array (.vector .int64 2) 3)]
  mode := .uniform

def least : VarDecl where
  name := "least"
  type := .vector .int64 2
  mode := .shaderOut
  location := some (-2147483648)
  initializer := some (.components (.vector .int64 2) [.i64 (-9223372036854775808), .i64 0])

def entry : Signature where
  name := "main"
  returnType := .void
  parameters := []
  body := [
    .branch (.constant (.bool true))
      [.assign (.var ⟨1⟩ least.type)
        (.place (.element (.field (.var ⟨0⟩ weights.type) 0 (.array least.type 3))
          (.constant (.uint 0xffffffff)) least.type)) 3 none]
      [.loop [.ret none]]]
  isDefined := true

/-- A program with names to escape, components at the ends of their ranges and nested statements. -/
def program : Program where
  name := "par\"cel\\\t\x1f"
  layout := .compute 8 8 1 0xffffffff
  vars := #[weights, least]
  signatures := #[entry]
  statements := [.declare ⟨0⟩, .declare ⟨1⟩, .function "main" [⟨0⟩]]

/-- The program's value without the members that stand for a default, but for one `builtin`. -/
def brief : Value :=
  .object [("name", .string program.name), ("layout", program.layout.toJson),
    ("variables", .array [
      .object [("name", .string weights.name), ("ty", weights.type.toJson), ("mode", weights.mode.toJson)],
      .object [("name", .string least.name), ("ty", least.type.toJson), ("mode", least.mode.toJson),
        ("location", .int (-2147483648)),
        ("constant_initializer", .option Literal.toJson least.initializer), ("builtin", .null)]]),
    ("signatures", .array [
      .object [("function_name", .string entry.name), ("return_type", entry.returnType.toJson),
        ("parameters", .array []), ("body", .list Stmt.toJson entry.body), ("is_defined", .bool true)]]),
    ("instructions", .list Stmt.toJson program.statements)]

theorem trims_weights : Trims optionalMembers weights.toJson
    (.object [("name", .string weights.name), ("ty", weights.type.toJson), ("mode", weights.mode.toJson)]) :=
  .object <| .keep (.same _) <| .keep (.same _) <| .keep (.same _) <|
    .drop (List.mem_of_getElem? (i := 0) rfl) <| .drop (List.mem_of_getElem? (i := 1) rfl) <|
    .drop (List.mem_of_getElem? (i := 2) rfl) <| .drop (List.mem_of_getElem? (i := 3) rfl) <|
    .drop (List.mem_of_getElem? (i := 4) rfl) <| .drop (List.mem_of_getElem? (i := 5) rfl) <|
    .drop (List.mem_of_getElem? (i := 6) rfl) <| .drop (List.mem_of_getElem? (i := 7) rfl) .nil

theorem trims_brief : Trims optionalMembers program.toJson brief :=
  .object <| .keep (.same _) <| .keep (.same _) <|
    .keep (.array <| .cons trims_weights <| .cons
      (.object <| .keep (.same _) <| .keep (.same _) <| .keep (.same _) <| .keep (.same _) <|
        .drop (List.mem_of_getElem? (i := 1) rfl) <| .drop (List.mem_of_getElem? (i := 2) rfl) <|
        .drop (List.mem_of_getElem? (i := 3) rfl) <| .keep (.same _) <| .keep (.same _) <|
        .drop (List.mem_of_getElem? (i := 6) rfl) <| .drop (List.mem_of_getElem? (i := 7) rfl) .nil)
      .nil) <|
    .keep (.array <| .cons
      (.object <| .keep (.same _) <| .keep (.same _) <| .keep (.same _) <| .keep (.same _) <|
        .keep (.same _) <| .drop (List.mem_of_getElem? (i := 8) rfl) <|
        .drop (List.mem_of_getElem? (i := 7) rfl) .nil) .nil) <|
    .keep (.same _) .nil

end Parcel

/-- A program without decimal components whose text nests at most 127 deep is decoded from its text,
and from every text that lacks some of the members with a default. -/
theorem Program.decode_trimmed (p : Program) (discrete : ∀ s ∈ p.scalars, s.isDecimal = false)
    (shallow : p.toJson.depth ≤ 127) :
    Program.decode p.encode = .ok p ∧
      ∀ w, Trims optionalMembers p.toJson w → Program.decode w.pretty = .ok p :=
  ⟨(p.reads discrete).decode shallow (.same _), fun _ trims => (p.reads discrete).decode shallow trims⟩

theorem Program.decode_trimmed_parcel :
    (∀ s ∈ Parcel.program.scalars, s.isDecimal = false) ∧ Parcel.program.toJson.depth ≤ 127 ∧
      Trims optionalMembers Parcel.program.toJson Parcel.brief ∧
      Program.decode Parcel.program.encode = .ok Parcel.program ∧
      Program.decode Parcel.brief.pretty = .ok Parcel.program := by
  have discrete : ∀ s ∈ Parcel.program.scalars, s.isDecimal = false := by decide
  have shallow : Parcel.program.toJson.depth ≤ 127 := by decide
  have decoded := Program.decode_trimmed Parcel.program discrete shallow
  exact ⟨discrete, shallow, Parcel.trims_brief, decoded.1, decoded.2 _ Parcel.trims_brief⟩

end Source

end ShaderSSA
