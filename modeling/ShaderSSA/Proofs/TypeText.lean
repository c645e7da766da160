import ShaderSSA.Proofs.Reading
import ShaderSSA.Source.Json

/-!
# Types and layouts are read back

Source and target programs share the text of types, stage layouts, component selectors and
places. None of the members in it may be missing.
-/

namespace ShaderSSA

open Json

/-- The members that a source declaration may lack, with the values they stand for. -/
def Source.optionalMembers : List (String × Value) := [
  ("location", .null), ("binding", .null), ("interpolation", .null), ("read_only", .bool false),
  ("constant_initializer", .null), ("builtin", .null), ("interface_block", .null),
  ("decl_site", .null), ("intrinsic", .null)]

open Source (optionalMembers)

variable {spare : List (String × Value)}

/-! ### Names -/

theorem BaseType.reads (b : BaseType) : Reads spare reader b.toJson b :=
  .names (by rintro ⟨⟩ <;> decide) (by decide) b

theorem SamplerDim.reads (d : SamplerDim) : Reads spare reader d.toJson d :=
  .names (by rintro ⟨⟩ <;> decide) (by decide) d

theorem Stage.reads (s : Stage) : Reads spare reader s.toJson s :=
  .names (by rintro ⟨⟩ <;> decide) (by decide) s

theorem Primitive.reads (p : Primitive) : Reads spare reader p.toJson p :=
  .names (by rintro ⟨⟩ <;> decide) (by decide) p

theorem TessSpacing.reads (s : TessSpacing) : Reads spare reader s.toJson s :=
  .names (by rintro ⟨⟩ <;> decide) (by decide) s

theorem DepthLayout.reads (d : DepthLayout) : Reads spare reader d.toJson d :=
  .names (by rintro ⟨⟩ <;> decide) (by decide) d

theorem TextureOp.reads (op : TextureOp) : Reads spare reader op.toJson op :=
  .names (by rintro ⟨⟩ <;> decide) (by decide) op

theorem Interpolation.reads (i : Interpolation) : Reads spare reader i.toJson i :=
  .names (by rintro ⟨⟩ <;> decide) (by decide) i

theorem Builtin.reads (b : Builtin) : Reads spare reader b.toJson b :=
  .names (by rintro ⟨⟩ <;> decide) (by decide) b

/-! ### Types -/

theorem SamplerType.reads (s : SamplerType) : Reads optionalMembers reader s.toJson s :=
  .record (s.dim, s.shadow, s.array, s.sampled, ())
    ⟨s.dim.reads, .bool _, .bool _, s.sampled.reads, rfl⟩ rfl

theorem ImageType.reads (i : ImageType) : Reads optionalMembers reader i.toJson i :=
  .record (i.dim, i.array, i.sampled, ()) ⟨i.dim.reads, .bool _, i.sampled.reads, rfl⟩ rfl

namespace ShaderType

theorem fieldsToJson_eq_map (fields : List (String × ShaderType)) :
    fieldsToJson fields =
      fields.map fun f => .object [("name", .string f.1), ("ty", f.2.toJson)] := by
  induction fields with
  | nil => rfl
  | cons f fields ih => rw [fieldsToJson, ih, List.map_cons]

/-- Types are read back by the readers that go deep enough, one level at a time. -/
theorem readerAt_reads {levels : Nat} (t : ShaderType) (deep : t.toJson.depth < levels) :
    Reads optionalMembers (readerAt levels) t.toJson t := by
  induction levels generalizing t with
  | zero => omega
  | succ levels ih =>
    cases t with
    | void => exact .bare rfl
    | atomicUint => exact .bare rfl
    | sampler s => exact .variants rfl (s.reads.map _) rfl
    | image i => exact .variants rfl (i.reads.map _) rfl
    | numeric base rows columns =>
      exact .variants rfl (.record (base, rows, columns, ())
        ⟨base.reads, .uint8 _, .uint8 _, rfl⟩ rfl) rfl
    | array element length =>
      have inner : element.toJson.depth < levels := by
        simp only [toJson, Value.variant, Value.depth, membersDepth] at deep
        omega
      exact .variants rfl (.record (element, length, ()) ⟨ih element inner, .uint32 _, rfl⟩ rfl) rfl
    | struct name fields =>
      simp only [toJson, fieldsToJson_eq_map] at deep ⊢
      have inner : ∀ f ∈ fields, f.2.toJson.depth < levels := by
        intro f member
        have := depth_le_itemsDepth (List.mem_map_of_mem (f := fun f : String × ShaderType =>
          Value.object [("name", .string f.1), ("ty", f.2.toJson)]) member)
        simp only [Value.variant, Value.depth, membersDepth] at deep this
        omega
      refine .variants rfl (.record (name, fields, ())
        ⟨.string _, .list fun f member => ?_, rfl⟩ rfl) rfl
      exact .record (f.1, f.2, ()) ⟨.string _, ih f.2 (inner f member), rfl⟩ rfl

theorem reads (t : ShaderType) : Reads optionalMembers reader t.toJson t :=
  .of_depth fun shallow => t.readerAt_reads (Nat.lt_succ_of_le shallow)

end ShaderType

/-! ### Layouts, selectors and places -/

theorem StageLayout.reads (l : StageLayout) : Reads optionalMembers reader l.toJson l := by
  cases l with
  | vertex => exact .bare rfl
  | tessCtrl verticesOut =>
    exact .variants rfl (.record (verticesOut, ()) ⟨.uint32 _, rfl⟩ rfl) rfl
  | tessEval primitiveMode spacing ccw pointMode =>
    exact .variants rfl (.record (primitiveMode, spacing, ccw, pointMode, ())
      ⟨primitiveMode.reads, spacing.reads, .bool _, .bool _, rfl⟩ rfl) rfl
  | geometry verticesIn verticesOut invocations inputPrimitive outputPrimitive =>
    exact .variants rfl
      (.record (verticesIn, verticesOut, invocations, inputPrimitive, outputPrimitive, ())
        ⟨.uint32 _, .uint32 _, .uint32 _, inputPrimitive.reads, outputPrimitive.reads, rfl⟩ rfl) rfl
  | fragment earlyTests depth originUpperLeft =>
    exact .variants rfl (.record (earlyTests, depth, originUpperLeft, ())
      ⟨.bool _, depth.reads, .bool _, rfl⟩ rfl) rfl
  | compute sizeX sizeY sizeZ sharedSize =>
    have size : Reads optionalMembers sizeReader
        (.array [.nat sizeX.toNat, .nat sizeY.toNat, .nat sizeZ.toNat]) (sizeX, sizeY, sizeZ) :=
      .tuple (sizeX, sizeY, sizeZ, ()) ⟨.uint32 _, .uint32 _, .uint32 _, rfl⟩
    exact .variants rfl (.record ((sizeX, sizeY, sizeZ), sharedSize, ())
      ⟨size, .uint32 _, rfl⟩ rfl) rfl

theorem Lanes.reads (l : Lanes) : Reads spare reader l.toJson l :=
  .tuple (l.x, l.y, l.z, l.w, ()) ⟨.uint8 _, .uint8 _, .uint8 _, .uint8 _, rfl⟩

theorem Location.reads (l : Location) : Reads optionalMembers reader l.toJson l :=
  .record (l.file, l.line, l.column, ()) ⟨.string _, .size _, .size _, rfl⟩ rfl

end ShaderSSA
