import ShaderSSA.Proofs.TypeText
import ShaderSSA.Target.Json

/-!
# Target programs are read back

A target program is decoded from its own text up to its instruction limit, which is not part of the
text. Nothing may be missing from the text of a target program.
-/

namespace ShaderSSA

open Json

theorem Json.Reads.whole {α : Type} {spare : List (String × Value)} {r : Reader α} {v : Value} {a : α}
    (reads : Reads spare r v a) : Reads [] r v a :=
  reads.mono (List.nil_subset _)

namespace Target

/-! ### Names and numbers -/

theorem AluKind.reads (k : AluKind) : Reads [] reader k.toJson k :=
  .names (by rintro ⟨⟩ <;> decide) (by decide) k

theorem RoundingMode.reads (m : RoundingMode) : Reads [] reader m.toJson m :=
  .names (by rintro ⟨⟩ <;> decide) (by decide) m

theorem IntrinsicOp.reads (op : IntrinsicOp) : Reads [] reader op.toJson op :=
  .names (by rintro ⟨⟩ <;> decide) (by decide +kernel) op

theorem TexSrcKind.reads (k : TexSrcKind) : Reads [] reader k.toJson k :=
  .names (by rintro ⟨⟩ <;> decide) (by decide) k

theorem TexDestType.reads (t : TexDestType) : Reads [] reader t.toJson t :=
  .names (by rintro ⟨⟩ <;> decide) (by decide) t

theorem JumpKind.reads (k : JumpKind) : Reads [] reader k.toJson k :=
  .names (by rintro ⟨⟩ <;> decide) (by decide) k

theorem StorageClass.reads (c : StorageClass) : Reads [] reader c.toJson c :=
  .names (by rintro ⟨⟩ <;> decide) (by decide) c

theorem InstId.reads (id : InstId) : Reads [] reader id.toJson id := .map _ (.uint32 id.index)

theorem VarId.reads (id : VarId) : Reads [] reader id.toJson id := .map _ (.uint32 id.index)

theorem FuncId.reads (id : FuncId) : Reads [] reader id.toJson id := .map _ (.uint32 id.index)

theorem ValueId.reads (id : ValueId) : Reads [] reader id.toJson id := .map _ (.uint32 id.index)

theorem LinkId.reads (id : LinkId) : Reads [] reader id.toJson id := .map _ (.uint32 id.index)

theorem AluType.reads (t : AluType) : Reads [] reader t.toJson t :=
  .record (t.kind, t.bitSize, ()) ⟨t.kind.reads, .uint8 _, rfl⟩ rfl

theorem ValueDef.reads (v : ValueDef) : Reads [] reader v.toJson v :=
  .record (v.width, v.bitSize, v.producer, ()) ⟨.uint8 _, .uint8 _, v.producer.reads, rfl⟩ rfl

theorem AluOp.plain_reads {op : AluOp} (plain : op ∈ moves ++ computations) :
    Reads [] reader (.string op.name) op := by
  refine .bare (Variant.find?_of_mem (w := .unit op.name op) ?_ (by decide +kernel))
  rw [List.append_assoc]
  obtain move | computation := List.mem_append.mp plain
  · exact List.mem_append_left _ (List.mem_map_of_mem move)
  · exact List.mem_append_right _ (List.mem_append_right _ (List.mem_map_of_mem computation))

theorem AluOp.reads (op : AluOp) : Reads [] reader op.toJson op := by
  -- Conversions are the only operators with data; the others are in the two lists of names.
  cases op with
  | convert src dst rounding =>
    exact .variants rfl (.record (src, dst, rounding, ())
      ⟨src.reads, dst.reads, rounding.reads, rfl⟩ rfl) rfl
  | _ => exact plain_reads (by decide)

/-! ### Constants -/

theorem bits_reads (bits : List UInt64) : Reads [] (.list .uint64) (bitsToJson bits) bits :=
  .list fun b _ => .uint64 b

namespace Constant

theorem listToJson_eq_map (cs : List Constant) : listToJson cs = cs.map toJson := by
  induction cs with
  | nil => rfl
  | cons c cs ih => rw [listToJson, ih, List.map_cons]

theorem readerAt_reads {levels : Nat} (c : Constant) (deep : c.toJson.depth < levels) :
    Reads [] (readerAt levels) c.toJson c := by
  induction levels generalizing c with
  | zero => omega
  | succ levels ih =>
    cases c with
    | numeric bitSize columns rows bits =>
      exact .variants rfl (.record (bitSize, columns, rows, bits, ())
        ⟨.uint8 _, .uint8 _, .uint8 _, bits_reads bits, rfl⟩ rfl) rfl
    | aggregate elements =>
      simp only [toJson, listToJson_eq_map] at deep ⊢
      refine .variants rfl (.map _ (.list fun c member => ih c ?_)) rfl
      have inner := depth_le_itemsDepth (List.mem_map_of_mem (f := toJson) member)
      simp only [Value.variant, Value.depth, membersDepth] at deep
      omega

theorem reads (c : Constant) : Reads [] reader c.toJson c :=
  .of_depth fun shallow => c.readerAt_reads (Nat.lt_succ_of_le shallow)

end Constant

/-! ### Access chains -/

theorem ArrayIndex.reads (i : ArrayIndex) : Reads [] reader i.toJson i := by
  cases i with
  | direct index => exact .variants rfl (.map _ (.uint32 index)) rfl
  | indirect value => exact .variants rfl (.map _ value.reads) rfl

theorem LinkKind.reads (k : LinkKind) : Reads [] reader k.toJson k := by
  cases k with
  | var id => exact .variants rfl (.map _ id.reads) rfl
  | struct index =>
    exact .variants rfl (.record (index, ()) ⟨.uint32 _, rfl⟩ rfl) rfl
  | array index => exact .variants rfl (.map _ index.reads) rfl

theorem Link.reads (l : Link) : Reads [] reader l.toJson l :=
  .record (l.kind, l.type, l.child, ())
    ⟨l.kind.reads, l.type.reads.whole, .option (fun _ _ => rfl) fun id _ => id.reads, rfl⟩ rfl

/-! ### Instructions -/

theorem Src.reads (s : Src) : Reads [] reader s.toJson s := by
  cases s with
  | ssa value => exact .variants rfl (.map _ value.reads) rfl
  | location head => exact .variants rfl (.map _ head.reads) rfl

theorem AluSrc.reads (s : AluSrc) : Reads [] reader s.toJson s :=
  .record (s.value, s.lanes, ()) ⟨s.value.reads, s.lanes.reads, rfl⟩ rfl

theorem Indices.reads (i : Indices) : Reads [] reader i.toJson i :=
  .record (i.width, i.writeMask, i.base, i.stream, ())
    ⟨.uint8 _, .option (fun _ _ => rfl) fun m _ => .uint8 m,
      .option (fun _ _ => rfl) fun b _ => .int32 b, .option (fun _ _ => rfl) fun s _ => .uint32 s,
      rfl⟩ rfl

theorem TexSrc.reads (s : TexSrc) : Reads [] reader s.toJson s :=
  .record (s.kind, s.value, ()) ⟨s.kind.reads, s.value.reads, rfl⟩ rfl

theorem TexInstr.reads (t : TexInstr) : Reads [] reader t.toJson t :=
  .record (t.op, t.dim, t.isArray, t.isShadow, t.isNewStyleShadow, t.destType, t.texture,
      t.coordinateWidth, t.component, t.srcs, ())
    ⟨t.op.reads, t.dim.reads, .bool _, .bool _, .bool _, t.destType.reads, t.texture.reads,
      .uint8 _, .uint8 _, .list fun s _ => s.reads, rfl⟩ rfl

theorem Operation.reads (o : Operation) : Reads [] reader o.toJson o := by
  cases o with
  | alu op srcs =>
    exact .variants rfl (.record (op, srcs, ()) ⟨op.reads, .list fun s _ => s.reads, rfl⟩ rfl) rfl
  | intrinsic op srcs indices =>
    exact .variants rfl (.record (op, srcs, indices, ())
      ⟨op.reads, .list fun s _ => s.reads, indices.reads, rfl⟩ rfl) rfl
  | tex instr => exact .variants rfl (.map _ instr.reads) rfl
  | call callee params result =>
    exact .variants rfl (.record (callee, params, result, ())
      ⟨callee.reads, .list fun id _ => id.reads, .option (fun _ _ => rfl) fun id _ => id.reads,
        rfl⟩ rfl) rfl
  | jump kind => exact .variants rfl (.map _ kind.reads) rfl
  | undef => exact .bare rfl
  | loadConst bitSize bits =>
    exact .variants rfl (.record (bitSize, bits, ()) ⟨.uint8 _, bits_reads bits, rfl⟩ rfl) rfl

theorem Instr.reads (i : Instr) : Reads [] reader i.toJson i :=
  .record (i.operation, i.dest, ())
    ⟨i.operation.reads, .option (fun _ _ => rfl) fun v _ => v.reads, rfl⟩ rfl

/-! ### Functions -/

namespace Node

theorem listToJson_eq_map (ns : List Node) : listToJson ns = ns.map toJson := by
  induction ns with
  | nil => rfl
  | cons n ns ih => rw [listToJson, ih, List.map_cons]

theorem readerAt_reads {levels : Nat} (n : Node) (deep : n.toJson.depth < levels) :
    Reads [] (readerAt levels) n.toJson n := by
  induction levels generalizing n with
  | zero => omega
  | succ levels ih =>
    have body (ns : List Node) (deep : itemsDepth (listToJson ns) < levels) :
        Reads [] (.list (readerAt levels)) (.array (listToJson ns)) ns := by
      rw [listToJson_eq_map] at deep ⊢
      exact .list fun n member =>
        ih n (Nat.lt_of_le_of_lt (depth_le_itemsDepth (List.mem_map_of_mem member)) deep)
    cases n with
    | instr id => exact .variants rfl (.map _ id.reads) rfl
    | branch condition thenBody elseBody =>
      simp only [toJson, Value.variant, Value.depth, membersDepth] at deep
      exact .variants rfl (.record (condition, thenBody, elseBody, ())
        ⟨condition.reads, body thenBody (by omega), body elseBody (by omega), rfl⟩ rfl) rfl
    | loop ns =>
      simp only [toJson, Value.variant, Value.depth, membersDepth] at deep
      exact .variants rfl (.record (ns, ()) ⟨body ns (by omega), rfl⟩ rfl) rfl

theorem reads (n : Node) : Reads [] reader n.toJson n :=
  .of_depth fun shallow => n.readerAt_reads (Nat.lt_succ_of_le shallow)

end Node

theorem Body.reads (b : Body) : Reads [] reader b.toJson b := by
  unfold Body.toJson
  rw [Node.listToJson_eq_map]
  exact .record (b.params, b.returnVar, b.locals, b.nodes, ())
    ⟨.array fun id _ => id.reads, .option (fun _ _ => rfl) fun id _ => id.reads,
      .array fun id _ => id.reads, .list fun n _ => n.reads, rfl⟩ rfl

theorem Function.reads (f : Function) : Reads [] reader f.toJson f :=
  .record (f.name, f.body, ()) ⟨.string _, .option (fun _ _ => rfl) fun b _ => b.reads, rfl⟩ rfl

theorem Variable.reads (v : Variable) : Reads [] reader v.toJson v :=
  .record (v.name, v.type, v.storage, v.location, v.binding, v.interpolation, v.readOnly, v.compact,
      v.builtin, v.interfaceBlock, v.initializer, v.owner, ())
    ⟨.string _, v.type.reads.whole, v.storage.reads, .option (fun _ _ => rfl) fun i _ => .int32 i,
      .option (fun _ _ => rfl) fun n _ => .uint32 n, .option (fun _ _ => rfl) fun i _ => i.reads,
      .bool _, .bool _, .option (fun _ _ => rfl) fun b _ => b.reads,
      .option (fun _ _ => rfl) fun s _ => .string s,
      .option (fun c _ => by cases c <;> rfl) fun c _ => c.reads,
      .option (fun _ _ => rfl) fun id _ => id.reads, rfl⟩ rfl

theorem Info.reads (i : Info) : Reads [] reader i.toJson i :=
  .record (i.name, i.stage, i.entryPoint, i.textures, i.images, i.uniformBuffers, i.storageBuffers,
      i.atomicCounters, i.clipDistances, i.cullDistances, i.usesDiscard, i.layout, ())
    ⟨.string _, i.stage.reads, .option (fun _ _ => rfl) fun s _ => .string s, .uint32 _, .uint32 _,
      .uint32 _, .uint32 _, .uint32 _, .uint32 _, .uint32 _, .bool _, i.layout.reads.whole, rfl⟩ rfl

/-! ### Programs -/

theorem Program.reads (p : Program) : Reads [] reader p.toJson { p with instrLimit := none } :=
  .record (p.info, p.globals, p.functions, p.vars, p.instrs, p.values, p.links, ())
    ⟨p.info.reads, .array fun id _ => id.reads, .array fun f _ => f.reads, .array fun v _ => v.reads,
      .array fun i _ => i.reads, .array fun v _ => v.reads,
      .record (p.links, ()) ⟨.array fun l _ => l.reads, rfl⟩ rfl, rfl⟩ rfl

namespace Satchel

def contents : ShaderType :=
  .struct "Contents" [("coins", .array (.vector .int64 3) 2), ("map", .sampler ⟨.dim2D, true, false, .float⟩)]

def program : Program where
  info := { name := "sat\"chel\\\n\x01é", stage := .fragment, entryPoint := some "main",
            textures := 0xffffffff, layout := .fragment true .less false }
  globals := #[⟨0⟩]
  functions := #[
    { name := "main", body := some {
        locals := #[⟨0⟩], nodes := [.loop [.branch ⟨0⟩ [.instr ⟨0⟩] [.loop []]], .instr ⟨1⟩] } },
    { name := "declared" }]
  vars := #[{
    name := "contents", type := contents, storage := .uniform, location := some (-1),
    initializer := some (.aggregate [.numeric 64 1 1 [0xffffffffffffffff], .aggregate []]) }]
  instrs := #[⟨.loadConst 64 [0xffffffffffffffff], some ⟨0⟩⟩,
    ⟨.alu (.convert ⟨.int, 64⟩ ⟨.float, 16⟩ .rtne) [⟨⟨0⟩, .all 0⟩], none⟩]
  values := #[⟨1, 64, ⟨0⟩⟩]
  links := #[⟨.var ⟨0⟩, contents, some ⟨1⟩⟩, ⟨.struct 0, .array (.vector .int64 3) 2, none⟩]
  instrLimit := some 2

end Satchel

/-- A program whose text nests at most 127 deep is decoded from its text up to the instruction limit,
so that programs with the same text differ at most in the limit. -/
theorem Program.decode_encode (p : Program) (shallow : p.toJson.depth ≤ 127) :
    decode p.encode = .ok { p with instrLimit := none } ∧
      ∀ q : Program, q.encode = p.encode →
        { q with instrLimit := none } = { p with instrLimit := none } := by
  have decoded : decode p.encode = _ := p.reads.decode shallow (.same _)
  refine ⟨decoded, fun q same => ?_⟩
  have equallyDeep : q.toJson.depth = p.toJson.depth := calc
    q.toJson.depth = nesting q.encode.toList := q.toJson.nesting_pretty.symm
    _ = nesting p.encode.toList := by rw [same]
    _ = p.toJson.depth := p.toJson.nesting_pretty
  have again : decode q.encode = _ :=
    q.reads.decode (Nat.le_trans (Nat.le_of_eq equallyDeep) shallow) (.same _)
  rw [same, decoded] at again
  exact (Except.ok.inj again).symm

theorem Program.decode_encode_satchel :
    Satchel.program.toJson.depth ≤ 127 ∧
      decode Satchel.program.encode = .ok { Satchel.program with instrLimit := none } ∧
        ∀ q : Program, q.encode = Satchel.program.encode →
          { q with instrLimit := none } = { Satchel.program with instrLimit := none } :=
  have shallow : Satchel.program.toJson.depth ≤ 127 := by decide
  ⟨shallow, decode_encode Satchel.program shallow⟩

end Target

end ShaderSSA
