import ShaderSSA.Target.Program

/-!
# Target operations, inspected
-/

namespace ShaderSSA.Target

def ValueId.inspect (id : ValueId) : String := Inspect.call "ValueId" [toString id.index]

def LinkId.inspect (id : LinkId) : String := Inspect.call "DerefId" [toString id.index]

def FuncId.inspect (id : FuncId) : String := Inspect.call "FuncId" [toString id.index]

def AluType.inspect (t : AluType) : String :=
  Inspect.record "AluType" [("kind", t.kind.name), ("bit_size", toString t.bitSize)]

def AluOp.inspect : AluOp → String
  | .convert src dst rounding =>
    Inspect.record "Convert" [("src", src.inspect), ("dst", dst.inspect), ("rounding", rounding.name)]
  | op => op.name

def AluSrc.inspect (s : AluSrc) : String :=
  Inspect.record "AluSrc" [("value", s.value.inspect), ("swizzle", s.lanes.inspect)]

def Src.inspect : Src → String
  | .ssa value => Inspect.call "Ssa" [value.inspect]
  | .location head => Inspect.call "Deref" [head.inspect]

def Indices.inspect (i : Indices) : String :=
  Inspect.record "Indices" [("num_components", toString i.width),
    ("write_mask", Inspect.option (i.writeMask.map toString)),
    ("base", Inspect.option (i.base.map toString)),
    ("stream_id", Inspect.option (i.stream.map toString))]

def TexSrc.inspect (s : TexSrc) : String :=
  Inspect.record "TexSrc" [("kind", s.kind.name), ("value", s.value.inspect)]

def TexInstr.inspect (t : TexInstr) : String :=
  Inspect.record "TexInstr" [("op", t.op.name), ("sampler_dim", t.dim.name),
    ("is_array", Inspect.bool t.isArray), ("is_shadow", Inspect.bool t.isShadow),
    ("is_new_style_shadow", Inspect.bool t.isNewStyleShadow), ("dest_type", t.destType.name),
    ("texture", t.texture.inspect), ("coord_components", toString t.coordinateWidth),
    ("component", toString t.component), ("srcs", Inspect.list (t.srcs.map TexSrc.inspect))]

def Operation.inspect : Operation → String
  | .alu op srcs =>
    Inspect.record "Alu" [("op", op.inspect), ("srcs", Inspect.list (srcs.map AluSrc.inspect))]
  | .intrinsic op srcs indices =>
    Inspect.record "Intrinsic" [("op", op.name), ("srcs", Inspect.list (srcs.map Src.inspect)),
      ("indices", indices.inspect)]
  | .tex instr => Inspect.call "Tex" [instr.inspect]
  | .call callee params result =>
    Inspect.record "Call" [("callee", callee.inspect),
      ("params", Inspect.list (params.map LinkId.inspect)),
      ("return_deref", Inspect.option (result.map LinkId.inspect))]
  | .jump kind => Inspect.call "Jump" [kind.name]
  | .undef => "Undef"
  | .loadConst bitSize bits =>
    Inspect.record "LoadConst" [("bit_size", toString bitSize),
      ("bits", Inspect.list (bits.map toString))]

end ShaderSSA.Target
