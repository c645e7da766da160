import ShaderSSA.Fault

/-!
# Rules of texture operations
-/

namespace ShaderSSA.Lowering

open Source Target

/-- How many sources a texture instruction has. A level of detail is optional for fetches and size
queries, and the component of a gather is no source. -/
def expectedSources (op : TextureOp) (hasLod projector comparator offset : Bool) : Nat :=
  let base := match op with
    | .tex | .lod | .tg4 | .samplesIdentical => 1
    | .txb | .txl | .txfMs => 2
    | .txd => 3
    | .txf => 1 + hasLod.toNat
    | .txs => hasLod.toNat
    | .queryLevels | .textureSamples => 0
  base + projector.toNat + comparator.toNat + offset.toNat

def textureWidth (op : TextureOp) (type : ShaderType) (newStyleShadow : Bool) : UInt8 :=
  match op with
  | .txs => type.rows
  | .lod => 2
  | .queryLevels | .textureSamples | .samplesIdentical => 1
  | .tex | .txb | .txl | .txd | .txf | .txfMs | .tg4 => if newStyleShadow then 1 else 4

def takesLod (op : TextureOp) : LodInfo → Bool
  | .absent =>
    op ∈ [.tex, .txf, .txs, .lod, .tg4, .queryLevels, .textureSamples, .samplesIdentical]
  | .bias _ => op = .txb
  | .lod _ => op ∈ [.txl, .txf, .txs]
  | .grad _ _ => op = .txd
  | .sampleIndex _ => op = .txfMs
  | .component _ => op = .tg4

def hasLevel : LodInfo → Bool
  | .lod _ => true
  | _ => false

def samplerOf (op : TextureOp) (type : ShaderType) : Except Fault SamplerType :=
  match type.withoutArray with
  | .sampler s => .ok s
  | other => .error (.defect (.notSampler op other))

def textureDest (op : TextureOp) (type : ShaderType) : Except Fault TexDestType :=
  match type.baseType? with
  | some .float => .ok .float
  | some .int => .ok .int
  | some .uint | some .bool => .ok .uint
  | _ => .error (.defect (.textureResult op type))

def checkOffset (type : Option ShaderType) : Except Fault Unit :=
  match type with
  | some t => if t.isScalar || t.isVector then .ok () else .error (.defect (.texelOffset t))
  | none => .ok ()

def gatherComponent (value : Rvalue) : Except Fault UInt8 :=
  match value.word? with
  | some v => if v < 4 then .ok v.toUInt8 else .error (.defect .gatherComponent)
  | none => .error (.defect .gatherComponent)

end ShaderSSA.Lowering
