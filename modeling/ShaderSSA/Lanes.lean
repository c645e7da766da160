import ShaderSSA.Json.Reader

/-!
# Component selectors
-/

namespace ShaderSSA

open Json

/-- Which component of a value each of four lanes reads. -/
structure Lanes where
  x : UInt8
  y : UInt8
  z : UInt8
  w : UInt8
deriving DecidableEq

namespace Lanes

def toList (l : Lanes) : List UInt8 := [l.x, l.y, l.z, l.w]

def all (c : UInt8) : Lanes := ⟨c, c, c, c⟩

def ofFn (f : Nat → UInt8) : Lanes := ⟨f 0, f 1, f 2, f 3⟩

def take (l : Lanes) (n : UInt8) : List UInt8 := l.toList.take n.toNat

/-- Each of the first `n` lanes reads the component of its own number. -/
def isIdentity (l : Lanes) (n : UInt8) : Bool :=
  ((l.take n).zipIdx).all fun (c, i) => c.toNat = i

def toJson (l : Lanes) : Value := .array (l.toList.map fun c => .nat c.toNat)

def reader : Reader Lanes :=
  (Reader.tuple
    (.cons (.element .uint8) <| .cons (.element .uint8) <| .cons (.element .uint8) <|
      .cons (.element .uint8) .nil)).map
    fun (x, y, z, w, ()) => ⟨x, y, z, w⟩

def inspect (l : Lanes) : String := Inspect.list (l.toList.map toString)

end Lanes

end ShaderSSA
