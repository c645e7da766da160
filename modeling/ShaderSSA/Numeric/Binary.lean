/-!
# Binary floating-point formats

A float is kept as its bit pattern, a natural number. A pattern without its sign bit is a
*magnitude*; a finite magnitude stands for `m * 2 ^ q` (`BinaryFormat.parts`), and
`BinaryFormat.round` gives the magnitude nearest to a ratio of naturals, ties to even.
All arithmetic is on exact naturals.
-/

namespace ShaderSSA

/-- `n / d` rounded to the nearest natural, a half going to the even one. -/
def roundHalfEven (n d : Nat) : Nat :=
  let q := n / d
  let r := n % d
  if 2 * r < d then q else if d < 2 * r then q + 1 else q + q % 2

/-- The greatest `e` with `2 ^ e ≤ n / d`, for positive `n` and `d`. -/
def ratioLog2 (n d : Nat) : Int :=
  let e : Int := n.log2 - d.log2
  if d * Nat.pow 2 e.toNat ≤ n * Nat.pow 2 (-e).toNat then e else e - 1

structure BinaryFormat where
  precision : Nat
  exponentBits : Nat
deriving DecidableEq, Repr

def binary32 : BinaryFormat := ⟨24, 8⟩

def binary64 : BinaryFormat := ⟨53, 11⟩

namespace BinaryFormat

variable (f : BinaryFormat)

def fractionBits : Nat := f.precision - 1

/-- The exponent of the last place of a subnormal. -/
def minExponent : Int := 3 - (Nat.pow 2 (f.exponentBits - 1) : Nat) - f.precision

def infinity : Nat := (Nat.pow 2 f.exponentBits - 1) * Nat.pow 2 f.fractionBits

def signBit : Nat := Nat.pow 2 (f.fractionBits + f.exponentBits)

def isNegative (bits : Nat) : Bool := f.signBit ≤ bits

def magnitude (bits : Nat) : Nat := bits % f.signBit

def withSign (negative : Bool) (magnitude : Nat) : Nat :=
  if negative then f.signBit + magnitude else magnitude

def parts (magnitude : Nat) : Nat × Int :=
  let e := magnitude / Nat.pow 2 f.fractionBits
  let m := magnitude % Nat.pow 2 f.fractionBits
  if e = 0 then (m, f.minExponent) else (m + Nat.pow 2 f.fractionBits, f.minExponent + (e - 1 : Nat))

def ratio (magnitude : Nat) : Nat × Nat :=
  let (m, q) := f.parts magnitude
  (m * Nat.pow 2 q.toNat, Nat.pow 2 (-q).toNat)

/-- The magnitude nearest to `n / d`; past the largest finite one it is `infinity`. -/
def round (n d : Nat) : Nat :=
  if n = 0 then 0
  else
    let q := max f.minExponent (ratioLog2 n d - f.fractionBits)
    let m := roundHalfEven (n * Nat.pow 2 (-q).toNat) (d * Nat.pow 2 q.toNat)
    min f.infinity ((q - f.minExponent).toNat * Nat.pow 2 f.fractionBits + m)

def ofInt (i : Int) : Nat := f.withSign (i < 0) (f.round i.natAbs 1)

def mul (a b : Nat) : Nat :=
  let (n, d) := f.ratio a
  let (k, e) := f.ratio b
  f.round (n * k) (d * e)

def div (a b : Nat) : Nat :=
  let (n, d) := f.ratio a
  let (k, e) := f.ratio b
  f.round (n * e) (d * k)

def convert (g : BinaryFormat) (bits : Nat) : Nat :=
  let m := f.magnitude bits
  g.withSign (f.isNegative bits) <|
    if m < f.infinity then
      let (n, d) := f.ratio m
      g.round n d
    else if m = f.infinity then g.infinity
    else g.infinity + Nat.pow 2 (g.fractionBits - 1)

end BinaryFormat

end ShaderSSA
