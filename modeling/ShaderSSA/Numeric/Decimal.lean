import ShaderSSA.Numeric.Binary

/-!
# Decimal text of floats

`BinaryFormat.shortest` finds the decimal with the fewest digits that rounds back to a float, and of
those the nearest. A `FloatLayout` says how such a decimal is written: which exponents are
positional, how an exponent is marked, and which way an exact tie goes.
-/

namespace ShaderSSA

/-- The value `digits * 10 ^ exponent`. -/
structure Decimal where
  digits : Nat
  exponent : Int
deriving DecidableEq, Repr

/-- Which of two equally near decimals is taken. -/
inductive TieRule where
  | even
  | up
deriving DecidableEq, Repr

def digitChars (n : Nat) : List Char := Nat.toDigits 10 n

/-- The greatest `k` with `10 ^ k ≤ n / d`, for positive `n` and `d`. -/
def ratioLog10 (n d : Nat) : Int :=
  let s := d.log2 + 1
  (digitChars (n * Nat.pow 10 s / d)).length - 1 - s

/-- The reals that round to a float, in quarters of its last place: `centre` is the float itself. -/
structure RoundingInterval where
  low : Nat
  centre : Nat
  high : Nat
  /-- The ends themselves round to the float. -/
  closed : Bool
  /-- The exponent of a quarter of the last place. -/
  unit : Int

namespace RoundingInterval

/-- `s` quarters as a multiple of `10 ^ g` is `s * scaleDown / scaleUp`. -/
def scaleUp (r : RoundingInterval) (g : Int) : Nat :=
  Nat.pow 10 g.toNat * Nat.pow 2 (-r.unit).toNat

def scaleDown (r : RoundingInterval) (g : Int) : Nat :=
  Nat.pow 2 r.unit.toNat * Nat.pow 10 (-g).toNat

/-- `a * 10 ^ g` lies in the interval. -/
def contains (r : RoundingInterval) (g : Int) (a : Nat) : Bool :=
  let x := a * r.scaleUp g
  let low := r.low * r.scaleDown g
  let high := r.high * r.scaleDown g
  if r.closed then low ≤ x && x ≤ high else low < x && x < high

/-- The multiple of `10 ^ g` in the interval that is nearest to its centre. The centre's two
neighbours on that grid are the only candidates. -/
def nearest? (r : RoundingInterval) (tie : TieRule) (g : Int) : Option Nat :=
  let c := r.centre * r.scaleDown g
  let step := r.scaleUp g
  let a := c / step
  match r.contains g a, r.contains g (a + 1) with
  | false, false => none
  | true, false => some a
  | false, true => some (a + 1)
  | true, true =>
    let below := c - a * step
    let above := (a + 1) * step - c
    if below < above then some a
    else if above < below then some (a + 1)
    else match tie with
      | .even => some (a + a % 2)
      | .up => some (a + 1)

/-- Search the grids `10 ^ g`, `10 ^ (g - 1)`, … for the first one that meets the interval. -/
def search (r : RoundingInterval) (tie : TieRule) : Nat → Int → Decimal
  | 0, g => ⟨r.centre * r.scaleDown g / r.scaleUp g, g⟩
  | n + 1, g =>
    match r.nearest? tie g with
    | some a => ⟨a, g⟩
    | none => r.search tie n (g - 1)

end RoundingInterval

/-- Move trailing zeros of the digits, at most `n` of them, into the exponent. -/
def Decimal.trim : Nat → Decimal → Decimal
  | 0, d => d
  | n + 1, d =>
    if d.digits ≠ 0 ∧ d.digits % 10 = 0 then Decimal.trim n ⟨d.digits / 10, d.exponent + 1⟩ else d

namespace BinaryFormat

/-- The reals that round to a finite nonzero magnitude. Below a power of two the gap is halved. -/
def interval (f : BinaryFormat) (magnitude : Nat) : RoundingInterval :=
  let (m, q) := f.parts magnitude
  let below := if m = Nat.pow 2 f.fractionBits ∧ f.minExponent < q then 1 else 2
  ⟨4 * m - below, 4 * m, 4 * m + 2, m % 2 = 0, q - 2⟩

/-- The shortest decimal that rounds to a finite nonzero magnitude. -/
def shortest (f : BinaryFormat) (tie : TieRule) (magnitude : Nat) : Decimal :=
  let (n, d) := f.ratio magnitude
  ((f.interval magnitude).search tie 17 (ratioLog10 n d)).trim 17

end BinaryFormat

/-- How the shortest decimal of a float is written. -/
structure FloatLayout where
  /-- Positional notation is used when the exponent of the first digit is from `leastPlain` … -/
  leastPlain : Int
  /-- … to `mostPlain`. -/
  mostPlain : Int
  /-- A positive exponent carries a `+`. -/
  plus : Bool
  tie : TieRule

namespace FloatLayout

def zeros (n : Nat) : List Char := List.replicate n '0'

/-- Positional notation, always with a point and a digit after it. -/
def plain (d : Decimal) (lead : Int) : List Char :=
  let ds := digitChars d.digits
  if 0 ≤ d.exponent then ds ++ zeros d.exponent.toNat ++ ['.', '0']
  else if 0 ≤ lead then ds.take (lead.toNat + 1) ++ '.' :: ds.drop (lead.toNat + 1)
  else '0' :: '.' :: zeros (-lead - 1).toNat ++ ds

/-- One digit, the others after a point if there are any, and the exponent. -/
def scientific (l : FloatLayout) (d : Decimal) (lead : Int) : List Char :=
  let ds := digitChars d.digits
  let fraction := if ds.length ≤ 1 then [] else '.' :: ds.drop 1
  let sign := if lead < 0 then ['-'] else if l.plus then ['+'] else []
  ds.take 1 ++ fraction ++ 'e' :: sign ++ digitChars lead.natAbs

def magnitudeChars (l : FloatLayout) (f : BinaryFormat) (magnitude : Nat) : List Char :=
  if magnitude = 0 then ['0', '.', '0']
  else
    let d := f.shortest l.tie magnitude
    let lead := d.exponent + (digitChars d.digits).length - 1
    if l.leastPlain ≤ lead ∧ lead ≤ l.mostPlain then plain d lead else l.scientific d lead

def chars (l : FloatLayout) (f : BinaryFormat) (bits : Nat) : List Char :=
  let text := l.magnitudeChars f (f.magnitude bits)
  if f.isNegative bits then '-' :: text else text

end FloatLayout

end ShaderSSA
