import ShaderSSA.Json.Issue

/-!
# Scanning JSON text

A scanner takes the characters that remain and gives an `Outcome`: a value with the rest, or an
issue. The place of an issue is kept as the number of bytes that remain after it, so that a
scanner needs no running position. An issue raised about a value that was read completely has no
place yet (`Outcome.pending`); the enclosing value places it once it has been closed.
-/

namespace ShaderSSA.Json

inductive Outcome (α : Type) where
  | done (value : α) (rest : List Char)
  | pending (issue : Issue) (rest : List Char)
  | failed (issue : Issue) (left : Nat)
deriving DecidableEq, Repr

def byteCount (cs : List Char) : Nat := cs.foldr (fun c n => c.utf8Size + n) 0

namespace Outcome

/-- An issue at the first of the remaining characters. -/
def here (issue : Issue) (rest : List Char) : Outcome α := .failed issue (byteCount rest)

/-- An issue one byte further, but never past the end. -/
def ahead (issue : Issue) (rest : List Char) : Outcome α := .failed issue (byteCount rest - 1)

def andThen (o : Outcome α) (f : α → List Char → Outcome β) : Outcome β :=
  match o with
  | .done a rest => f a rest
  | .pending i rest => .pending i rest
  | .failed i left => .failed i left

def map (f : α → β) (o : Outcome α) : Outcome β := o.andThen fun a rest => .done (f a) rest

/-- Place a pending issue where the scanner stands. -/
def place : Outcome α → Outcome α
  | .pending i rest => here i rest
  | o => o

end Outcome

open Outcome

def isBlank (c : Char) : Bool := c = ' ' || c = '\n' || c = '\t' || c = '\r'

def skipBlanks (cs : List Char) : List Char := cs.dropWhile isBlank

/-! ### Literals -/

def scanIdent : List Char → List Char → Outcome Unit
  | [], cs => .done () cs
  | _ :: _, [] => here .eofValue []
  | w :: ws, c :: cs => if c = w then scanIdent ws cs else .failed .expectedIdent (byteCount (c :: cs) - 1)

/-! ### Strings -/

def hexDigit? (c : Char) : Option Nat :=
  if '0' ≤ c ∧ c ≤ '9' then some (c.toNat - '0'.toNat)
  else if 'a' ≤ c ∧ c ≤ 'f' then some (c.toNat - 'a'.toNat + 10)
  else if 'A' ≤ c ∧ c ≤ 'F' then some (c.toNat - 'A'.toNat + 10)
  else none

/-- Four hexadecimal digits; what is not a digit is found out after four bytes. -/
def scanHex (cs : List Char) : Outcome Nat :=
  let wrong : Outcome Nat :=
    if byteCount cs < 4 then .failed .eofString 0 else .failed .invalidEscape (byteCount cs - 4)
  match cs with
  | a :: b :: c :: d :: rest =>
    match hexDigit? a, hexDigit? b, hexDigit? c, hexDigit? d with
    | some a, some b, some c, some d => .done (((a * 16 + b) * 16 + c) * 16 + d) rest
    | _, _, _, _ => wrong
  | _ => wrong

/-- The next character must be `c`; it is consumed in any case. -/
def scanSurrogateMark (c : Char) : List Char → Outcome Unit
  | [] => here .eofString []
  | d :: rest => if d = c then .done () rest else ahead .endOfHexEscape (d :: rest)

/-- The character of a hexadecimal escape, after the letter `u`. Characters outside the basic plane
are written as two escapes, a leading and a trailing surrogate. -/
def scanUnicode (cs : List Char) : Outcome Char :=
  (scanHex cs).andThen fun n rest =>
    if 0xDC00 ≤ n ∧ n ≤ 0xDFFF then here .loneSurrogate rest
    else if n < 0xD800 ∨ 0xDBFF < n then .done (Char.ofNat n) rest
    else
      (scanSurrogateMark '\\' rest).andThen fun _ rest =>
        (scanSurrogateMark 'u' rest).andThen fun _ rest =>
          (scanHex rest).andThen fun t rest =>
            if t < 0xDC00 ∨ 0xDFFF < t then here .loneSurrogate rest
            else .done (Char.ofNat ((n - 0xD800) * 0x400 + (t - 0xDC00) + 0x10000)) rest

def scanEscape : List Char → Outcome Char
  | [] => here .eofString []
  | '"' :: rest => .done '"' rest
  | '\\' :: rest => .done '\\' rest
  | '/' :: rest => .done '/' rest
  | 'b' :: rest => .done '\x08' rest
  | 'f' :: rest => .done '\x0c' rest
  | 'n' :: rest => .done '\n' rest
  | 'r' :: rest => .done '\r' rest
  | 't' :: rest => .done '\t' rest
  | 'u' :: rest => scanUnicode rest
  | c :: rest => ahead .invalidEscape (c :: rest)

def scanStringChars : Nat → List Char → Outcome (List Char)
  | 0, cs => here .eofString cs
  | _ + 1, [] => here .eofString []
  | fuel + 1, c :: rest =>
    if c = '"' then .done [] rest
    else if c = '\\' then
      (scanEscape rest).andThen fun e rest => (scanStringChars fuel rest).map (e :: ·)
    else if c.toNat < 0x20 then here .controlCharacter rest
    else (scanStringChars fuel rest).map (c :: ·)

def scanString (cs : List Char) : Outcome String :=
  (scanStringChars (cs.length + 1) cs).map String.ofList

/-! ### Numbers -/

def isDigit (c : Char) : Bool := '0' ≤ c && c ≤ '9'

def digitValue (c : Char) : Nat := c.toNat - '0'.toNat

def maxSignificand : Nat := 0xffffffffffffffff

def maxExponent : Int := 0x7fffffff

/-- Append digits to `n` as long as the result stays within `limit`. Gives the result, how many
digits were taken, and the rest. -/
def gatherDigits (limit : Nat) : Nat → List Char → Nat × Nat × List Char
  | n, [] => (n, 0, [])
  | n, c :: cs =>
    if isDigit c ∧ n * 10 + digitValue c ≤ limit then
      let (m, k, rest) := gatherDigits limit (n * 10 + digitValue c) cs
      (m, k + 1, rest)
    else (n, 0, c :: cs)

def startsWithDigit : List Char → Bool
  | c :: _ => isDigit c
  | [] => false

def powerOfTen (n : Nat) : Nat := binary64.round (Nat.pow 10 n) 1

/-- Scale a magnitude by a power of ten: one multiplication or division for a power up to `10 ^ 308`,
and divisions by `10 ^ 308` before that while the exponent is smaller. -/
def scaleByTen : Nat → Nat → Int → Option Nat
  | 0, m, _ => some m
  | fuel + 1, m, e =>
    if e.natAbs ≤ 308 then
      if 0 ≤ e then
        let p := binary64.mul m (powerOfTen e.natAbs)
        if p < binary64.infinity then some p else none
      else some (binary64.div m (powerOfTen e.natAbs))
    else if m = 0 then some m
    else if 0 ≤ e then none
    else scaleByTen fuel (binary64.div m (powerOfTen 308)) (e + 308)

def floatOfParts (negative : Bool) (significand : Nat) (exponent : Int) (rest : List Char) :
    Outcome Numeral :=
  match scaleByTen (exponent.natAbs + 1) (binary64.round significand 1) exponent with
  | some m => .done (.float (binary64.withSign negative m)) rest
  | none => here .numberOutOfRange rest

def clampExponent (e : Int) : Int := max (-maxExponent - 1) (min maxExponent e)

def scanExponentDigits (negative down : Bool) (significand : Nat) (start : Int) :
    Int → List Char → Outcome Numeral
  | e, [] => floatOfParts negative significand (clampExponent (if down then start - e else start + e)) []
  | e, c :: cs =>
    if isDigit c then
      if e * 10 + digitValue c ≤ maxExponent then
        scanExponentDigits negative down significand start (e * 10 + digitValue c) cs
      else if significand ≠ 0 ∧ !down then here .numberOutOfRange cs
      else .done (.float (binary64.withSign negative 0)) (cs.dropWhile isDigit)
    else
      floatOfParts negative significand (clampExponent (if down then start - e else start + e)) (c :: cs)

def scanExponent (negative : Bool) (significand : Nat) (start : Int) (cs : List Char) :
    Outcome Numeral :=
  let (down, cs) := match cs with
    | '+' :: rest => (false, rest)
    | '-' :: rest => (true, rest)
    | cs => (false, cs)
  match cs with
  | [] => here .eofValue []
  | c :: rest =>
    if isDigit c then scanExponentDigits negative down significand start (digitValue c) rest
    else ahead .invalidNumber (c :: rest)

def scanFloatEnd (negative : Bool) (significand : Nat) (exponent : Int) (cs : List Char) :
    Outcome Numeral :=
  match cs with
  | 'e' :: rest => scanExponent negative significand exponent rest
  | 'E' :: rest => scanExponent negative significand exponent rest
  | cs => floatOfParts negative significand exponent cs

/-- A fraction, after its point. Digits that no longer fit the significand are dropped. -/
def scanFraction (negative : Bool) (significand : Nat) (exponent : Int) (cs : List Char) :
    Outcome Numeral :=
  let (m, k, rest) := gatherDigits maxSignificand significand cs
  if startsWithDigit rest then scanFloatEnd negative m (exponent - k) (rest.dropWhile isDigit)
  else if k = 0 then
    match rest with
    | [] => here .eofValue []
    | rest => ahead .invalidNumber rest
  else scanFloatEnd negative m (exponent - k) rest

/-- An integer of 64 bits; `-0` and what does not fit are floats. -/
def integerNumeral (negative : Bool) (n : Nat) : Numeral :=
  if !negative then .integer n
  else if 0 < n ∧ n ≤ 0x8000000000000000 then .integer (-n)
  else .float (binary64.withSign true (binary64.round n 1))

/-- What may follow the integer digits of a number. -/
def scanNumberEnd (negative : Bool) (n : Nat) (cs : List Char) : Outcome Numeral :=
  match cs with
  | '.' :: rest => scanFraction negative n 0 rest
  | 'e' :: rest => scanExponent negative n 0 rest
  | 'E' :: rest => scanExponent negative n 0 rest
  | cs => .done (integerNumeral negative n) cs

/-- A number, after its sign. Integer digits that do not fit the significand count as a power of ten. -/
def scanNumber (negative : Bool) (cs : List Char) : Outcome Numeral :=
  match cs with
  | [] => here .eofValue []
  | c :: rest =>
    if c = '0' then
      if startsWithDigit rest then ahead .invalidNumber rest else scanNumberEnd negative 0 rest
    else if isDigit c then
      let (m, _, rest) := gatherDigits maxSignificand (digitValue c) rest
      if startsWithDigit rest then
        let extra := (rest.takeWhile isDigit).length
        match rest.dropWhile isDigit with
        | '.' :: rest => scanFraction negative m extra rest
        | rest => scanFloatEnd negative m extra rest
      else scanNumberEnd negative m rest
    else ahead .invalidNumber (c :: rest)

/-! ### Separators -/

def scanColon (cs : List Char) : Outcome Unit :=
  match skipBlanks cs with
  | [] => here .eofObject []
  | ':' :: rest => .done () rest
  | cs => ahead .expectedColon cs

/-- Whether another element follows in an array; leaves its first character in place. -/
def scanNextItem (first : Bool) (cs : List Char) : Outcome Bool :=
  match skipBlanks cs with
  | [] => here .eofList []
  | ']' :: rest => .done false (']' :: rest)
  | c :: rest =>
    if first then .done true (c :: rest)
    else if c = ',' then
      match skipBlanks rest with
      | [] => here .eofValue []
      | ']' :: rest => ahead .trailingComma (']' :: rest)
      | cs => .done true cs
    else ahead .expectedListSeparator (c :: rest)

/-- Whether another member follows in an object; if so its key's quote has been consumed. -/
def scanNextKey (first : Bool) (cs : List Char) : Outcome Bool :=
  match skipBlanks cs with
  | [] => here .eofObject []
  | '\x7d' :: rest => .done false ('\x7d' :: rest)
  | c :: rest =>
    if first then
      if c = '"' then .done true rest else ahead .keyNotString (c :: rest)
    else if c = ',' then
      match skipBlanks rest with
      | [] => here .eofValue []
      | '"' :: rest => .done true rest
      | '\x7d' :: rest => ahead .trailingComma ('\x7d' :: rest)
      | cs => ahead .keyNotString cs
    else ahead .expectedObjectSeparator (c :: rest)

def scanArrayEnd (cs : List Char) : Outcome Unit × List Char :=
  match skipBlanks cs with
  | [] => (here .eofList [], [])
  | ']' :: rest => (.done () rest, rest)
  | ',' :: rest =>
    match skipBlanks rest with
    | ']' :: rest => (ahead .trailingComma (']' :: rest), ']' :: rest)
    | rest => (ahead .trailingCharacters rest, rest)
  | cs => (ahead .trailingCharacters cs, cs)

def scanObjectEnd (cs : List Char) : Outcome Unit × List Char :=
  match skipBlanks cs with
  | [] => (here .eofObject [], [])
  | '\x7d' :: rest => (.done () rest, rest)
  | ',' :: rest => (ahead .trailingComma (',' :: rest), ',' :: rest)
  | cs => (ahead .trailingCharacters cs, cs)

/-- Run a closing step after the content, also after a pending issue, which it then places. -/
def Outcome.close (finish : List Char → Outcome Unit × List Char) : Outcome α → Outcome α
  | .done a rest => (finish rest).1.andThen fun _ rest => .done a rest
  | .pending i rest => here i (finish rest).2
  | .failed i left => .failed i left

end ShaderSSA.Json
