import ShaderSSA.Json.Scan

/-!
# Skipping a JSON value

The value of an unknown member is checked for syntax only. Nesting has no limit here, surrogates
are not paired, numbers have no range, and a separator is always followed by a whole element.
-/

namespace ShaderSSA.Json

open Outcome

def skipEscape : List Char → Outcome Unit
  | [] => here .eofString []
  | c :: rest =>
    if c = 'u' then (scanHex rest).map fun _ => ()
    else if c ∈ ['"', '\\', '/', 'b', 'f', 'n', 'r', 't'] then .done () rest
    else ahead .invalidEscape (c :: rest)

def skipStringChars : Nat → List Char → Outcome Unit
  | 0, cs => here .eofString cs
  | _ + 1, [] => here .eofString []
  | fuel + 1, c :: rest =>
    if c = '"' then .done () rest
    else if c = '\\' then (skipEscape rest).andThen fun _ rest => skipStringChars fuel rest
    else if c.toNat < 0x20 then here .controlCharacter (c :: rest)
    else skipStringChars fuel rest

def skipString (cs : List Char) : Outcome Unit := skipStringChars (cs.length + 1) cs

def skipExponent (cs : List Char) : Outcome Unit :=
  let cs := match cs with
    | '+' :: rest => rest
    | '-' :: rest => rest
    | cs => cs
  if startsWithDigit cs then .done () (cs.dropWhile isDigit) else ahead .invalidNumber cs

def skipExponent? (cs : List Char) : Outcome Unit :=
  match cs with
  | 'e' :: rest => skipExponent rest
  | 'E' :: rest => skipExponent rest
  | cs => .done () cs

def skipNumberEnd (cs : List Char) : Outcome Unit :=
  match cs with
  | '.' :: rest =>
    if startsWithDigit rest then skipExponent? (rest.dropWhile isDigit) else ahead .invalidNumber rest
  | cs => skipExponent? cs

def skipNumber (cs : List Char) : Outcome Unit :=
  match cs with
  | '0' :: rest => if startsWithDigit rest then ahead .invalidNumber rest else skipNumberEnd rest
  | cs => if startsWithDigit cs then skipNumberEnd (cs.dropWhile isDigit) else ahead .invalidNumber cs

/-- An array or object that has been entered. -/
inductive Frame where
  | array
  | object

def Frame.closing : Frame → Char
  | .array => ']'
  | .object => '\x7d'

def Frame.eof : Frame → Issue
  | .array => .eofList
  | .object => .eofObject

def Frame.expectedSeparator : Frame → Issue
  | .array => .expectedListSeparator
  | .object => .expectedObjectSeparator

/-- The key of a member and its colon; an array's element has none. -/
def skipKey (frame : Frame) (cs : List Char) : Outcome Unit :=
  match frame with
  | .array => .done () cs
  | .object =>
    match skipBlanks cs with
    | [] => here .eofObject []
    | '"' :: rest => (skipString rest).andThen fun _ rest => scanColon rest
    | cs => ahead .keyNotString cs

/-- What is due next. -/
inductive SkipStep where
  | value
  | first
  /-- A separator and an element of the innermost frame, or its end. -/
  | next

def skipFrames : Nat → SkipStep → List Frame → List Char → Outcome Unit
  | 0, _, _, cs => here .eofValue cs
  | fuel + 1, .value, frames, cs =>
    match skipBlanks cs with
    | [] => here .eofValue []
    | 'n' :: rest => after fuel frames (scanIdent ['u', 'l', 'l'] rest)
    | 't' :: rest => after fuel frames (scanIdent ['r', 'u', 'e'] rest)
    | 'f' :: rest => after fuel frames (scanIdent ['a', 'l', 's', 'e'] rest)
    | '-' :: rest => after fuel frames (skipNumber rest)
    | '"' :: rest => after fuel frames (skipString rest)
    | '[' :: rest => skipFrames fuel .first (.array :: frames) rest
    | '\x7b' :: rest => skipFrames fuel .first (.object :: frames) rest
    | cs => if startsWithDigit cs then after fuel frames (skipNumber cs) else ahead .expectedValue cs
  | _ + 1, .first, [], cs => .done () cs
  | _ + 1, .next, [], cs => .done () cs
  | fuel + 1, .first, frame :: frames, cs =>
    match skipBlanks cs with
    | [] => here frame.eof []
    | c :: rest =>
      if c = frame.closing then skipFrames fuel .next frames rest
      else (skipKey frame (c :: rest)).andThen fun _ rest => skipFrames fuel .value (frame :: frames) rest
  | fuel + 1, .next, frame :: frames, cs =>
    match skipBlanks cs with
    | [] => here frame.eof []
    | c :: rest =>
      if c = frame.closing then skipFrames fuel .next frames rest
      else if c = ',' then
        (skipKey frame rest).andThen fun _ rest => skipFrames fuel .value (frame :: frames) rest
      else ahead frame.expectedSeparator (c :: rest)
where
  /-- Go on behind a value without frames of its own. -/
  after (fuel : Nat) (frames : List Frame) (o : Outcome Unit) : Outcome Unit :=
    o.andThen fun _ rest => skipFrames fuel .next frames rest

def skipValue (cs : List Char) : Outcome Unit := skipFrames (2 * cs.length + 2) .value [] cs

end ShaderSSA.Json
