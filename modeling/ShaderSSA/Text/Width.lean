import ShaderSSA.Text.Emoji
import ShaderSSA.Text.Ligature

/-!
# Width of a line in columns

Most characters take their own columns wherever they stand. Emoji that are put together from several
characters, and letters that form a ligature, share theirs. A line is therefore read from its end:
`Context` is what a character has to know of the text that follows it, and `place` gives the columns
that the character adds.
-/

namespace ShaderSSA.Text

/-- What the text that follows begins with, as far as it matters to the character before it. -/
inductive Lead where
  | plain
  | skinTone
  /-- A regional indicator that no other one follows. -/
  | indicator
  /-- Several regional indicators. -/
  | indicators
  | emoji
  /-- A joiner and an emoji, as in the cases below. -/
  | joined
  | joinedKeycap
  | joinedIndicator
  /-- An even number of regional indicators before the joiner. -/
  | joinedPairs
  /-- An odd number of them, at least three. -/
  | joinedPairsAndOne
  /-- A tag that ends in some letters. -/
  | joinedLetters (count : Nat)
  /-- A tag in which some digits are the latest. -/
  | joinedDigits (count : Nat)
  | alef
  | lamed (joiner : Bool)
  | bugineseYa (joiner : Bool)
  /-- The Buginese vowel sign i, a joiner and the letter ya. -/
  | bugineseVowelYa
  | tifinagh (joiner : Bool)
  /-- The Tifinagh consonant joiner and a consonant. -/
  | tifinaghJoined
  | lisuTone
  | orkhonI (joiner : Bool)
  | khmerLetter
  | kiratVowelE
  | kiratVowelAi
deriving DecidableEq

namespace Lead

/-- Letters, whose ligatures selectors do not disturb. -/
def isLetter : Lead → Bool
  | alef | lamed _ | bugineseYa _ | bugineseVowelYa | tifinagh _ | tifinaghJoined | lisuTone
  | orkhonI _ | khmerLetter => true
  | _ => false

/-- Letters whose ligatures neither a joiner nor a mark without a glyph disturbs. -/
def passesMarks : Lead → Bool
  | alef => false
  | lead => lead.isLetter

/-- A joiner and an emoji, to which an emoji with a selector may be joined. -/
def joinsStyled : Lead → Bool
  | joined | joinedKeycap => true
  | _ => false

/-- A joiner stands before the letters. -/
def withJoiner : Lead → Lead
  | lamed _ => lamed true
  | bugineseYa _ => bugineseYa true
  | tifinagh _ => tifinagh true
  | orkhonI _ => orkhonI true
  | lead => lead

/-- What a character begins when it stands by itself. -/
def ofChar (c : Char) : Lead :=
  if c.toNat ≤ 0xa0 then plain
  else if isRegionalIndicator c then indicator
  else if isSkinTone c then skinTone
  else if Text.emoji.contains c then emoji
  else if Text.alef.contains c then alef
  else if subscribed.contains c then khmerLetter
  else if tifinaghConsonants.contains c then tifinagh false
  else if lisuSecondTones.contains c then lisuTone
  else if c = '\u05dc' then lamed false
  else if c = '\u1a10' then bugineseYa false
  else if c.toNat = 0x10c03 then orkhonI false
  else if c.toNat = 0x16d67 then kiratVowelE
  else if c.toNat = 0x16d68 then kiratVowelAi
  else plain

def joiner : Char := '\u200d'

/-- The columns that a character adds before emoji, and what the two begin together. -/
def beforeEmoji (lead : Lead) (c : Char) : Option (Int × Lead) :=
  match lead with
  | skinTone =>
    if skinToned.contains c then some (0, emoji)
    else if c = joiner then some (0, joined)
    else none
  | indicator => if isRegionalIndicator c then some (1, indicators) else none
  | indicators =>
    if isRegionalIndicator c then some (1, indicators)
    else if c = joiner then some (0, joined)
    else none
  | emoji => if c = joiner then some (0, joined) else none
  | joined =>
    if c = '\u20e3' then some (0, joinedKeycap)
    else if isRegionalIndicator c then some (1, joinedIndicator)
    else if isSkinTone c then some (0, skinTone)
    else if c.toNat = 0xe007f then some (0, joinedLetters 0)
    else if Text.emoji.contains c then some (0, emoji)
    else none
  | joinedIndicator => if isRegionalIndicator c then some (-1, joinedPairs) else none
  | joinedPairs =>
    if isRegionalIndicator c then some (3, joinedPairsAndOne)
    else if c = joiner then some (0, joined)
    else none
  | joinedPairsAndOne =>
    if isRegionalIndicator c then some (-1, joinedPairs)
    else if c = joiner then some (0, joined)
    else none
  | joinedLetters n =>
    if isTagLetter c && n < 6 then some (0, joinedLetters (n + 1))
    else if isTagDigit c && n < 5 then some (0, joinedDigits 1)
    else if c.toNat = 0x1f3f4 && 3 ≤ n then some (0, emoji)
    else none
  | joinedDigits n =>
    if isTagDigit c && n < 3 then some (0, joinedDigits (n + 1))
    else if c.toNat = 0x1f3f4 && n = 3 then some (0, emoji)
    else none
  | _ => none

/-- The columns that a character adds before letters with which it may form a ligature, and what the
two begin together. -/
def beforeLetter (lead : Lead) (c : Char) : Option (Int × Lead) :=
  match lead with
  | alef =>
    if lam.contains c then some (0, plain)
    else if joinsThrough c then some (0, alef)
    else none
  | lamed true => if c = '\u05d0' then some (0, plain) else none
  | khmerLetter => if c = '\u17d2' then some (-1, plain) else none
  | bugineseYa true => if c = '\u1a17' then some (0, bugineseVowelYa) else none
  | bugineseVowelYa => if c = '\u1a15' then some (0, plain) else none
  | tifinagh joiner =>
    if c = '\u2d7f' then some (1, tifinaghJoined)
    else if joiner && tifinaghConsonants.contains c then some (0, plain)
    else none
  | tifinaghJoined => if tifinaghConsonants.contains c then some (-1, plain) else none
  | lisuTone => if lisuTones.contains c then some (0, plain) else none
  | orkhonI true => if c.toNat = 0x10c32 then some (0, plain) else none
  | kiratVowelE =>
    if c.toNat = 0x16d63 || c.toNat = 0x16d69 then some (0, plain)
    else if c.toNat = 0x16d67 then some (0, kiratVowelAi)
    else if c.toNat = 0x16d68 then some (1, kiratVowelE)
    else none
  | kiratVowelAi => if c.toNat = 0x16d63 then some (0, plain) else none
  | _ => none

/-- The columns that a character adds, and what the text begins with from it on. -/
def place (lead : Lead) (c : Char) : Int × Lead :=
  if lead.passesMarks && c = joiner then (0, lead.withJoiner)
  else if lead.passesMarks && ignorableMarks.contains c then (0, lead)
  else
    match lead.beforeEmoji c <|> lead.beforeLetter c with
    | some placed => placed
    | none => (columns c, ofChar c)

end Lead

/-- The text that follows a character: what it begins with, and the selectors before that. -/
structure Context where
  lead : Lead := .plain
  /-- A selector of the emoji style stands first. -/
  emojiStyle : Bool := false
  /-- A selector of the text style stands first. -/
  textStyle : Bool := false
  /-- A selector of the form of full width stands first. -/
  fullWidth : Bool := false
deriving DecidableEq

namespace Context

/-- A selector cuts off what follows, unless that is a letter. -/
def behindSelector (k : Context) : Context := if k.lead.isLetter then k else {}

/-- A selector of the emoji style, which may also continue a joined emoji. -/
def withEmojiStyle (k : Context) : Context :=
  { (if k.lead.joinsStyled then k else k.behindSelector) with emojiStyle := true }

/-- A selector of the emoji style had nothing to choose. -/
def withoutEmojiStyle (k : Context) : Context :=
  if k.emojiStyle then { k.behindSelector with emojiStyle := false } else k

/-- The columns that a character adds in front of a text, and the text from it on. -/
def place (k : Context) (c : Char) : Int × Context :=
  if k.emojiStyle && styled.contains c then
    (if k.lead.joinsStyled then 0 else 2, { lead := .emoji })
  else
    let k := k.withoutEmojiStyle
    if c.toNat ≤ 0xa0 then (1, {})
    else if c = '\ufe0f' then (0, k.withEmojiStyle)
    else if c = '\ufe0e' then (0, { k.behindSelector with textStyle := true })
    else if k.textStyle && narrowAsText.contains c then (1, {})
    else if c = '\ufe01' then (0, { k.behindSelector with textStyle := false, fullWidth := true })
    else if k.fullWidth && quotationMarks.contains c then (2, {})
    else
      let (added, lead) := k.lead.place c
      (added, { lead })

end Context

def width (line : String) : Nat :=
  (line.toList.foldr (fun c (total, k) =>
    let (added, k) := k.place c
    (total + added, k)) ((0 : Int), ({} : Context))).1.toNat

end ShaderSSA.Text
