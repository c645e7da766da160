import ShaderSSA.Text.Columns

/-!
# Letters that form ligatures

Classes of letters that share their columns with a neighbour, and of the marks that may stand
between the two.
-/

namespace ShaderSSA.Text

/-- The Arabic letters of the alef family. -/
def alef : CodeSet := ⟨[
  (0x622, 0x623), (0x625, 0x625), (0x627, 0x627), (0x671, 0x673), (0x675, 0x675), (0x773, 0x774),
  (0x870, 0x882)]⟩

/-- The Arabic letters of the lam family. -/
def lam : CodeSet := ⟨[
  (0x644, 0x644), (0x6b5, 0x6b8), (0x76a, 0x76a), (0x8a6, 0x8a6), (0x8c7, 0x8c7)]⟩

/-- The characters of no width that keep the letters on their two sides from joining. -/
def joinBreaking : CodeSet := ⟨[
  (0x605, 0x605), (0x890, 0x891), (0x8e2, 0x8e2), (0x9be, 0x9be), (0x9d7, 0x9d7), (0xb3e, 0xb3e),
  (0xb57, 0xb57), (0xbbe, 0xbbe), (0xbd7, 0xbd7), (0xcc0, 0xcc0), (0xcc2, 0xcc2), (0xcc7, 0xcc8),
  (0xcca, 0xccb), (0xcd5, 0xcd6), (0xd3e, 0xd3e), (0xd4e, 0xd4e), (0xd57, 0xd57), (0xdcf, 0xdcf),
  (0xddf, 0xddf), (0x1160, 0x11ff), (0x1715, 0x1715), (0x1734, 0x1734), (0x180e, 0x180e),
  (0x1b35, 0x1b35), (0x1b3b, 0x1b3b), (0x1b3d, 0x1b3d), (0x1b43, 0x1b44), (0x1baa, 0x1baa),
  (0x1bf2, 0x1bf3), (0x200c, 0x200d), (0x2065, 0x2069), (0x302e, 0x302f), (0x3164, 0x3164),
  (0xa8fa, 0xa8fa), (0xa953, 0xa953), (0xa9c0, 0xa9c0), (0xd7b0, 0xd7c6), (0xd7cb, 0xd7fb),
  (0xffa0, 0xffa0), (0xfff0, 0xfff8), (0x111c0, 0x111c0), (0x111c2, 0x111c3), (0x11235, 0x11235),
  (0x1133e, 0x1133e), (0x1134d, 0x1134d), (0x11357, 0x11357), (0x113b8, 0x113b8),
  (0x113c2, 0x113c2), (0x113c5, 0x113c5), (0x113c7, 0x113c9), (0x113cf, 0x113cf),
  (0x113d1, 0x113d1), (0x114b0, 0x114b0), (0x114bd, 0x114bd), (0x115af, 0x115af),
  (0x116b6, 0x116b6), (0x11930, 0x11930), (0x1193d, 0x1193d), (0x1193f, 0x1193f),
  (0x11941, 0x11941), (0x11a84, 0x11a89), (0x11d46, 0x11d46), (0x11f02, 0x11f02),
  (0x11f41, 0x11f41), (0x16ff0, 0x16ff1), (0x1d165, 0x1d166), (0x1d16d, 0x1d172),
  (0xe0000, 0xe0000), (0xe0002, 0xe001f), (0xe0080, 0xe00ff), (0xe01f0, 0xe0fff)]⟩

/-- A mark through which Arabic letters join. -/
def joinsThrough (c : Char) : Bool := columns c == 0 && !joinBreaking.contains c

/-- The marks without a glyph. -/
def ignorableMarks : CodeSet := ⟨[
  (0x34f, 0x34f), (0x17b4, 0x17b5), (0x180b, 0x180d), (0x180f, 0x180f), (0xfe00, 0xfe0f),
  (0xe0100, 0xe01ef)]⟩

/-- The Khmer letters that a coeng puts below the letter before it. -/
def subscribed : CodeSet := ⟨[
  (0x1780, 0x1782), (0x1784, 0x1787), (0x1789, 0x178c), (0x178e, 0x1793), (0x1795, 0x1798),
  (0x179b, 0x179d), (0x17a0, 0x17a0), (0x17a2, 0x17a2), (0x17a7, 0x17a7), (0x17ab, 0x17ac),
  (0x17af, 0x17af)]⟩

/-- The Tifinagh letters that join in pairs. -/
def tifinaghConsonants : CodeSet := ⟨[
  (0x2d31, 0x2d65), (0x2d6f, 0x2d6f)]⟩

/-- The Lisu tone letters that a second tone letter joins. -/
def lisuTones : CodeSet := ⟨[
  (0xa4f8, 0xa4fb)]⟩

/-- The Lisu tone letters that join the tone letter before them. -/
def lisuSecondTones : CodeSet := ⟨[
  (0xa4fc, 0xa4fd)]⟩

/-- The quotation marks that have a form of full width. -/
def quotationMarks : CodeSet := ⟨[
  (0x2018, 0x2019), (0x201c, 0x201d)]⟩

end ShaderSSA.Text
