/-!
# Sets of characters

A character class is a list of closed intervals of code points, in ascending order.
-/

namespace ShaderSSA.Text

structure CodeSet where
  intervals : List (Nat × Nat)

namespace CodeSet

def contains (s : CodeSet) (c : Char) : Bool :=
  s.intervals.any fun (a, b) => a ≤ c.toNat && c.toNat ≤ b

end CodeSet

end ShaderSSA.Text
