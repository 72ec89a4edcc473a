import CommandShell.Text

/-!
# Ranges of characters

A property of characters is given by the ranges of code points that have it.
-/

namespace CommandShell

/-- Whether a character lies in one of the ranges, the ends of which count. -/
def isIn (ranges : List (Nat × Nat)) (c : Char) : Bool :=
  ranges.any fun range => range.1 ≤ c.toNat && c.toNat ≤ range.2

end CommandShell
