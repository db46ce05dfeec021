/-!
# Ranges of code points

Classes of characters are given as closed ranges of code points in ascending order. `Ranges.holds`
decides membership; the tables built from it say which class they list.
-/

namespace ApiManual.Text

/-- Closed ranges of code points, in ascending order. -/
abbrev Ranges := List (Nat × Nat)

/-- Whether a range holds the character. -/
def Ranges.holds (ranges : Ranges) (c : Char) : Bool :=
  ranges.any fun range => range.1 ≤ c.toNat && c.toNat ≤ range.2

end ApiManual.Text
