/-!
Sets of code points given by ranges, the form in which character properties are published.
-/

namespace HostTree

/-- A set of code points as a list of ranges, both ends included. -/
abbrev CodePoints := List (Nat × Nat)

/-- Whether a character lies in one of the ranges. -/
def CodePoints.holds (ranges : CodePoints) (c : Char) : Bool :=
  ranges.any fun range => range.1 ≤ c.toNat && c.toNat ≤ range.2

end HostTree
