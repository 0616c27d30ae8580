/-!
Ranges of characters.

A property of characters is kept as the closed ranges of the code points that have it,
ascending and apart.

* `Ranges`, `Ranges.holds`: ranges, and whether a character lies in one of them.
-/

namespace FlatNet

/-- Closed ranges of code points. -/
abbrev Ranges := List (Nat × Nat)

namespace Ranges

/-- Whether a character lies in one of the ranges. -/
def holds (ranges : Ranges) (c : Char) : Bool :=
  ranges.any fun r => r.1 ≤ c.toNat && c.toNat ≤ r.2

end Ranges

end FlatNet
