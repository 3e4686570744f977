/-!
# Sets of code points as sorted ranges

A property of characters is kept as an ascending list of closed ranges of code points.
Membership stops at the first range that starts beyond the character.
-/
namespace Reel.Text

/-- Closed ranges of code points, ascending and disjoint. -/
abbrev Ranges := List (Nat × Nat)

/-- Whether the code point lies in one of the ranges. -/
def Ranges.contains : Ranges → Nat → Bool
  | [], _ => false
  | (low, high) :: rest, n =>
    if n < low then false else if n ≤ high then true else Ranges.contains rest n

end Reel.Text
