import Reel.Timecode

/-!
# Amounts of time

Durations, offsets and transitions are computed with doubles when a graph is built for use. The
same constructions read over the rationals are exact, and laws about lengths are stated there.
A class holds the few operations that both need.
-/
namespace Reel

class Seconds (α : Type) where
  /-- The number nearest to a rational. -/
  ofRat : Rat → α
  add : α → α → α
  sub : α → α → α
  half : α → α
  times : Nat → α → α
  lt : α → α → Bool
  le : α → α → Bool
  /-- The number as it is written in a filter graph. -/
  format : α → Except Error String

namespace Seconds

variable {α : Type} [Seconds α]

def zero : α := ofRat 0

/-- The first number, unless the second is strictly greater. -/
def max (a b : α) : α := if lt a b then b else a

/-- The first number, unless the second is strictly smaller. -/
def min (a b : α) : α := if lt b a then b else a

def unsigned (a : α) : α := if le a zero && le zero a then zero else a

def sum (xs : List α) : α := xs.foldl add zero

end Seconds

instance : Seconds Double where
  ofRat := Double.round
  add := Double.add
  sub := Double.sub
  half := Double.half
  times n x := (Double.ofNat n).mul x
  lt := Double.lt
  le x y := x.lt y || x.eq y
  format x := Timecode.format (.real x)

/-- A rational as a decimal with six places, a tie going away from zero. -/
def Timecode.sixPlaces (x : Rat) : Except Error Decimal :=
  let units := Rounding.nearest .awayFromZero (x.num.natAbs * Nat.pow 10 6) x.den
  if Decimal.precision < Decimal.digitCount units then .error (.decimal .invalidOperation)
  else .ok (.finite (decide (x < 0)) units (-6))

instance : Seconds Rat where
  ofRat x := x
  add x y := x + y
  sub x y := x - y
  half x := x / 2
  times n x := n * x
  lt x y := decide (x < y)
  le x y := decide (x ≤ y)
  format x := (Timecode.sixPlaces x).map fun d => Timecode.shorten d.plainText

end Reel
