import Reel.Number.Numeral
import Reel.Number.Rounding

/-!
# Binary64 numbers

A double is kept as the exact rational it stands for, beside the values that are no rational:
the two infinities, the negative zero and the not-a-number. Every operation is the exact
rational operation followed by one rounding to the nearest number with 53 significant bits, a
tie going to the even neighbour, so its results are those of the standard's default mode.
-/
namespace Reel

inductive Double where
  | nan
  | infinite (negative : Bool)
  | negZero
  | finite (value : Rat)
  deriving Repr, DecidableEq

namespace Double

def zero : Double := .finite 0

instance : Inhabited Double := ⟨zero⟩

/-- The number it stands for, if it is one. -/
def toRat? : Double → Option Rat
  | .finite value => some value
  | .negZero => some 0
  | _ => none

def negative : Double → Bool
  | .nan => false
  | .infinite negative => negative
  | .negZero => true
  | .finite value => decide (value < 0)

def isNaN : Double → Bool
  | .nan => true
  | _ => false

def isInfinite : Double → Bool
  | .infinite _ => true
  | _ => false

def signedZero (negative : Bool) : Double := if negative then .negZero else .finite 0

/-- The exponent of the last place of doubles near `n / d`: 53 bits, never below `2 ^ -1074`. -/
def lastPlace (n d : Nat) : Int := max (Rounding.magnitude 2 n d - 52) (-1074)

/-- The double nearest to a rational; beyond the largest double lies infinity. A number that
rounds to zero keeps its sign. -/
def round (x : Rat) : Double :=
  if x = 0 then .finite 0
  else
    let negative := decide (x < 0)
    let n := x.num.natAbs
    let e := lastPlace n x.den
    let m := Rounding.nearest .toEven (n * Nat.pow 2 (-e).toNat) (x.den * Nat.pow 2 e.toNat)
    if m = 0 then signedZero negative
    else if Nat.pow 2 1024 ≤ m * Nat.pow 2 e.toNat then .infinite negative
    else
      let size := Rounding.scaled 2 m e
      .finite (if negative then -size else size)

/-- The double nearest to a whole number, if it is in range. -/
def ofInt? (n : Int) : Option Double :=
  match round n with
  | .infinite _ => none
  | x => some x

def ofNat (n : Nat) : Double := round n

def neg : Double → Double
  | .nan => .nan
  | .infinite negative => .infinite !negative
  | .negZero => .finite 0
  | .finite value => if value = 0 then .negZero else .finite (-value)

def add : Double → Double → Double
  | .nan, _ => .nan
  | _, .nan => .nan
  | .infinite a, .infinite b => if a = b then .infinite a else .nan
  | .infinite a, _ => .infinite a
  | _, .infinite b => .infinite b
  | .negZero, y => y
  | x, .negZero => x
  | .finite x, .finite y => round (x + y)

def sub (x y : Double) : Double := x.add y.neg

def mul (x y : Double) : Double :=
  let sign := x.negative != y.negative
  match x, y with
  | .nan, _ => .nan
  | _, .nan => .nan
  | .infinite _, y => if y.toRat? = some 0 then .nan else .infinite sign
  | x, .infinite _ => if x.toRat? = some 0 then .nan else .infinite sign
  | x, y =>
    match x.toRat?, y.toRat? with
    | some a, some b => if a * b = 0 then signedZero sign else round (a * b)
    | _, _ => .nan

/-- The quotient by a number that is not zero. -/
def div (x y : Double) : Double :=
  let sign := x.negative != y.negative
  match x, y with
  | .nan, _ => .nan
  | _, .nan => .nan
  | .infinite _, .infinite _ => .nan
  | .infinite _, _ => .infinite sign
  | _, .infinite _ => signedZero sign
  | x, y =>
    match x.toRat?, y.toRat? with
    | some a, some b =>
      if b = 0 then (if a = 0 then .nan else .infinite sign)
      else if a = 0 then signedZero sign
      else round (a / b)
    | _, _ => .nan

def half (x : Double) : Double := x.mul (.finite (1 / 2))

/-- Strictly less; the not-a-number compares with nothing, and the two zeros are equal. -/
def lt : Double → Double → Bool
  | .nan, _ => false
  | _, .nan => false
  | .infinite a, .infinite b => a && !b
  | .infinite a, _ => a
  | _, .infinite b => !b
  | .negZero, .finite y => decide (0 < y)
  | .finite x, .negZero => decide (x < 0)
  | .negZero, .negZero => false
  | .finite x, .finite y => decide (x < y)

def eq : Double → Double → Bool
  | .nan, _ => false
  | _, .nan => false
  | .infinite a, .infinite b => a == b
  | x, y => x.toRat? == y.toRat? && x.toRat?.isSome

def truncate? (x : Double) : Option Int := x.toRat?.map fun value => Int.tdiv value.num value.den

/-- The double nearest to a numeral. Exponents beyond the range are settled by the number of
digits, so that no power of ten larger than the range is computed. -/
def ofNumeral (x : Numeral) : Double :=
  if x.coefficient = 0 then signedZero x.negative
  else
    let top := (Rounding.digitCount 10 x.coefficient : Int) + x.exponent
    if 310 < top then .infinite x.negative
    else if top < -330 then signedZero x.negative
    else
      let size := Rounding.scaled 10 x.coefficient x.exponent
      round (if x.negative then -size else size)

/-- Reads a number: a numeral in any script with grouped digits, or a signed `inf`, `infinity`
or `nan` in either case, with blanks around it. -/
def read? (s : String) : Option Double :=
  (Numeral.normalize? s.toList).bind fun cs =>
    let (negative, body) := Numeral.splitSign cs
    let word := body.map Char.toLower
    if word = "inf".toList || word = "infinity".toList then some (.infinite negative)
    else if word = "nan".toList then some .nan
    else (Numeral.read? cs).map ofNumeral

end Double

end Reel
