import Reel.Number.Double

/-!
# Texts of doubles

The shortest text of a double has the fewest significant digits that read back as the same
double, and among those the nearest. It is positional while the exponent lies between -4 and
15, and scientific beyond. A text with fixed places is the exact value rounded to them.
-/
namespace Reel.Double

/-- A positive decimal `digits · 10 ^ exponent`. -/
structure Decimals where
  digits : Nat
  exponent : Int
  deriving Repr, DecidableEq

def Decimals.value (x : Decimals) : Rat := Rounding.scaled 10 x.digits x.exponent

/-- The two neighbours of a positive value on the grid `10 ^ exponent`, the nearer one first. -/
def neighbours (value : Rat) (exponent : Int) : List Decimals :=
  let n := value.num.natAbs * Nat.pow 10 (-exponent).toNat
  let d := value.den * Nat.pow 10 exponent.toNat
  let below : Decimals := ⟨n / d, exponent⟩
  let above : Decimals := ⟨n / d + 1, exponent⟩
  if Rounding.nearest .toEven n d = n / d then [below, above] else [above, below]

/-- The first neighbour that rounds back to the value, on grids from `places` digits on. -/
def shortestFrom (value : Rat) (top : Int) : Nat → Nat → Option Decimals
  | 0, _ => none
  | steps + 1, places =>
    match (neighbours value (top - places + 1)).find? fun x => round x.value = .finite value with
    | some x => some x
    | none => shortestFrom value top steps (places + 1)

/-- A neighbour above a row of nines ends in a zero, which belongs to the exponent. -/
def Decimals.reduce (x : Decimals) : Decimals :=
  if x.digits % 10 = 0 then ⟨x.digits / 10, x.exponent + 1⟩ else x

/-- The shortest decimal that reads back as the positive double; seventeen digits suffice. -/
def shortest (value : Rat) : Decimals :=
  let top := Rounding.magnitude 10 value.num.natAbs value.den
  ((shortestFrom value top 17 1).getD ⟨0, 0⟩).reduce

def zeros (n : Nat) : List Char := List.replicate n '0'

/-- Writes a decimal positionally with at least one digit on each side of the point. -/
def positional (digits : List Char) (exponent : Int) : List Char :=
  if 0 ≤ exponent then digits ++ zeros exponent.toNat ++ ['.', '0']
  else
    let places := (-exponent).toNat
    let padded := zeros (places + 1 - digits.length) ++ digits
    padded.take (padded.length - places) ++ '.' :: padded.drop (padded.length - places)

/-- Writes a decimal as `d.ddde±xx` with two exponent digits at least. -/
def scientific (digits : List Char) (top : Int) : List Char :=
  let lead := digits.take 1
  let tail := digits.drop 1
  let exponent := Nat.toDigits 10 top.natAbs
  lead ++ (if tail.isEmpty then [] else '.' :: tail) ++ ['e', if top < 0 then '-' else '+'] ++
    zeros (2 - exponent.length) ++ exponent

def text : Double → String
  | .nan => "nan"
  | .infinite negative => if negative then "-inf" else "inf"
  | .negZero => "-0.0"
  | .finite value =>
    if value = 0 then "0.0"
    else
      let size := if value < 0 then -value else value
      let decimals := shortest size
      let digits := Nat.toDigits 10 decimals.digits
      let top := decimals.exponent + digits.length - 1
      let body := if -4 ≤ top && top < 16 then positional digits decimals.exponent
        else scientific digits top
      String.ofList (if value < 0 then '-' :: body else body)

/-- A rational rounded to a number of decimal places, a tie going to the even neighbour. -/
def fixedDigits (places : Nat) (size : Rat) : List Char :=
  let units := Rounding.nearest .toEven (size.num.natAbs * Nat.pow 10 places) size.den
  let digits := Nat.toDigits 10 units
  let padded := zeros (places + 1 - digits.length) ++ digits
  if places = 0 then padded
  else padded.take (padded.length - places) ++ '.' :: padded.drop (padded.length - places)

def fixed (places : Nat) (x : Double) : String :=
  match x with
  | .nan => "nan"
  | .infinite negative => if negative then "-inf" else "inf"
  | x =>
    let body := fixedDigits places (x.toRat?.getD 0)
    String.ofList (if x.negative then '-' :: body else body)

end Reel.Double
