import Reel.Value.Number
import Reel.Value.Spelling

/-!
# Durations as they are shown

A duration is shown in seconds, in minutes and seconds, or in hours, minutes and seconds, with
one decimal place. The unit is chosen, and whole minutes are taken off, before the seconds are
rounded. Whole numbers are divided exactly, doubles as doubles and decimals as decimals.
-/
namespace Reel.Duration

/-- A text filled with zeros to a width, behind its sign. -/
def zeroFilled (width : Nat) (s : String) : String :=
  let cs := s.toList
  let zeros := List.replicate (width - cs.length) '0'
  String.ofList (match cs with
    | '-' :: digits => '-' :: zeros ++ digits
    | digits => zeros ++ digits)

/-- Minutes from one on, and the seconds above them with their decimal place. -/
def inMinutes (minutes : Int) (seconds : String) : Except Error String := do
  let seconds := zeroFilled 4 seconds
  if minutes < 60 then return toString minutes ++ "m " ++ seconds ++ "s"
  else
    let hours := minutes / 60
    return (← (Value.int hours).toText) ++ "h " ++
      zeroFilled 2 (toString (minutes - hours * 60)) ++ "m " ++ seconds ++ "s"

/-- The whole minutes in an amount. The remainder is exact; taking it off and dividing by sixty
are rounded, and a quotient just below a whole number counts as that number. -/
def wholeMinutes (value : Rat) : Int :=
  let remainder := value - 60 * (value / 60).floor
  match ((Double.round value).sub (Double.round remainder)).div (Double.round 60) with
  | .finite quotient =>
    let floor := quotient.floor
    if 1 / 2 < quotient - floor then floor + 1 else floor
  | _ => 0

/-- A double as a duration; what is no number, or endless, has no whole minutes. -/
def ofDouble (x : Double) : Except Error String :=
  if x.lt (Double.round 60) then .ok (x.fixed 1 ++ "s")
  else
    match x with
    | .finite value => do
      let minutes := wholeMinutes value
      inMinutes minutes ((x.sub (← (Value.int (minutes * 60)).toDouble)).fixed 1)
    | _ => .error (.unreadable "cannot convert float NaN to integer")

def ofInt (n : Int) : Except Error String :=
  if n < 60 then (Value.int n).toDouble.map fun x => x.fixed 1 ++ "s"
  else inMinutes (n / 60) ((Double.round (n % 60 : Int)).fixed 1)

/-- A decimal as a duration; one with more minutes than its precision can count has none. -/
def ofDecimal (d : Decimal) : Except Error String := do
  if ← Value.ofSignal (d.lt (.ofInt 60)) then return d.fixed 1 ++ "s"
  else
    match d with
    | .finite _ coefficient exponent =>
      let minutes : Int ← (Value.ofSignal (Decimal.times 60 coefficient exponent)).map Int.ofNat
      inMinutes minutes ((← Value.ofSignal (d.sub (.ofInt (minutes * 60)))).fixed 1)
    | _ => throw (.outOfRange "cannot convert Infinity to integer")

def ofValue : Value → Except Error String
  | .bool b => ofInt (if b then 1 else 0)
  | .int n => ofInt n
  | .real x => ofDouble x
  | .decimal d => ofDecimal d
  | v => .error (.noOrder "<" v.kindName "int")

end Reel.Duration
