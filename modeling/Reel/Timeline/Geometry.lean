import Reel.Value.Number

/-!
# Picture size and rate

Encoders need even dimensions and a positive whole rate. What cannot be taken as a number falls
back to a default; a number out of all bounds is an error.
-/
namespace Reel.Geometry

def defaultWidth : Int := 1920
def defaultHeight : Int := 1080
def defaultFps : Int := 30

/-- The value as a whole number, if it can be read as one. -/
def whole? (v : Value) : Except Error (Option Int) :=
  match v.toWhole with
  | .ok n => .ok (some n)
  | .error (.wrongKind _) | .error (.unreadable _) => .ok none
  | .error e => .error e

/-- The even number at or below a dimension, at least two. -/
def evenAtMost (n : Int) : Int := max 2 (if n % 2 = 0 then n else n - 1)

/-- A dimension: even, at least two, from the default if the value is no positive number. -/
def dimension (v : Value) (default : Int) : Except Error Int := do
  let n := (← whole? v).getD 0
  return evenAtMost (if n ≤ 0 then default else n)

private def evenDouble (x : Double) : Value :=
  let isEven := match x with
    | .finite value => (value / 2).den == 1
    | x => x.eq .zero
  let even := if isEven then x else x.sub (Double.round 1)
  if (Double.round 2).lt even then .real even else .int 2

private def evenDecimal (d : Decimal) : Except Decimal.Signal Value :=
  match d with
  | .finite _ coefficient exponent => do
    let _ ← Decimal.times 2 coefficient exponent
    let even ← if Decimal.isMultiple 2 coefficient exponent then pure d else d.sub (.ofInt 1)
    return if ← (Decimal.ofInt 2).lt even then .decimal even else .int 2
  | _ => .error .invalidOperation

/-- A dimension whose default is a number of any kind, which it keeps. The default need be none
if it is not used. -/
def dimensionOr (v default : Value) : Except Error Value := do
  let n := (← whole? v).getD 0
  if n ≤ 0 then
    match default with
    | .bool b => return .int (evenAtMost (if b then 1 else 0))
    | .int n => return .int (evenAtMost n)
    | .real x => return evenDouble x
    | .decimal d => Value.ofSignal (evenDecimal d)
    | v => throw (.noOrder ">" v.kindName "int")
  else return .int (evenAtMost n)

/-- A frame rate: a positive whole number, the default if the value is none. -/
def frameRate (v : Value) : Except Error Int := do
  let n := (← whole? v).getD 0
  return if n ≤ 0 then defaultFps else n

theorem evenAtMost_even (n : Int) : evenAtMost n % 2 = 0 := by
  unfold evenAtMost
  split <;> omega

theorem two_le_evenAtMost (n : Int) : 2 ≤ evenAtMost n := by
  unfold evenAtMost
  omega

end Reel.Geometry
