import Reel.Value.Number
import Reel.Value.Spelling
import Reel.Yaml.Problem

/-!
# Plain scalars

A scalar without quotes is an absent value, a truth value, a number or a date if it has the
form of one, and a text otherwise. Whole numbers may be binary, octal, hexadecimal or counted
in sixties; numbers with a point need a sign in their exponent.
-/
namespace Reel.Yaml

private def digitOrLow (c : Char) : Bool := c.isDigit || c == '_'

private def noLow (cs : List Char) : List Char := cs.filter (· != '_')

/-- Whether some digit is among the characters and nothing but digits and underscores. -/
private def isDigits (p : Char → Bool) (cs : List Char) : Bool :=
  !cs.isEmpty && cs.all fun c => p c || c == '_'

/-- Whether the characters are a digit followed by digits and underscores. -/
private def startsDigit (cs : List Char) : Bool :=
  (cs.head?.any Char.isDigit) && cs.all digitOrLow

/-- Whether the characters are one or two digits below sixty. -/
private def isSixtieth : List Char → Bool
  | [c] => c.isDigit
  | [tens, ones] => tens.isDigit && decide (tens ≤ '5') && ones.isDigit
  | _ => false

private def numeral (base : Nat) (cs : List Char) : Except Fault Nat :=
  let digits := noLow cs
  if digits.isEmpty then
    .error (.unreadable ("invalid literal for int() with base " ++ toString base ++ ": ''"))
  else .ok (digits.foldl (fun n c =>
    let v := if c.isDigit then c.toNat - '0'.toNat else c.toLower.toNat - 'a'.toNat + 10
    base * n + v) 0)

/-- A whole number in decimal digits; too many of them are refused. -/
private def decimalDigits (cs : List Char) : Except Fault Nat :=
  let digits := noLow cs
  if digits.length ≤ Numeral.wholeDigitLimit then .ok (Numeral.ofDigits digits)
  else .error (.unreadable (Value.tooLong (": value has " ++ toString digits.length ++ " digits")))

private def inSixties (parts : List (List Char)) : Except Fault Nat :=
  parts.foldlM (fun n part => return 60 * n + (← decimalDigits part)) 0

/-- A whole number, if the scalar has the form of one. A base mark without digits behind it has
the form but no value. -/
def whole? (cs : List Char) : Option (Except Fault Int) :=
  let (negative, body) := Numeral.splitSign cs
  let sign (n : Except Fault Nat) : Option (Except Fault Int) :=
    some (n.map fun n => if negative then -(n : Int) else n)
  match body with
  | ['0'] => sign (.ok 0)
  | '0' :: 'b' :: digits =>
    if isDigits (fun c => c == '0' || c == '1') digits then sign (numeral 2 digits) else none
  | '0' :: 'x' :: digits =>
    if isDigits (fun c => c.isDigit || ('a' ≤ c.toLower && c.toLower ≤ 'f')) digits then
      sign (numeral 16 digits)
    else none
  | '0' :: digits =>
    if isDigits (fun c => '0' ≤ c && c ≤ '7') digits then sign (numeral 8 ('0' :: digits))
    else none
  | _ =>
    match List.splitOn ':' body with
    | [] => none
    | first :: parts =>
      if startsDigit first && first.head? != some '0' && parts.all isSixtieth then
        sign (inSixties (first :: parts))
      else none

/-- Whether an exponent follows: a mark, a sign and digits; or nothing. -/
private def isExponent : List Char → Bool
  | [] => true
  | mark :: sign :: digits =>
    (mark == 'e' || mark == 'E') && (sign == '-' || sign == '+') && !digits.isEmpty &&
      digits.all Char.isDigit
  | _ => false

private def doubleOf (cs : List Char) : Double :=
  (Double.read? (String.ofList (noLow cs))).getD .nan

/-- Adds places of sixties, the lowest first; the weight of each place has to be a double. -/
private def addSixties (sum : Double) (weight : Int) : List Double → Except Fault Double
  | [] => .ok sum
  | place :: rest =>
    match Double.ofInt? weight with
    | some w => addSixties (sum.add (place.mul w)) (weight * 60) rest
    | none => .error (.outOfRange "int too large to convert to float")

/-- A number with a point counted in sixties; each place is one rounding away. -/
private def realInSixties (negative : Bool) (parts : List (List Char)) : Except Fault Double := do
  let sum ← addSixties .zero 1 (parts.reverse.map doubleOf)
  return (Double.round (if negative then -1 else 1)).mul sum

/-- A number with a point, if the scalar has the form of one. -/
def real? (cs : List Char) : Option (Except Fault Double) :=
  let (negative, body) := Numeral.splitSign cs
  let word := String.ofList body
  if word = ".inf" ∨ word = ".Inf" ∨ word = ".INF" then some (.ok (.infinite negative))
  else if String.ofList cs = ".nan" ∨ String.ofList cs = ".NaN" ∨ String.ofList cs = ".NAN" then
    some (.ok .nan)
  else
    let signed (x : Double) : Double := if negative then x.neg else x
    let whole := body.takeWhile fun c => c.isDigit || c == '_' || c == ':'
    let rest := body.dropWhile fun c => c.isDigit || c == '_' || c == ':'
    match rest with
    | '.' :: tail =>
      let fraction := tail.takeWhile digitOrLow
      let exponent := tail.dropWhile digitOrLow
      if whole.contains ':' then
        let parts := List.splitOn ':' whole
        if parts.head?.any startsDigit && (parts.drop 1).all isSixtieth && exponent.isEmpty then
          some (realInSixties negative (parts.dropLast ++
            [(parts.getLastD []) ++ '.' :: fraction]))
        else none
      else if isExponent exponent && (startsDigit whole ||
          (whole.isEmpty && cs.head? == some '.' && startsDigit fraction)) then
        some (.ok (signed (doubleOf body)))
      else none
    | _ => none

/-- A date, if the scalar has the form of one; a day that no calendar has has no value. -/
def date? : List Char → Option (Except Fault Value)
  | [y₁, y₂, y₃, y₄, '-', m₁, m₂, '-', d₁, d₂] =>
    if [y₁, y₂, y₃, y₄, m₁, m₂, d₁, d₂].all Char.isDigit then
      let year := Numeral.ofDigits [y₁, y₂, y₃, y₄]
      let month := Numeral.ofDigits [m₁, m₂]
      let day := Numeral.ofDigits [d₁, d₂]
      let leap := year % 4 == 0 && (year % 100 != 0 || year % 400 == 0)
      let last := if month = 2 then (if leap then 29 else 28)
        else if month = 4 ∨ month = 6 ∨ month = 9 ∨ month = 11 then 30 else 31
      some (if year = 0 then .error (.unreadable "year 0 is out of range")
        else if month = 0 ∨ 12 < month then .error (.unreadable "month must be in 1..12")
        else if day = 0 ∨ last < day then .error (.unreadable "day is out of range for month")
        else .ok (.date year month day))
    else none
  | _ => none

def trueWords : List String :=
  ["yes", "Yes", "YES", "true", "True", "TRUE", "on", "On", "ON"]

def falseWords : List String :=
  ["no", "No", "NO", "false", "False", "FALSE", "off", "Off", "OFF"]

def nullWords : List String := ["", "~", "null", "Null", "NULL"]

/-- A scalar of a kind that stands for no value. -/
def noValue (mark : Mark) (kind : String) : Fault :=
  .malformed
    { problem := "could not determine a constructor for the tag 'tag:yaml.org,2002:" ++ kind ++ "'"
      mark }

/-- The value of a scalar without quotes that stands at a place. The marks of merging and of
default values have no value of their own. -/
def plainValue (mark : Mark) (s : String) : Except Fault Value :=
  if nullWords.contains s then .ok .null
  else if trueWords.contains s then .ok (.bool true)
  else if falseWords.contains s then .ok (.bool false)
  else if s = "=" then .error (noValue mark "value")
  else if s = "<<" then .error (noValue mark "merge")
  else
    let cs := s.toList
    match real? cs, whole? cs, date? cs with
    | some x, _, _ => x.map .real
    | none, some n, _ => n.map .int
    | none, none, some d => d
    | none, none, none => .ok (.text s)

end Reel.Yaml
