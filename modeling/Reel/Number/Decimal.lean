import Reel.Number.Numeral
import Reel.Number.Rounding

/-!
# Decimal numbers

A decimal keeps the coefficient and exponent it was written with. Reading is exact; sums and
products keep 28 significant digits, a tie going to the even neighbour, within exponents of at
most six digits. Two signals stop a computation: an invalid operation and an overflow.
-/
namespace Reel

/-- A decimal number with its exponent, or one of the special values. -/
inductive Decimal where
  | finite (negative : Bool) (coefficient : Nat) (exponent : Int)
  | infinite (negative : Bool)
  | nan (negative signaling : Bool) (payload : Nat)
  deriving Repr, DecidableEq

namespace Decimal

/-- Why an operation on decimals has no result. -/
inductive Signal where
  | invalidOperation
  | overflow
  deriving Repr, DecidableEq

/-- The significant digits that sums and products keep. -/
def precision : Nat := 28

/-- The largest exponent of the leading digit of a result. -/
def topExponent : Int := 999999

/-- The smallest exponent of the last digit of a result. -/
def bottomExponent : Int := -1000026

/-- The exponents that a decimal may be read with: the leading digit's at most, the last one's
at least. -/
def readTop : Int := 999999999999999999
def readBottom : Int := -1999999999999999997

def ofInt (n : Int) : Decimal := .finite (decide (n < 0)) n.natAbs 0

def digitCount (coefficient : Nat) : Nat := Rounding.digitCount 10 coefficient

def withZeros (digits zeros : Nat) : Nat := if digits = 0 then 0 else digits * Nat.pow 10 zeros

theorem withZeros_eq (digits zeros : Nat) : withZeros digits zeros = digits * Nat.pow 10 zeros := by
  unfold withZeros
  split
  · simp_all
  · rfl

/-- The number it stands for, if it is finite. -/
def toRat? : Decimal → Option Rat
  | .finite negative coefficient exponent =>
    let size := Rounding.scaled 10 coefficient exponent
    some (if negative then -size else size)
  | _ => none

/-- As much of the digits behind a NaN as a result keeps. -/
def keptPayload (payload : Nat) : Nat := payload % Nat.pow 10 precision

def isZero : Decimal → Bool
  | .finite _ coefficient _ => coefficient == 0
  | _ => false

/-- The coefficient at a larger last place, rounded; far places leave nothing. -/
def shiftRight (tie : Rounding.Tie) (coefficient places : Nat) : Nat :=
  if digitCount coefficient < places then 0
  else Rounding.nearest tie coefficient (Nat.pow 10 places)

/-- Rounds a result to the precision and the range of exponents. -/
def fit (negative : Bool) (coefficient : Nat) (exponent : Int) : Except Signal Decimal :=
  if coefficient = 0 then
    .ok (.finite negative 0 (max bottomExponent (min topExponent exponent)))
  else
    let place := max (exponent + digitCount coefficient - precision) bottomExponent
    let (coefficient, exponent) :=
      if exponent < place then (shiftRight .toEven coefficient (place - exponent).toNat, place)
      else (coefficient, exponent)
    let (coefficient, exponent) :=
      if precision < digitCount coefficient then (coefficient / 10, exponent + 1)
      else (coefficient, exponent)
    if topExponent < exponent + digitCount coefficient - 1 then .error .overflow
    else .ok (.finite negative coefficient exponent)

/-- The special values pass through an operation: a signaling one stops it, a quiet one is its
result, the first operand's before the second's. -/
def special? : Decimal → Decimal → Option (Except Signal Decimal)
  | .nan _ true _, _ => some (.error .invalidOperation)
  | _, .nan _ true _ => some (.error .invalidOperation)
  | .nan negative false payload, _ => some (.ok (.nan negative false (keptPayload payload)))
  | _, .nan negative false payload => some (.ok (.nan negative false (keptPayload payload)))
  | _, _ => none

def mul (x y : Decimal) : Except Signal Decimal :=
  match special? x y with
  | some result => result
  | none =>
    match x, y with
    | .finite a m i, .finite b n j => fit (a != b) (m * n) (i + j)
    | .infinite a, .infinite b => .ok (.infinite (a != b))
    | .infinite a, .finite b n _ =>
      if n = 0 then .error .invalidOperation else .ok (.infinite (a != b))
    | .finite a m _, .infinite b =>
      if m = 0 then .error .invalidOperation else .ok (.infinite (a != b))
    | _, _ => .error .invalidOperation

/-- A coefficient as a signed number at a smaller last place. -/
def aligned (negative : Bool) (coefficient : Nat) (exponent place : Int) : Int :=
  let size : Int := withZeros coefficient (exponent - place).toNat
  if negative then -size else size

/-- Adds two finite numbers whose last places are near enough to be written out. -/
def addAligned (a : Bool) (m : Nat) (i : Int) (b : Bool) (n : Nat) (j : Int) :
    Except Signal Decimal :=
  let place := min i j
  let sum := aligned a m i place + aligned b n j place
  fit (if sum = 0 then a && b else decide (sum < 0)) sum.natAbs place

/-- Adds two finite numbers. One that lies below all places of the result only decides the
direction of rounding, so a single unit far enough below stands for it. -/
def addFinite (a : Bool) (m : Nat) (i : Int) (b : Bool) (n : Nat) (j : Int) :
    Except Signal Decimal :=
  if m = 0 then
    addAligned a 0 (if n = 0 then i else max i (j - precision - 1)) b n j
  else if n = 0 then
    addAligned a m i b 0 (max j (i - precision - 1))
  else if j ≤ i then
    let floor := i + min (-1) ((digitCount m : Int) - precision - 2)
    if digitCount n + j - 1 < floor then addAligned a m i b 1 floor
    else addAligned a m i b n j
  else
    let floor := j + min (-1) ((digitCount n : Int) - precision - 2)
    if digitCount m + i - 1 < floor then addAligned a 1 floor b n j
    else addAligned a m i b n j

def add (x y : Decimal) : Except Signal Decimal :=
  match special? x y with
  | some result => result
  | none =>
    match x, y with
    | .finite a m i, .finite b n j => addFinite a m i b n j
    | .infinite a, .infinite b =>
      if a = b then .ok (.infinite a) else .error .invalidOperation
    | .infinite a, _ => .ok (.infinite a)
    | _, .infinite b => .ok (.infinite b)
    | _, _ => .error .invalidOperation

def neg : Decimal → Decimal
  | .finite negative coefficient exponent => .finite (!negative) coefficient exponent
  | .infinite negative => .infinite (!negative)
  | x => x

def sub (x y : Decimal) : Except Signal Decimal := x.add y.neg

def topPlace (coefficient : Nat) (exponent : Int) : Int := exponent + digitCount coefficient - 1

/-- Whether the first of two numbers that are not zero is the smaller one, signs aside. -/
private def isSmaller (m : Nat) (i : Int) (n : Nat) (j : Int) : Bool :=
  if topPlace m i ≠ topPlace n j then decide (topPlace m i < topPlace n j)
  else
    let place := min i j
    decide (withZeros m (i - place).toNat < withZeros n (j - place).toNat)

/-- Strictly less; no NaN can be compared. -/
def lt : Decimal → Decimal → Except Signal Bool
  | .nan .., _ | _, .nan .. => .error .invalidOperation
  | .infinite a, .infinite b => .ok (a && !b)
  | .infinite a, _ => .ok a
  | _, .infinite b => .ok !b
  | .finite a m i, .finite b n j =>
    .ok (if m = 0 then n != 0 && !b
      else if n = 0 then a
      else if a != b then a
      else if a then isSmaller n j m i
      else isSmaller m i n j)

/-- How many times a positive number goes into a finite one, signs aside. A count of more digits
than the precision is refused. -/
def times (n coefficient : Nat) (exponent : Int) : Except Signal Nat :=
  let lead := topPlace coefficient exponent - topPlace n 0
  if coefficient = 0 ∨ lead < -1 then .ok 0
  else if precision < lead then .error .invalidOperation
  else
    let count := withZeros coefficient exponent.toNat / (n * Nat.pow 10 (-exponent).toNat)
    if count < Nat.pow 10 precision then .ok count else .error .invalidOperation

/-- Whether a finite number is a multiple of a positive one. -/
def isMultiple (n coefficient : Nat) (exponent : Int) : Bool :=
  if 0 ≤ exponent then withZeros coefficient exponent.toNat % n == 0
  else if digitCount coefficient ≤ (-exponent).toNat then coefficient == 0
  else coefficient % (n * Nat.pow 10 (-exponent).toNat) == 0

/-- The number at a given number of decimal places, a tie going away from zero. More digits
than the precision holds, and infinities, have no such form. -/
def quantize (places : Nat) : Decimal → Except Signal Decimal
  | .nan _ true _ => .error .invalidOperation
  | .nan negative false payload => .ok (.nan negative false (keptPayload payload))
  | .infinite _ => .error .invalidOperation
  | .finite negative coefficient exponent =>
    if coefficient = 0 then .ok (.finite negative 0 (-places))
    else
      let shift := exponent + places
      if (precision : Int) < digitCount coefficient + shift then .error .invalidOperation
      else
        let result :=
          if 0 ≤ shift then withZeros coefficient shift.toNat
          else shiftRight .awayFromZero coefficient (-shift).toNat
        if precision < digitCount result then .error .invalidOperation
        else .ok (.finite negative result (-places))

/-- Reads the digits after `nan` as a payload. -/
def readPayload? (negative signaling : Bool) (digits : List Char) : Option Decimal :=
  if digits.all Char.isDigit then some (.nan negative signaling (Numeral.ofDigits digits))
  else none

/-- The decimal that a numeral stands for, if its exponents are not too far out. -/
def ofNumeral? (x : Numeral) : Option Decimal :=
  let top := x.exponent + (if x.coefficient = 0 then 0 else (digitCount x.coefficient : Int) - 1)
  if readTop < top || x.exponent < readBottom then none
  else some (.finite x.negative x.coefficient x.exponent)

/-- Plain characters of a decimal's text: blanks at the ends and all underscores dropped. -/
def plain? (cs : List Char) : Option (List Char) :=
  ((Text.trim Text.isBlank cs).filter (· != '_')).mapM fun c =>
    if 0 < c.toNat && c.toNat < 128 then some c else (Text.digit? c).map Nat.digitChar

/-- What follows a word in small letters, whatever the case of the text. -/
def startsWith? (word : String) (cs : List Char) : Option (List Char) :=
  let size := word.length
  if (cs.take size).map Char.toLower = word.toList then some (cs.drop size) else none

/-- Reads a decimal exactly: a numeral in any script, or a signed `inf`, `infinity`, `nan` or
`snan` in either case, the last two with an optional row of digits. -/
def read? (s : String) : Option Decimal :=
  (plain? s.toList).bind fun cs =>
    let (negative, body) := Numeral.splitSign cs
    match startsWith? "nan" body, startsWith? "snan" body with
    | some digits, _ => readPayload? negative false digits
    | none, some digits => readPayload? negative true digits
    | none, none =>
      let word := body.map Char.toLower
      if word = "inf".toList || word = "infinity".toList then some (.infinite negative)
      else (Numeral.read? cs).bind ofNumeral?

/-- Digits with a point that leaves `places` of them behind it, zeros filled in at the front. -/
def pointed (digits : List Char) (places : Nat) : List Char :=
  if places = 0 then digits
  else
    let padded := List.replicate (places + 1 - digits.length) '0' ++ digits
    padded.take (padded.length - places) ++ '.' :: padded.drop (padded.length - places)

def signed (negative : Bool) (body : List Char) : String :=
  String.ofList (if negative then '-' :: body else body)

/-- The text that shows the coefficient and the exponent: positional while the exponent is not
positive and the leading digit at most six places below the point. -/
def text : Decimal → String
  | .infinite negative => signed negative "Infinity".toList
  | .nan negative signaling payload =>
    signed negative ((if signaling then "sNaN" else "NaN").toList ++
      (if payload = 0 then [] else Nat.toDigits 10 payload))
  | .finite negative coefficient exponent =>
    let digits := Nat.toDigits 10 coefficient
    let top := exponent + digits.length - 1
    signed negative <|
      if exponent ≤ 0 && -6 ≤ top then pointed digits (-exponent).toNat
      else
        pointed digits (digits.length - 1) ++
          ['E', if top < 0 then '-' else '+'] ++ Nat.toDigits 10 top.natAbs

/-- The positional text of a number whose exponent is not positive. -/
def plainText : Decimal → String
  | .finite negative coefficient exponent =>
    signed negative (pointed (Nat.toDigits 10 (withZeros coefficient exponent.toNat))
      (-exponent).toNat)
  | x => x.text

/-- The positional text with a number of decimal places, a tie going to the even neighbour. -/
def fixed (places : Nat) : Decimal → String
  | .finite negative coefficient exponent =>
    let shift := exponent + places
    let units :=
      if 0 ≤ shift then withZeros coefficient shift.toNat
      else shiftRight .toEven coefficient (-shift).toNat
    signed negative (pointed (Nat.toDigits 10 units) places)
  | x => x.text

end Decimal

end Reel
