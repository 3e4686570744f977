import Reel.Text.Blank
import Reel.Text.Digit

/-!
# Numerals

A numeral is a signed coefficient times a power of ten, as written: an optional sign, digits
with an optional point, an optional exponent. Whole numbers and decimal fractions of every kind
are read through it. Underscores may group digits where the reader of the numeral allows them.
-/
namespace Reel

/-- The number `± coefficient · 10 ^ exponent` as it was written. -/
structure Numeral where
  negative : Bool
  coefficient : Nat
  exponent : Int
  deriving Repr, DecidableEq

namespace Numeral

/-- Takes an optional sign off the front; true means minus. -/
def splitSign : List Char → Bool × List Char
  | '-' :: rest => (true, rest)
  | '+' :: rest => (false, rest)
  | rest => (false, rest)

def ofDigits (digits : List Char) : Nat := Nat.ofDigitChars 10 digits 0

/-- Reads a signed whole number written with plain digits only. -/
def readWhole? (cs : List Char) : Option Int :=
  let (negative, digits) := splitSign cs
  if digits.isEmpty || !digits.all Char.isDigit then none
  else some (if negative then -(ofDigits digits : Int) else ofDigits digits)

/-- Reads what stands behind the digits of a numeral: nothing, or a marked exponent. -/
def readExponent? : List Char → Option Int
  | [] => some 0
  | mark :: rest => if mark = 'e' ∨ mark = 'E' then readWhole? rest else none

/-- Reads a numeral with plain digits; at least one digit stands before the exponent. -/
def read? (cs : List Char) : Option Numeral :=
  let (negative, body) := splitSign cs
  let whole := body.takeWhile Char.isDigit
  let (fraction, rest) :=
    match body.dropWhile Char.isDigit with
    | '.' :: tail => (tail.takeWhile Char.isDigit, tail.dropWhile Char.isDigit)
    | tail => ([], tail)
  if whole.isEmpty && fraction.isEmpty then none
  else (readExponent? rest).map fun exponent =>
    { negative, coefficient := ofDigits (whole ++ fraction)
      exponent := exponent - fraction.length }

/-- Writes digits of every script as plain digits and wide blanks as spaces; any other character
beyond the basic alphabet makes the text no number. -/
def plain? (cs : List Char) : Option (List Char) :=
  cs.mapM fun c =>
    if c.toNat < 128 then some c
    else if Text.isBlank c then some ' '
    else (Text.digit? c).map Nat.digitChar

/-- Drops underscores that stand between two digits; any other underscore is refused. -/
def ungroup? (cs : List Char) : Option (List Char) := go false cs
where
  go (afterDigit : Bool) : List Char → Option (List Char)
    | [] => some []
    | '_' :: c :: rest =>
      if afterDigit && c.isDigit then (go true rest).map (c :: ·) else none
    | '_' :: [] => none
    | c :: rest => (go c.isDigit rest).map (c :: ·)

/-- A number's text in plain characters: blanks at the ends dropped, digits ungrouped. -/
def normalize? (cs : List Char) : Option (List Char) :=
  (plain? cs).bind fun plain => ungroup? (Text.trim Text.isPlainBlank plain)

def wholeDigitLimit : Nat := 4300

/-- Reads a whole number in any script, with blanks around it and digits grouped by single
underscores; more digits than the limit are refused. -/
def readGroupedWhole? (s : String) : Option Int :=
  (normalize? s.toList).bind fun cs =>
    if (cs.filter Char.isDigit).length > wholeDigitLimit then none else readWhole? cs

end Numeral

end Reel
