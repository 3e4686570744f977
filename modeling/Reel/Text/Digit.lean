/-!
# Decimal digits of every script

A decimal digit is any character with a decimal value, in any script; each script keeps its
ten digits at ten consecutive code points. Numbers in timelines may be written in any of them.
Hexadecimal digits are those of Latin script, in either case.
-/
namespace Reel.Text

/-- The code points of the zeros, ascending. -/
def zeros : List Nat :=
  [
    48, 1632, 1776, 1984, 2406, 2534, 2662, 2790, 2918, 3046, 3174, 3302, 3430, 3558, 3664, 3792,
    3872, 4160, 4240, 6112, 6160, 6470, 6608, 6784, 6800, 6992, 7088, 7232, 7248, 42528, 43216,
    43264, 43472, 43504, 43600, 44016, 65296, 66720, 68912, 69734, 69872, 69942, 70096, 70384,
    70736, 70864, 71248, 71360, 71472, 71904, 72016, 72784, 73040, 73120, 92768, 92864, 93008,
    120782, 120792, 120802, 120812, 120822, 123200, 123632, 125264, 130032
  ]

private def digitAmong : List Nat → Nat → Option Nat
  | [], _ => none
  | start :: rest, n =>
    if n < start then none else if n < start + 10 then some (n - start) else digitAmong rest n

def digit? (c : Char) : Option Nat := digitAmong zeros c.toNat

/-- Whether the character is a decimal digit of some script. -/
def isDecimal (c : Char) : Bool := (digit? c).isSome

def hexDigit? (c : Char) : Option Nat :=
  if c.isDigit then some (c.toNat - '0'.toNat)
  else if 'a' ≤ c ∧ c ≤ 'f' then some (c.toNat - 'a'.toNat + 10)
  else if 'A' ≤ c ∧ c ≤ 'F' then some (c.toNat - 'A'.toNat + 10)
  else none

def ofHexadecimal? (digits : List Char) : Option Nat :=
  (digits.mapM hexDigit?).map fun values => values.foldl (fun n v => 16 * n + v) 0

end Reel.Text
