import Reel.Value

/-!
# Keys of mappings

Two keys name one entry if they are equal: as texts, bytes or dates, or as numbers of whatever
kind, true and false being one and zero. A number is compared by its digits without zeros at
their end and by its exponent, so that no power of ten is ever written out. An entry that is set
again keeps its key and its place.
-/
namespace Reel

/-- A number by sign, digits and exponent of ten. Zero is not negative, and the digits of any
other number do not end in a zero. -/
inductive Magnitude where
  | finite (negative : Bool) (digits : Nat) (exponent : Int)
  | infinite (negative : Bool)
  deriving Repr, DecidableEq

namespace Magnitude

/-- Moves the zeros at the end of the digits into the exponent. -/
def dropZeros (digits : Nat) (exponent : Int) : Nat × Int :=
  if h : digits ≠ 0 ∧ digits % 10 = 0 then dropZeros (digits / 10) (exponent + 1)
  else (digits, exponent)
termination_by digits
decreasing_by omega

/-- The number `± digits · 10 ^ exponent`. -/
def ofDigits (negative : Bool) (digits : Nat) (exponent : Int) : Magnitude :=
  if digits = 0 then .finite false 0 0
  else
    let (digits, exponent) := dropZeros digits exponent
    .finite negative digits exponent

/-- A binary fraction has as many decimal places as binary ones. -/
def ofBinary (x : Rat) : Magnitude :=
  let places := Rounding.digitCount 2 x.den - 1
  ofDigits (decide (x < 0)) (x.num.natAbs * Nat.pow 5 places) (-places)

end Magnitude

namespace Value

/-- The number, if the value is one and is equal to itself. -/
def magnitude? : Value → Option Magnitude
  | .bool b => some (.ofDigits false (if b then 1 else 0) 0)
  | .int n => some (.ofDigits (decide (n < 0)) n.natAbs 0)
  | .real .nan => none
  | .real (.infinite negative) => some (.infinite negative)
  | .real .negZero => some (.ofDigits false 0 0)
  | .real (.finite x) => some (.ofBinary x)
  | .decimal (.finite negative coefficient exponent) =>
    some (.ofDigits negative coefficient exponent)
  | .decimal (.infinite negative) => some (.infinite negative)
  | _ => none

/-- Whether the value can be a key; lists, mappings and a signaling NaN cannot. -/
def isKey : Value → Bool
  | .list _ => false
  | .map _ => false
  | .decimal (.nan _ true _) => false
  | .other thing => thing.isKey
  | _ => true

def sameKey : Value → Value → Bool
  | .null, .null => true
  | .text a, .text b => a == b
  | .bytes a, .bytes b => a == b
  | .date y m d, .date y' m' d' => y == y' && m == m' && d == d'
  | .other a, .other b => decide (a = b)
  | a, b =>
    match a.magnitude?, b.magnitude? with
    | some x, some y => x == y
    | _, _ => false

/-- The entry under a key; the last of several counts. -/
def lookup? (key : Value) : List (Value × Value) → Option Value
  | [] => none
  | (k, v) :: rest =>
    match lookup? key rest with
    | some found => some found
    | none => if sameKey k key then some v else none

/-- Sets an entry: a new one at the end, an old one where it stands. `same` tells which keys name
one entry. -/
def insertBy (same : Value → Value → Bool) (key value : Value) :
    List (Value × Value) → List (Value × Value)
  | [] => [(key, value)]
  | (k, v) :: rest =>
    if same k key then (k, value) :: rest else (k, v) :: insertBy same key value rest

/-- The mapping in which entries are set one after the other, if all their keys can be keys. -/
def mapOf? (entries : List (Value × Value)) : Option Value :=
  if entries.all fun entry => entry.1.isKey then
    some (.map (entries.foldl (fun set (k, v) => insertBy sameKey k v set) []))
  else none

mutual

/-- Whether two values are equal: numbers of every kind by their size, lists item by item, and
mappings entry by entry in any order. -/
def isEqual : Value → Value → Bool
  | .list a, .list b => areEqual a b
  | .map a, .map b => a.length == b.length && haveEqual a b
  | a, b => sameKey a b

/-- Whether two rows of values are equal item by item. -/
def areEqual : List Value → List Value → Bool
  | [], [] => true
  | a :: as, b :: bs => isEqual a b && areEqual as bs
  | _, _ => false

/-- Whether every entry is, with an equal value, among the others. -/
def haveEqual : List (Value × Value) → List (Value × Value) → Bool
  | [], _ => true
  | (k, v) :: rest, others =>
    (others.any fun (l, w) => sameKey l k && isEqual v w) && haveEqual rest others

end

end Value

end Reel
