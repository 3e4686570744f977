import Reel.Error
import Reel.Value.Key

/-!
# Numbers in values

How a value is taken as a number: true and false as one and zero, texts by reading them, the
absent value and containers not at all.
-/
namespace Reel.Value

private def ofBytes (content : List UInt8) : String :=
  String.ofList (content.map fun b => Char.ofNat b.toNat)

def doubleOfDecimal : Decimal → Except Error Double
  | .finite negative coefficient exponent =>
    .ok (Double.ofNumeral { negative, coefficient, exponent })
  | .infinite negative => .ok (.infinite negative)
  | .nan _ true _ => .error (.unreadable "cannot convert signaling NaN to float")
  | .nan _ false _ => .ok .nan

def toDouble : Value → Except Error Double
  | .bool b => .ok (Double.round (if b then 1 else 0))
  | .int n =>
    match Double.ofInt? n with
    | some x => .ok x
    | none => .error (.outOfRange "int too large to convert to float")
  | .real x => .ok x
  | .decimal d => doubleOfDecimal d
  | .text s => readDouble (.text s) (Double.read? s)
  | .bytes content =>
    readDouble (.bytes content)
      (if content.all (· < 128) then Double.read? (ofBytes content) else none)
  | v => .error (.wrongKind
    ("float() argument must be a string or a real number, not '" ++ v.kindName ++ "'"))
where
  readDouble (given : Value) : Option Double → Except Error Double
    | some x => .ok x
    | none => .error (.unreadable ("could not convert string to float: " ++ given.quoted))

/-- The value as a double, the empty, the zero and the absent as zero. -/
def toDoubleOrZero (v : Value) : Except Error Double :=
  if v.truthy then v.toDouble else .ok .zero

/-- The value as a double where an operation combines it with one; decimals do not mix with
doubles. -/
def toTerm (operation : String) : Value → Except Error Double
  | .bool b => (Value.bool b).toDouble
  | .int n => (Value.int n).toDouble
  | .real x => .ok x
  | v => .error (.noOperands operation "float" v.kindName)

/-- The largest exponent of a decimal that is written out as a whole number. -/
private def wholeExponentLimit : Int := 1000000

/-- The value as a whole number, fractions cut off. -/
def toWhole : Value → Except Error Int
  | .bool b => .ok (if b then 1 else 0)
  | .int n => .ok n
  | .real .nan => .error (.unreadable "cannot convert float NaN to integer")
  | .real x =>
    match x.truncate? with
    | some n => .ok n
    | none => .error (.outOfRange "cannot convert float infinity to integer")
  | .decimal (.finite negative coefficient exponent) =>
    if coefficient ≠ 0 ∧ wholeExponentLimit < exponent then
      .error (.outOfRange "cannot convert a number with too many digits to integer")
    else
      let size :=
        if 0 ≤ exponent then Decimal.withZeros coefficient exponent.toNat
        else if Decimal.digitCount coefficient < (-exponent).toNat then 0
        else coefficient / Nat.pow 10 (-exponent).toNat
      .ok (if negative then -(size : Int) else size)
  | .decimal (.infinite _) => .error (.outOfRange "cannot convert Infinity to integer")
  | .decimal (.nan ..) => .error (.unreadable "cannot convert NaN to integer")
  | .text s => readWhole (.text s) (Numeral.readGroupedWhole? s)
  | .bytes content =>
    readWhole (.bytes content)
      (if content.all (· < 128) then Numeral.readGroupedWhole? (ofBytes content) else none)
  | v => .error (.wrongKind ("int() argument must be a string, a bytes-like object or a real " ++
      "number, not '" ++ v.kindName ++ "'"))
where
  readWhole (given : Value) : Option Int → Except Error Int
    | some n => .ok n
    | none => .error (.unreadable ("invalid literal for int() with base 10: " ++ given.quoted))

def ofSignal {α : Type} : Except Decimal.Signal α → Except Error α
  | .ok x => .ok x
  | .error signal => .error (.decimal signal)

/-- Whether a number is zero or less. The not-a-number among the doubles is not; one among the
decimals cannot be compared. -/
def isAtMostZero : Value → Except Error Bool
  | .bool b => .ok !b
  | .int n => .ok (decide (n ≤ 0))
  | .real x => .ok (x.lt .zero || x.eq .zero)
  | .decimal d => (ofSignal ((Decimal.ofInt 0).lt d)).map (!·)
  | v => .error (.noOrder "<=" v.kindName "int")

/-- Whether the value is a number other than zero, or no number. -/
def isNotZero : Value → Except Error Bool
  | .decimal (.nan _ true _) => .error (.decimal .invalidOperation)
  | v => .ok (v.magnitude? != some (.ofDigits false 0 0))

def successor : Value → Except Error Value
  | .bool b => .ok (.int (if b then 2 else 1))
  | .int n => .ok (.int (n + 1))
  | .real x => .ok (.real (x.add (Double.round 1)))
  | .decimal d => (ofSignal (d.add (.ofInt 1))).map .decimal
  | .text _ => .error (.wrongKind "can only concatenate str (not \"int\") to str")
  | .list _ => .error (.wrongKind "can only concatenate list (not \"int\") to list")
  | .bytes _ => .error (.wrongKind "can't concat int to bytes")
  | v => .error (.noOperands "+" v.kindName "int")

def toFixed (places : Nat) : Value → Except Error String
  | .decimal d => .ok (d.fixed places)
  | .text _ => .error (.unreadable "Unknown format code 'f' for object of type 'str'")
  | .bool b => (Value.bool b).toDouble.map (Double.fixed places)
  | .int n => (Value.int n).toDouble.map (Double.fixed places)
  | .real x => .ok (x.fixed places)
  | v => .error (.wrongKind ("unsupported format string passed to " ++ v.kindName ++ ".__format__"))

end Reel.Value
