import Reel.Error

/-!
# Spelling values out

Where a value is needed as a text, a whole number in it may not have more digits than can be read
back. A longer one, however deep it lies in the value, makes the value unreadable.
-/
namespace Reel.Value

/-- What is said about a whole number with too many digits, with a fact about it. -/
def tooLong (fact : String) : String :=
  "Exceeds the limit (" ++ toString Numeral.wholeDigitLimit ++
    " digits) for integer string conversion" ++ fact ++
    "; use sys.set_int_max_str_digits() to increase the limit"

mutual

/-- Whether every whole number in the value is short enough to be written. -/
def isLegible : Value → Bool
  | .int n => decide (n.natAbs < Nat.pow 10 Numeral.wholeDigitLimit)
  | .list items => areLegible items
  | .map entries => haveLegible entries
  | .other thing => thing.isLegible
  | _ => true

def areLegible : List Value → Bool
  | [] => true
  | item :: rest => isLegible item && areLegible rest

def haveLegible : List (Value × Value) → Bool
  | [] => true
  | (key, value) :: rest => isLegible key && isLegible value && haveLegible rest

end

def toText (v : Value) : Except Error String :=
  if v.isLegible then .ok v.shown else .error (.unreadable (tooLong ""))

@[simp] theorem toText_text (s : String) : (Value.text s).toText = .ok s := rfl

/-- The value between quotes, as it is written inside a list. -/
def toQuoted (v : Value) : Except Error String :=
  if v.isLegible then .ok v.quoted else .error (.unreadable (tooLong ""))

/-- A value as a path that further texts are put below; only texts are. -/
def toPath : Value → Except Error String
  | .text path => .ok path
  | .bytes _ => .error (.wrongKind "Can't mix strings and bytes in path components")
  | v => .error (.wrongKind ("expected str, bytes or os.PathLike object, not " ++ v.bareKindName))

@[simp] theorem toPath_text (s : String) : (Value.text s).toPath = .ok s := rfl

/-- What a value holds, one after the other: the items of a list, the characters of a text, the
numbers of bytes and the keys of a mapping. -/
def toItems : Value → Except Error (List Value)
  | .list items => .ok items
  | .text s => .ok (s.toList.map fun c => .text c.toString)
  | .bytes content => .ok (content.map fun b => .int b.toNat)
  | .map entries => .ok (entries.map (·.1))
  | v => .error (.wrongKind ("'" ++ v.kindName ++ "' object is not iterable"))

/-- What a value holds; the empty, the zero and the absent hold nothing. -/
def toItemsOrNone (v : Value) : Except Error (List Value) :=
  if v.truthy then v.toItems else .ok []

end Reel.Value
