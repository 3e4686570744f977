import Reel.Number.Shortest
import Reel.Number.Decimal

/-!
# Values as they are written

Project and settings files, and the callers that fill a timeline, hold values of any kind. This
is the one type for them; everything else in the library has a type of its own, and a value is
turned into it where its meaning is known. What is only handed on stays a value.
-/
namespace Reel

/-- A value of a kind that nothing is done with but to show it, such as a moment or a set: what
is seen of it from outside. -/
structure Thing where
  kind : String
  /-- The name of the kind without that of the family it belongs to. -/
  bareKind : String
  shown : String
  /-- How it is written inside a list or a mapping. -/
  quoted : String
  truthy : Bool := true
  isKey : Bool := true
  /-- Whether it can be shown. -/
  isLegible : Bool := true
  /-- What is empty can be shown. -/
  legible_of_empty : truthy = false → isLegible = true := by simp
  deriving Repr, DecidableEq

/-- A value of a file or of a caller. A mapping keeps its entries in order, keys of any kind. -/
inductive Value where
  | null
  | bool (b : Bool)
  | int (n : Int)
  | real (x : Double)
  | decimal (d : Decimal)
  | text (s : String)
  | bytes (content : List UInt8)
  | date (year month day : Nat)
  | list (items : List Value)
  | map (entries : List (Value × Value))
  | other (thing : Thing)
  deriving Repr, Inhabited

namespace Value

instance : Coe String Value := ⟨.text⟩

def words (texts : List String) : List Value := texts.map .text

def texts (items : List String) : Value := .list (words items)

def record (fields : List (String × Value)) : Value :=
  .map (fields.map fun (name, value) => (.text name, value))

mutual

/-- Whether two values are written alike in every part. -/
def isSame : Value → Value → Bool
  | .null, .null => true
  | .bool a, .bool b => a == b
  | .int a, .int b => a == b
  | .real a, .real b => decide (a = b)
  | .decimal a, .decimal b => decide (a = b)
  | .text a, .text b => a == b
  | .bytes a, .bytes b => a == b
  | .date y m d, .date y' m' d' => y == y' && m == m' && d == d'
  | .list a, .list b => areSame a b
  | .map a, .map b => areSameEntries a b
  | .other a, .other b => decide (a = b)
  | _, _ => false

def areSame : List Value → List Value → Bool
  | [], [] => true
  | a :: as, b :: bs => isSame a b && areSame as bs
  | _, _ => false

def areSameEntries : List (Value × Value) → List (Value × Value) → Bool
  | [], [] => true
  | (k, v) :: as, (l, w) :: bs => isSame k l && isSame v w && areSameEntries as bs
  | _, _ => false

end

mutual

theorem isSame_iff : ∀ a b : Value, isSame a b = true ↔ a = b
  | .list a, .list b => by simp [isSame, areSame_iff a b]
  | .map a, .map b => by simp [isSame, areSameEntries_iff a b]
  | .date .., b => by cases b <;> simp [isSame, and_assoc]
  | .null, b | .bool _, b | .int _, b | .real _, b | .decimal _, b | .text _, b | .bytes _, b
  | .other _, b => by
    cases b <;> simp [isSame]
  | .list _, .null | .list _, .bool _ | .list _, .int _ | .list _, .real _ | .list _, .decimal _
  | .list _, .text _ | .list _, .bytes _ | .list _, .date .. | .list _, .map _
  | .list _, .other _ => by simp [isSame]
  | .map _, .null | .map _, .bool _ | .map _, .int _ | .map _, .real _ | .map _, .decimal _
  | .map _, .text _ | .map _, .bytes _ | .map _, .date .. | .map _, .list _
  | .map _, .other _ => by simp [isSame]

theorem areSame_iff : ∀ as bs : List Value, areSame as bs = true ↔ as = bs
  | [], [] => by simp [areSame]
  | [], _ :: _ => by simp [areSame]
  | _ :: _, [] => by simp [areSame]
  | a :: as, b :: bs => by simp [areSame, isSame_iff a b, areSame_iff as bs]

theorem areSameEntries_iff :
    ∀ as bs : List (Value × Value), areSameEntries as bs = true ↔ as = bs
  | [], [] => by simp [areSameEntries]
  | [], _ :: _ => by simp [areSameEntries]
  | _ :: _, [] => by simp [areSameEntries]
  | (k, v) :: as, (l, w) :: bs => by
    simp [areSameEntries, isSame_iff k l, isSame_iff v w, areSameEntries_iff as bs]

end

instance : DecidableEq Value := fun a b => decidable_of_iff _ (isSame_iff a b)

/-- Whether the value counts as true: all but the empty, the zero and the absent. -/
def truthy : Value → Bool
  | .null => false
  | .bool b => b
  | .int n => n != 0
  | .real x => !x.eq .zero
  | .decimal d => !d.isZero
  | .text s => s != ""
  | .bytes content => !content.isEmpty
  | .date .. => true
  | .list items => !items.isEmpty
  | .map entries => !entries.isEmpty
  | .other thing => thing.truthy

def isNull : Value → Bool
  | .null => true
  | _ => false

def text? : Value → Option String
  | .text s => some s
  | _ => none

/-- The value, or another one where it is empty, zero or absent. -/
def orElse (v other : Value) : Value := if v.truthy then v else other

/-- How the kind of a value is called in messages. -/
def kindName : Value → String
  | .null => "NoneType"
  | .bool _ => "bool"
  | .int _ => "int"
  | .real _ => "float"
  | .decimal _ => "decimal.Decimal"
  | .text _ => "str"
  | .bytes _ => "bytes"
  | .date .. => "datetime.date"
  | .list _ => "list"
  | .map _ => "dict"
  | .other thing => thing.kind

/-- The name of a kind without that of the family it belongs to. -/
def bareKindName : Value → String
  | .decimal _ => "Decimal"
  | .date .. => "date"
  | .other thing => thing.bareKind
  | v => v.kindName

end Value

end Reel
