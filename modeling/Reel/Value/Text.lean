import Reel.Value
import Reel.Text.Quoted

/-!
# Texts of values

A text stands for itself; inside lists and mappings it is quoted. Numbers, truth values and the
absent value have fixed spellings. Whole numbers are written out here however long they are.
-/
namespace Reel.Value

def commaSeparated (parts : List (List Char)) : List Char := List.intercalate [',', ' '] parts

private def wrap (opening : String) (body : List Char) (closing : String) : List Char :=
  opening.toList ++ body ++ closing.toList

private def padded (width n : Nat) : List Char :=
  let digits := Nat.toDigits 10 n
  List.replicate (width - digits.length) '0' ++ digits

mutual

/-- How the value is written inside a list or a mapping. -/
def quotedChars : Value → List Char
  | .null => "None".toList
  | .bool b => (if b then "True" else "False").toList
  | .int n => (toString n).toList
  | .real x => x.text.toList
  | .decimal d => wrap "Decimal('" d.text.toList "')"
  | .text s => Text.quotedChars s.toList
  | .bytes content => Text.quotedBytes content
  | .date year month day =>
    wrap "datetime.date(" (commaSeparated [(toString year).toList, (toString month).toList,
      (toString day).toList]) ")"
  | .list items => wrap "[" (commaSeparated (quotedItems items)) "]"
  | .map entries => wrap "\x7b" (commaSeparated (quotedEntries entries)) "\x7d"
  | .other thing => thing.quoted.toList

def quotedItems : List Value → List (List Char)
  | [] => []
  | item :: rest => item.quotedChars :: quotedItems rest

def quotedEntries : List (Value × Value) → List (List Char)
  | [] => []
  | (key, value) :: rest =>
    (key.quotedChars ++ ':' :: ' ' :: value.quotedChars) :: quotedEntries rest

end

/-- How the value is written inside a list or a mapping. -/
def quoted (v : Value) : String := String.ofList v.quotedChars

def shown : Value → String
  | .text s => s
  | .decimal d => d.text
  | .date year month day =>
    String.ofList (padded 4 year ++ '-' :: padded 2 month ++ '-' :: padded 2 day)
  | .other thing => thing.shown
  | v => v.quoted

end Reel.Value
