import Reel.Seconds

/-!
# Filters

One filter has a name, arguments in order and arguments by name. In a graph they are written
behind the name with an equals sign, separated by colons.
-/
namespace Reel

/-- An argument of a filter: a value, or a number of seconds. -/
inductive Argument (α : Type) where
  | literal (v : Value)
  | seconds (x : α)
  deriving Repr

namespace Argument

variable {α : Type}

def word (s : String) : Argument α := .literal (.text s)

def number (n : Int) : Argument α := .literal (.int n)

/-- How a value is written: truth values as digits, whole numbers as they are, other numbers as
seconds, and anything else by its text. -/
def formatValue : Value → Except Error String
  | .bool b => .ok (if b then "1" else "0")
  | .real x => Timecode.format (.real x)
  | .decimal d => Timecode.format (.decimal d)
  | v => v.toText

def format [Seconds α] : Argument α → Except Error String
  | .literal v => formatValue v
  | .seconds x => Seconds.format x

end Argument

structure Filter (α : Type) where
  name : String
  positional : List (Argument α) := []
  options : List (String × Argument α) := []
  deriving Repr

def Filter.render {α : Type} [Seconds α] (f : Filter α) : Except Error String := do
  let positional ← f.positional.mapM Argument.format
  let options ← f.options.mapM fun (key, argument) => do
    return key ++ "=" ++ (← argument.format)
  let parts := positional ++ options
  return if parts.isEmpty then f.name else f.name ++ "=" ++ String.intercalate ":" parts

end Reel
