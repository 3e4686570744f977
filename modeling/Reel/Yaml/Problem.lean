/-!
# Problems of a YAML text

What is wrong with a text, where, and what was being read when it showed. Places are counted
from zero and written counted from one.
-/
namespace Reel.Yaml

structure Mark where
  line : Nat
  column : Nat
  deriving Repr, DecidableEq

/-- A problem. What was being read is left out where that says nothing, and its place where it
is that of the problem. -/
structure Problem where
  /-- The name of the text. -/
  source : String := ""
  context : String := ""
  contextMark : Option Mark := none
  problem : String
  mark : Option Mark := none
  /-- How many characters stand before it, where that is told instead of its place. -/
  offset : Option Nat := none
  deriving Repr, DecidableEq

namespace Problem

def placeText (source : String) (mark : Mark) : String :=
  "  in \"" ++ source ++ "\", line " ++ toString (mark.line + 1) ++ ", column " ++
    toString (mark.column + 1)

/-- The number of characters before a place as it is written. -/
def offsetText (source : String) (offset : Nat) : String :=
  "  in \"" ++ source ++ "\", position " ++ toString offset

/-- The wording of a problem, one fact a line. -/
def message (p : Problem) : String :=
  let context := if p.context = "" then [] else [p.context]
  let contextMark := if p.contextMark = p.mark then [] else
    p.contextMark.toList.map (placeText p.source)
  String.intercalate "\n" (context ++ contextMark ++ [p.problem] ++
    p.mark.toList.map (placeText p.source) ++ p.offset.toList.map (offsetText p.source))

end Problem

inductive Fault where
  | malformed (problem : Problem)
  /-- A scalar that has the form of a value and is none. -/
  | unreadable (wording : String)
  /-- A number outside the range of its kind. -/
  | outOfRange (wording : String)
  deriving Repr, DecidableEq

end Reel.Yaml
