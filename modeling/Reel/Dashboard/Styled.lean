/-!
# Styled text

A text with a style of its own and styled ranges. Control characters that a screen would act on
are taken out of what is shown. Ranges count characters; they are kept in the order in which
they were added, and a later one is painted over an earlier one.
-/
namespace Reel

structure StyledSpan where
  start : Nat
  finish : Nat
  style : String
  deriving Repr, DecidableEq

structure Styled where
  chars : List Char := []
  style : String := ""
  spans : List StyledSpan := []
  deriving Repr, DecidableEq

namespace Styled

/-- Whether a screen acts on the character: the bell, the backspace, the vertical and form feeds
and the carriage return. -/
def isControl (c : Char) : Bool :=
  let n := c.toNat
  n == 7 || n == 8 || (11 ≤ n && n ≤ 13)

def shown (s : String) : List Char := s.toList.filter fun c => !isControl c

def ofText (s style : String) : Styled := { chars := shown s, style }

/-- Adds a text at the end, in a style unless it is empty. -/
def append (t : Styled) (part : String × String) : Styled :=
  let added := shown part.1
  let span : StyledSpan := ⟨t.chars.length, t.chars.length + added.length, part.2⟩
  { t with
    chars := t.chars ++ added
    spans := if part.1 = "" || part.2 = "" then t.spans else t.spans ++ [span] }

/-- The texts one after the other, each in its style. -/
def ofParts (parts : List (String × String)) : Styled := parts.foldl append {}

def stylize (t : Styled) (span : StyledSpan) : Styled :=
  if t.chars.length ≤ span.start || span.finish ≤ span.start then t
  else { t with spans := t.spans ++ [{ span with finish := min t.chars.length span.finish }] }

def plain (t : Styled) : String := String.ofList t.chars

end Styled

end Reel
