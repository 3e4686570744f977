/-!
# Lines

A text is cut at every line end: line feed, carriage return or both together, the vertical and
form feeds, the file, group and record separators, the next-line control and the two
separators of Unicode. A line end at the end of the text opens no further line.
-/
namespace Reel.Text

def isLineEnd (c : Char) : Bool :=
  let n := c.toNat
  (10 ≤ n && n ≤ 13) || (28 ≤ n && n ≤ 30) || n == 0x85 || n == 0x2028 || n == 0x2029

/-- The lines of a text, `line` holding the reversed beginning of the current one. -/
def linesFrom (line : List Char) : List Char → List (List Char)
  | [] => if line.isEmpty then [] else [line.reverse]
  | '\r' :: '\n' :: rest => line.reverse :: linesFrom [] rest
  | c :: rest =>
    if isLineEnd c then line.reverse :: linesFrom [] rest else linesFrom (c :: line) rest

/-- The lines of a text without their ends. -/
def lines (s : String) : List String := (linesFrom [] s.toList).map String.ofList

end Reel.Text
