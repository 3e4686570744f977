/-!
# Blank characters

Blank characters are the spaces and line separators of every script together with the control
characters that separate lines, fields and groups. Stripping drops them at both ends of a text.
-/
namespace Reel.Text

/-- The tab and line controls, the four information separators, the next-line control and every
space and separator of Unicode. The zero-width space and the byte order mark are not blank. -/
def isBlank (c : Char) : Bool :=
  let n := c.toNat
  (9 ≤ n && n ≤ 13) || (28 ≤ n && n ≤ 32) || n == 0x85 || n == 0xA0 || n == 0x1680 ||
    (0x2000 ≤ n && n ≤ 0x200A) || n == 0x2028 || n == 0x2029 || n == 0x202F || n == 0x205F ||
    n == 0x3000

/-- The six blanks of the basic alphabet: space, tabs, line feed, form feed and carriage return. -/
def isPlainBlank (c : Char) : Bool := c == ' ' || (9 ≤ c.toNat && c.toNat ≤ 13)

def trim (p : Char → Bool) (cs : List Char) : List Char :=
  (((cs.dropWhile p).reverse.dropWhile p).reverse)

/-- A text without the blanks at its ends. -/
def strip (s : String) : String := String.ofList (trim isBlank s.toList)

/-- Whether nothing but blanks is in the text. -/
def blank (s : String) : Bool := s.toList.all isBlank

end Reel.Text
