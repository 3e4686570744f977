import Reel.Text.Printable

/-!
# Quoted text

A text between quotes, so that every character can be told from its neighbours: single quotes
unless the text itself has single and no double ones, a backslash before the quote and before
a backslash, short names for tab and line ends, and hexadecimal numbers for what does not show.
-/
namespace Reel.Text

/-- A number in hexadecimal, filled with zeros to a width. -/
def hexadecimal (width n : Nat) : List Char :=
  let digits := Nat.toDigits 16 n
  List.replicate (width - digits.length) '0' ++ digits

/-- The quote that needs the fewer escapes: double only for a text with single quotes alone. -/
def quoteFor (cs : List Char) : Char :=
  if cs.contains '\'' && !cs.contains '"' then '"' else '\''

/-- How one character is written between the given quotes. -/
def escape (quote c : Char) : List Char :=
  if c = quote || c = '\\' then ['\\', c]
  else if c = '\t' then ['\\', 't']
  else if c = '\n' then ['\\', 'n']
  else if c = '\r' then ['\\', 'r']
  else if isPrintable c then [c]
  else if c.toNat < 0x100 then '\\' :: 'x' :: hexadecimal 2 c.toNat
  else if c.toNat < 0x10000 then '\\' :: 'u' :: hexadecimal 4 c.toNat
  else '\\' :: 'U' :: hexadecimal 8 c.toNat

def quotedChars (cs : List Char) : List Char :=
  let quote := quoteFor cs
  quote :: cs.flatMap (escape quote) ++ [quote]

def quoted (s : String) : String := String.ofList (quotedChars s.toList)

/-- A row of bytes between quotes, marked by a `b`; bytes beyond the basic alphabet by number. -/
def quotedBytes (bytes : List UInt8) : List Char :=
  let cs := bytes.map fun b => Char.ofNat b.toNat
  let quote := quoteFor cs
  'b' :: quote :: cs.flatMap (fun c =>
    if 127 ≤ c.toNat then '\\' :: 'x' :: hexadecimal 2 c.toNat else escape quote c) ++ [quote]

end Reel.Text
