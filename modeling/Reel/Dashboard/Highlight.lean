import Reel.Dashboard.Palette
import Reel.Dashboard.Styled
import Reel.Error
import Reel.Text.Alphanumeric
import Reel.Text.Blank
import Reel.Text.Digit

/-!
# Highlighted command lines

In a command line the names of codecs, the flags, the numbers, the quoted texts and the paths
have colors. Each kind is found from left to right without overlaps; different kinds may
overlap, and the later kind is painted over the earlier one. A kind is a rule that looks at the
character before a place and at the text from there on, and tells how long a find is.
-/
namespace Reel.Highlight

/-- How many characters from a place on are a find, given the character before it. -/
abbrev Rule := Option Char → List Char → Option Nat

def opens (before : Option Char) : Bool := !before.any Text.isWordCharacter

def closes (rest : List Char) : Bool := !rest.head?.any Text.isWordCharacter

def codecNames : List String :=
  ["libx264", "libvpx-vp9", "mpeg4", "aac", "libmp3lame", "libopus"]

def codec : Rule := fun before rest =>
  if opens before then
    (codecNames.find? fun name =>
      name.toList.isPrefixOf rest && closes (rest.drop name.length)).map String.length
  else none

/-- The characters of a flag behind its first letter or digit. -/
def isFlagCharacter (c : Char) : Bool := c.isAlphanum || c == '_' || c == ':' || c == '-'

/-- The name of a flag: a letter or a digit, and what may follow it. -/
def flagName : List Char → Option Nat
  | c :: rest => if c.isAlphanum then some (1 + (rest.takeWhile isFlagCharacter).length) else none
  | [] => none

/-- One dash or two, and the name of a flag. -/
def flag : Rule := fun _ rest =>
  match rest with
  | '-' :: '-' :: rest => (flagName rest).map (· + 2)
  | '-' :: rest => (flagName rest).map (· + 1)
  | _ => none

/-- A number with a point, digits on both sides of it. -/
def fraction : Rule := fun before rest =>
  let whole := rest.takeWhile Text.isDecimal
  match rest.dropWhile Text.isDecimal with
  | '.' :: tail =>
    let places := tail.takeWhile Text.isDecimal
    let rest := tail.dropWhile Text.isDecimal
    if opens before && !whole.isEmpty && !places.isEmpty && closes rest then
      some (whole.length + 1 + places.length)
    else none
  | _ => none

def hasFraction : List Char → Bool
  | '.' :: c :: _ => Text.isDecimal c
  | _ => false

/-- A whole number that is not followed by decimal places. -/
def whole : Rule := fun before rest =>
  let digits := rest.takeWhile Text.isDecimal
  let rest := rest.dropWhile Text.isDecimal
  if opens before && !digits.isEmpty && closes rest && !hasFraction rest then some digits.length
  else none

def quotation : Rule := fun _ rest =>
  match rest with
  | quote :: rest =>
    if (quote == '\'' || quote == '"') && rest.contains quote then
      some (2 + (rest.takeWhile (· != quote)).length)
    else none
  | [] => none

def isPathCharacter (c : Char) : Bool :=
  !(Text.isBlank c || c == '\'' || c == '"' || c == '\x60')

def pathStarts : List String := ["/", "~", "./", "../"]

/-- A path from its beginning to the next blank or quote. -/
def path : Rule := fun _ rest =>
  (pathStarts.find? fun start =>
    start.toList.isPrefixOf rest && (rest.drop start.length).head?.any isPathCharacter).map
      fun start => start.length + ((rest.drop start.length).takeWhile isPathCharacter).length

/-- The kinds of finds with their colors, in the order in which they are painted. -/
def rules : List (Rule × String) :=
  [(codec, Palette.foreground), (flag, Palette.flags), (fraction, Palette.numbers),
    (whole, Palette.numbers), (quotation, Palette.strings), (path, Palette.paths)]

/-- The ranges that a rule finds from a position on. `skip` counts characters that belong to the
last find. -/
def findsFrom (rule : Rule) (style : String) (position : Nat) (before : Option Char)
    (skip : Nat) : List Char → List StyledSpan
  | [] => []
  | c :: rest =>
    if 0 < skip then findsFrom rule style (position + 1) (some c) (skip - 1) rest
    else
      match rule before (c :: rest) with
      | some (length + 1) =>
        ⟨position, position + length + 1, style⟩ ::
          findsFrom rule style (position + 1) (some c) length rest
      | _ => findsFrom rule style (position + 1) (some c) 0 rest

def command (line : String) : Styled :=
  (rules.flatMap fun (rule, style) => findsFrom rule style 0 none 0 line.toList).foldl
    Styled.stylize (Styled.ofText line (Palette.bold Palette.command))

/-- A command of any kind with its colors; an empty or absent one has none. -/
def ofValue : Value → Except Error (Option Styled)
  | .null => .ok none
  | .text line => .ok (if line = "" then none else some (command line))
  | .bytes _ => .error (.wrongKind "a bytes-like object is required, not 'dict'")
  | v => .error (.lacks v "translate")

end Reel.Highlight
