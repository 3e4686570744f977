import Reel.Text.Quoted
import Reel.Value.Text

/-!
# Writing YAML

Values are written in block style: an entry of a mapping or an item of a sequence takes a line,
and what it holds is indented below it. Texts stand between double quotes, so that no text can
be taken for a number or an absent value.
-/
namespace Reel.Yaml

/-- How one character is written between double quotes. -/
def escapeDouble (c : Char) : List Char :=
  if c = '"' || c = '\\' then ['\\', c]
  else if c = '\n' then ['\\', 'n']
  else if 32 ≤ c.toNat && c.toNat < 127 then [c]
  else if c.toNat < 0x100 then '\\' :: 'x' :: Text.hexadecimal 2 c.toNat
  else if c.toNat < 0x10000 then '\\' :: 'u' :: Text.hexadecimal 4 c.toNat
  else '\\' :: 'U' :: Text.hexadecimal 8 c.toNat

def quoteDouble (s : String) : String :=
  String.ofList ('"' :: s.toList.flatMap escapeDouble ++ ['"'])

/-- A number with a point, which a number in scientific form needs to be one. -/
def realText (x : Double) : String :=
  match x with
  | .nan => ".nan"
  | .infinite negative => if negative then "-.inf" else ".inf"
  | x =>
    let cs := x.text.toList
    if cs.contains '.' then x.text
    else String.ofList (cs.takeWhile (· != 'e') ++ ['.', '0'] ++ cs.dropWhile (· != 'e'))

/-- The text of a value that holds no others. -/
def scalarText : Value → String
  | .null => "null"
  | .bool b => if b then "true" else "false"
  | .int n => toString n
  | .real x => realText x
  | .list _ => "[]"
  | .map _ => "\x7b\x7d"
  | v => quoteDouble v.shown

def indent (line : String) : String := "  " ++ line

def itemLines : List String → List String
  | [] => []
  | first :: rest => ("- " ++ first) :: rest.map indent

mutual

def valueLines : Value → List String
  | .list (item :: rest) => listLines (item :: rest)
  | .map (entry :: rest) => mapLines (entry :: rest)
  | v => [scalarText v]

def listLines : List Value → List String
  | [] => []
  | item :: rest => itemLines (valueLines item) ++ listLines rest

def mapLines : List (Value × Value) → List String
  | [] => []
  | (key, .list (item :: items)) :: rest =>
    (scalarText key ++ ":") :: (listLines (item :: items)).map indent ++ mapLines rest
  | (key, .map (entry :: entries)) :: rest =>
    (scalarText key ++ ":") :: (mapLines (entry :: entries)).map indent ++ mapLines rest
  | (key, value) :: rest => (scalarText key ++ ": " ++ scalarText value) :: mapLines rest

end

def write (v : Value) : String := String.join ((valueLines v).map (· ++ "\n"))

end Reel.Yaml
