/-!
# Words of a shell line

A list of words is written as one line by quoting every word that holds more than plain
characters, and a line is cut into words by the rules of a shell: blanks separate, single
quotes keep everything, double quotes and bare text give the backslash a meaning.
-/
namespace Reel.Shell

/-- Characters that need no quotes: letters, digits and a few marks of the basic alphabet. -/
def isPlain (c : Char) : Bool :=
  c.isAlphanum || c == '_' || "@%+=:,./-".toList.contains c

/-- Between single quotes, a single quote is written by leaving them for a double-quoted one. -/
def quoteBody : List Char → List Char
  | [] => []
  | '\'' :: rest => ['\'', '"', '\'', '"', '\''] ++ quoteBody rest
  | c :: rest => c :: quoteBody rest

def quoteChars (cs : List Char) : List Char :=
  if cs.isEmpty then ['\'', '\'']
  else if cs.all isPlain then cs
  else '\'' :: quoteBody cs ++ ['\'']

def joinChars (words : List (List Char)) : List Char :=
  List.intercalate [' '] (words.map quoteChars)

def join (words : List String) : String := String.ofList (joinChars (words.map String.toList))

def isSeparator (c : Char) : Bool := c == ' ' || c == '\t' || c == '\r' || c == '\n'

/-- Where a reader of a line stands: between words, in a word, inside quotes, or behind a
backslash in a word or in double quotes. -/
inductive Mode where
  | between
  | word
  | single
  | double
  | escaped
  | escapedDouble
  deriving Repr, DecidableEq

/-- The words of a line, `word` holding the reversed beginning of the current one. A quotation
or a backslash that is left open makes the line unreadable. -/
def splitFrom : Mode → List Char → List Char → Option (List (List Char))
  | .between, _, [] => some []
  | .word, word, [] => some [word.reverse]
  | _, _, [] => none
  | .between, _, c :: rest =>
    if isSeparator c then splitFrom .between [] rest
    else if c = '\\' then splitFrom .escaped [] rest
    else if c = '\'' then splitFrom .single [] rest
    else if c = '"' then splitFrom .double [] rest
    else splitFrom .word [c] rest
  | .word, word, c :: rest =>
    if isSeparator c then (splitFrom .between [] rest).map (word.reverse :: ·)
    else if c = '\\' then splitFrom .escaped word rest
    else if c = '\'' then splitFrom .single word rest
    else if c = '"' then splitFrom .double word rest
    else splitFrom .word (c :: word) rest
  | .single, word, c :: rest =>
    if c = '\'' then splitFrom .word word rest else splitFrom .single (c :: word) rest
  | .double, word, c :: rest =>
    if c = '"' then splitFrom .word word rest
    else if c = '\\' then splitFrom .escapedDouble word rest
    else splitFrom .double (c :: word) rest
  | .escaped, word, c :: rest => splitFrom .word (c :: word) rest
  | .escapedDouble, word, c :: rest =>
    if c = '"' || c = '\\' then splitFrom .double (c :: word) rest
    else splitFrom .double (c :: '\\' :: word) rest

/-- The words of a line, if it is readable. -/
def splitChars? (line : List Char) : Option (List (List Char)) := splitFrom .between [] line

/-- The words of a line, if it is readable. -/
def split? (line : String) : Option (List String) :=
  (splitChars? line.toList).map (·.map String.ofList)

end Reel.Shell
