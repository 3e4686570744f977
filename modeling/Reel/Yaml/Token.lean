import Reel.Text.Blank
import Reel.Text.Digit
import Reel.Text.Quoted
import Reel.Yaml.Problem

/-!
# Tokens of a YAML text

A text is cut into indicators and scalars. Indentation becomes explicit: a column further right
opens a block collection where an indicator asks for one, a column further left closes those it
leaves. A scalar or flow collection at which a key may stand is remembered, so that a colon
behind it on the same line can turn it into a key.

Where a text breaks the rules, the tokens before that place still count: a reader may have a
reason of its own to stop earlier. Only tokens at which a key might yet begin are held back.
-/
namespace Reel.Yaml

inductive Token where
  | documentStart
  | documentEnd
  | sequenceStart
  | mappingStart
  | blockEnd
  | flowSequenceStart
  | flowSequenceEnd
  | flowMappingStart
  | flowMappingEnd
  | entry
  | flowEntry
  | key
  | value
  | scalar (text : String) (plain : Bool)
  | streamEnd
  /-- The rest of the text cannot be cut. -/
  | broken (cause : Fault)
  deriving Repr, DecidableEq

def Token.name : Token → String
  | .documentStart => "'<document start>'"
  | .documentEnd => "'<document end>'"
  | .sequenceStart => "'<block sequence start>'"
  | .mappingStart => "'<block mapping start>'"
  | .blockEnd => "'<block end>'"
  | .flowSequenceStart => "'['"
  | .flowSequenceEnd => "']'"
  | .flowMappingStart => "'\x7b'"
  | .flowMappingEnd => "'\x7d'"
  | .entry => "'-'"
  | .flowEntry => "','"
  | .key => "'?'"
  | .value => "':'"
  | .scalar .. => "'<scalar>'"
  | .streamEnd => "'<stream end>'"
  | .broken _ => "'<broken>'"

/-- A token at the place where it begins. -/
abbrev Placed := Token × Mark

structure KeyPlace where
  /-- How many tokens stand before it. -/
  position : Nat
  /-- Nothing but a key can stand there. -/
  required : Bool
  index : Nat
  mark : Mark
  deriving Repr, DecidableEq

structure Scanner where
  rest : List Char
  index : Nat := 0
  line : Nat := 0
  column : Nat := 0
  /-- The column of the innermost open block collection, and those around it. -/
  indent : Int := -1
  indents : List Int := []
  /-- How many flow collections are open. -/
  flow : Nat := 0
  mayStartKey : Bool := true
  /-- The place of a possible key in each open flow collection, innermost first. -/
  keys : List (Option KeyPlace) := [none]
  tokens : List Placed := []

/-- A step of the scanner; a text that breaks the rules has no tokens. -/
abbrev Step := Except Fault Scanner

def isBreak (c : Char) : Bool :=
  c == '\n' || c == '\r' || c == '\u0085' || c == '\u2028' || c == '\u2029'

/-- A blank, a line break or the end of the text. -/
def endsWord : Option Char → Bool
  | none => true
  | some c => c == ' ' || c == '\t' || isBreak c

namespace Scanner

def mark (s : Scanner) : Mark := { line := s.line, column := s.column }

private def stop {α : Type} (s : Scanner) (problem : String) : Except Fault α :=
  .error (.malformed { problem, mark := s.mark })

private def stopIn {α : Type} (s : Scanner) (context : String) (start : Mark) (problem : String) :
    Except Fault α :=
  .error (.malformed { context, contextMark := start, problem, mark := s.mark })

/-- Stops because a key that had to follow did not. -/
private def stopAtKey {α : Type} (s : Scanner) (place : KeyPlace) : Except Fault α :=
  s.stopIn "while scanning a simple key" place.mark "could not find expected ':'"

def peek (s : Scanner) (n : Nat) : Option Char := (s.rest.drop n).head?

def pass (s : Scanner) : Scanner :=
  match s.rest with
  | [] => s
  | c :: rest =>
    if isBreak c && !(c == '\r' && rest.head? == some '\n') then
      { s with rest, index := s.index + 1, line := s.line + 1, column := 0 }
    else
      { s with rest, index := s.index + 1,
               column := if c = '\uFEFF' then s.column else s.column + 1 }

def skip (s : Scanner) : Nat → Scanner
  | 0 => s
  | n + 1 => s.pass.skip n

/-- Passes over a line break, which may be two characters, and tells how it counts in a scalar. -/
def takeBreak (s : Scanner) : List Char × Scanner :=
  match s.rest with
  | '\r' :: '\n' :: _ => (['\n'], s.skip 2)
  | c :: _ =>
    if c = '\u2028' ∨ c = '\u2029' then ([c], s.pass)
    else if isBreak c then (['\n'], s.pass)
    else ([], s)
  | [] => ([], s)

def emitAt (s : Scanner) (mark : Mark) (t : Token) : Scanner :=
  { s with tokens := s.tokens ++ [(t, mark)] }

def emit (s : Scanner) (t : Token) : Scanner := s.emitAt s.mark t

/-- Puts a token in front of those that follow a remembered place. -/
def insertAt (s : Scanner) (place : KeyPlace) (t : Token) : Scanner :=
  { s with
    tokens := s.tokens.take place.position ++ (t, place.mark) :: s.tokens.drop place.position }

/-- Forgets the possible key of the innermost flow collection. -/
def dropKey (s : Scanner) : Step :=
  match s.keys with
  | some place :: outer =>
    if place.required then s.stopAtKey place else .ok { s with keys := none :: outer }
  | _ => .ok s

def saveKey (s : Scanner) : Step :=
  if s.mayStartKey then do
    let required := s.flow == 0 && s.indent == s.column
    let s ← s.dropKey
    let place : KeyPlace :=
      { position := s.tokens.length, required, index := s.index, mark := s.mark }
    .ok { s with keys := some place :: s.keys.drop 1 }
  else .ok s

/-- Longest distance between the beginning of a key and its colon. -/
def keyLimit : Nat := 1024

/-- Forgets possible keys on earlier lines, or too far back. -/
def dropStale (s : Scanner) : Step := do
  let keys ← s.keys.mapM fun
    | some place =>
      if place.mark.line ≠ s.line ∨ keyLimit < s.index - place.index then
        if place.required then s.stopAtKey place else .ok none
      else .ok (some place)
    | none => .ok none
  .ok { s with keys }

/-- Closes the block collections that begin right of a column. -/
def unwind (s : Scanner) (column : Int) : Scanner :=
  if s.flow ≠ 0 then s else go s.indents s
where
  go : List Int → Scanner → Scanner
    | [], s => s
    | outer :: further, s =>
      if column < s.indent then
        go further { s.emit .blockEnd with indent := outer, indents := further }
      else s

/-- Opens a block collection at a column right of the innermost one. -/
def deepen (s : Scanner) (column : Nat) : Bool × Scanner :=
  if s.indent < column then
    (true, { s with indent := column, indents := s.indent :: s.indents })
  else (false, s)

/-- Passes over blanks, comments and line breaks up to the next token. -/
def toToken (s : Scanner) : Scanner := go (s.rest.length + 1) s
where
  go : Nat → Scanner → Scanner
    | 0, s => s
    | fuel + 1, s =>
      match s.rest with
      | [] => s
      | c :: _ =>
        if c = ' ' ∨ (c = '\uFEFF' ∧ s.index = 0) then go fuel s.pass
        else if c = '#' then go fuel (s.skip (s.rest.takeWhile (!isBreak ·)).length)
        else if isBreak c then
          let s := s.takeBreak.2
          go fuel (if s.flow = 0 then { s with mayStartKey := true } else s)
        else s

def atDocumentMark (s : Scanner) : Bool :=
  (s.rest.take 3 == ['-', '-', '-'] || s.rest.take 3 == ['.', '.', '.']) && endsWord (s.peek 3)

/-- How far a plain scalar reaches on its line, blanks excluded. -/
def plainLength (flow : Bool) : List Char → Nat
  | [] => 0
  | c :: rest =>
    let colon := c == ':' && (endsWord rest.head? ||
      (flow && (rest.head?.any fun d => ",[]\x7b\x7d".toList.contains d)))
    if endsWord (some c) || colon || (flow && ",?[]\x7b\x7d".toList.contains c) then 0
    else plainLength flow rest + 1

/-- Folds the line breaks inside a scalar: one break is a space, further ones stay. -/
def folded (first : List Char) (further : List Char) : List Char :=
  if first ≠ ['\n'] then first ++ further
  else if further.isEmpty then [' '] else further

/-- Passes over blanks and line breaks behind a line of a plain scalar; the result is what they
count as, nothing if the scalar cannot go on behind them. -/
def plainBlanks (s : Scanner) : List Char × Scanner :=
  let blanks := s.rest.takeWhile (· == ' ')
  let s := s.skip blanks.length
  if (s.rest.head?.any isBreak) then
    let (first, s) := s.takeBreak
    let s := { s with mayStartKey := true }
    if s.atDocumentMark then ([], s)
    else go (s.rest.length + 1) first [] s
  else (blanks, s)
where
  go : Nat → List Char → List Char → Scanner → List Char × Scanner
    | 0, _, _, s => ([], s)
    | fuel + 1, first, further, s =>
      match s.rest.head? with
      | some ' ' => go fuel first further s.pass
      | some c =>
        if isBreak c then
          let (mark, s) := s.takeBreak
          if s.atDocumentMark then ([], s) else go fuel first (further ++ mark) s
        else (folded first further, s)
      | none => (folded first further, s)

/-- Takes a plain scalar, which may go on in further lines that are indented enough. -/
def takePlain (s : Scanner) : List Char × Scanner := go (s.rest.length + 1) [] [] s
where
  go : Nat → List Char → List Char → Scanner → List Char × Scanner
    | 0, text, _, s => (text, s)
    | fuel + 1, text, blanks, s =>
      let length := plainLength (s.flow != 0) s.rest
      if s.rest.head? = some '#' ∨ length = 0 then (text, s)
      else
        let text := text ++ blanks ++ s.rest.take length
        let (blanks, s) := { s.skip length with mayStartKey := false }.plainBlanks
        if blanks.isEmpty || s.rest.head? == some '#' ||
            (s.flow == 0 && decide ((s.column : Int) < s.indent + 1)) then (text, s)
        else go fuel text blanks s

def inQuotes : String := "while scanning a quoted scalar"

/-- Passes over the line breaks and blanks at the beginning of further lines of a quoted scalar
that began at a place; the breaks stay. -/
def quotedBreaks (s : Scanner) (start : Mark) : Except Fault (List Char × Scanner) :=
  go (s.rest.length + 1) [] s
where
  go : Nat → List Char → Scanner → Except Fault (List Char × Scanner)
    | 0, _, s => s.stopIn inQuotes start "found unexpected end of stream"
    | fuel + 1, breaks, s =>
      if s.atDocumentMark then s.stopIn inQuotes start "found unexpected document separator"
      else
        let s := s.skip (s.rest.takeWhile fun c => c == ' ' || c == '\t').length
        if s.rest.head?.any isBreak then
          let (mark, s) := s.takeBreak
          go fuel (breaks ++ mark) s
        else .ok (breaks, s)

def quotedBlanks (s : Scanner) (start : Mark) : Except Fault (List Char × Scanner) :=
  let blanks := s.rest.takeWhile fun c => c == ' ' || c == '\t'
  let s := s.skip blanks.length
  match s.rest.head? with
  | none => s.stopIn inQuotes start "found unexpected end of stream"
  | some c =>
    if isBreak c then do
      let (first, s) := s.takeBreak
      let (further, s) ← s.quotedBreaks start
      .ok (folded first further, s)
    else .ok (blanks, s)

/-- What a backslash and a letter stand for in double quotes. -/
def escapes : List (Char × Char) :=
  [('0', '\x00'), ('a', '\x07'), ('b', '\x08'), ('t', '\t'), ('\t', '\t'), ('n', '\n'),
    ('v', '\x0b'), ('f', '\x0c'), ('r', '\r'), ('e', '\x1b'), (' ', ' '), ('"', '"'),
    ('\\', '\\'), ('/', '/'), ('N', '\u0085'), ('_', '\u00a0'), ('L', '\u2028'),
    ('P', '\u2029')]

def inDoubleQuotes : String := "while scanning a double-quoted scalar"

/-- Takes what a backslash in double quotes begins, the backslash being passed already. -/
def takeEscape (s : Scanner) (start : Mark) : Except Fault (List Char × Scanner) :=
  match s.rest with
  | [] => s.stopIn inDoubleQuotes start "found unknown escape character '\\x00'"
  | mark :: digits =>
    let width := if mark = 'x' then 2 else if mark = 'u' then 4 else if mark = 'U' then 8 else 0
    if 0 < width then
      let found := digits.takeWhile fun c => (Text.hexDigit? c).isSome
      match Text.ofHexadecimal? (digits.take width) with
      | some n =>
        if width ≤ found.length then do
          return ([← character n], s.skip (1 + width))
        else s.pass.stopIn inDoubleQuotes start (digitsMissing width (digits.drop found.length))
      | none =>
        s.pass.stopIn inDoubleQuotes start (digitsMissing width (digits.drop found.length))
    else if isBreak mark then s.takeBreak.2.quotedBreaks start
    else
      match escapes.find? (·.1 == mark) with
      | some (_, meant) => .ok ([meant], s.pass)
      | none =>
        s.stopIn inDoubleQuotes start ("found unknown escape character " ++ quotedChar [mark])
where
  /-- The character with a number; numbers end below those of characters, and signed ones of 32
  bits below those that can be looked at. -/
  character (n : Nat) : Except Fault Char :=
    if n < 0x110000 then .ok (Char.ofNat n)
    else if n < 0x80000000 then .error (.unreadable "chr() arg not in range(0x110000)")
    else .error (.outOfRange "Python int too large to convert to C int")
  /-- The first character, or the one that stands for the end of the text. -/
  quotedChar (cs : List Char) : String := Text.quoted (String.ofList [cs.headD '\x00'])
  digitsMissing (width : Nat) (rest : List Char) : String :=
    "expected escape sequence of " ++ toString width ++ " hexadecimal numbers, but found " ++
      quotedChar rest

/-- Takes the body of a quoted scalar with its closing quote. -/
def takeQuoted (double : Bool) (start : Mark) (s : Scanner) : Except Fault (List Char × Scanner) :=
  go (s.rest.length + 1) [] s
where
  go : Nat → List Char → Scanner → Except Fault (List Char × Scanner)
    | 0, _, s => s.stopIn inQuotes start "found unexpected end of stream"
    | fuel + 1, text, s =>
      match s.rest with
      | [] => s.stopIn inQuotes start "found unexpected end of stream"
      | c :: next =>
        if c = '\'' ∧ !double ∧ next.head? = some '\'' then go fuel (text ++ ['\'']) (s.skip 2)
        else if c = (if double then '"' else '\'') then .ok (text, s.pass)
        else if double && c == '\\' then do
          let (meant, s) ← s.pass.takeEscape start
          go fuel (text ++ meant) s
        else if c = ' ' ∨ c = '\t' ∨ isBreak c then do
          let (blanks, s) ← s.quotedBlanks start
          go fuel (text ++ blanks) s
        else go fuel (text ++ [c]) s.pass

/-- A scalar takes the place of a key, and no key can begin right behind it. -/
def addQuoted (s : Scanner) (double : Bool) : Step := do
  let s ← s.saveKey
  let start := s.mark
  let (text, s) ← takeQuoted double start { s with mayStartKey := false }.pass
  .ok (s.emitAt start (.scalar (String.ofList text) false))

def addPlain (s : Scanner) : Step := do
  let s ← s.saveKey
  let start := s.mark
  let (text, s) := { s with mayStartKey := false }.takePlain
  .ok (s.emitAt start (.scalar (String.ofList text) true))

def addDocumentMark (s : Scanner) : Step := do
  let t := if s.rest.head? = some '-' then Token.documentStart else .documentEnd
  let s ← (s.unwind (-1)).dropKey
  .ok ({ s with mayStartKey := false }.emit t |>.skip 3)

def openFlow (s : Scanner) (t : Token) : Step := do
  let s ← s.saveKey
  .ok ({ s with flow := s.flow + 1, keys := none :: s.keys, mayStartKey := true }.emit t).pass

/-- Closes a flow collection. Where none is open the mark is the last token: no reader can go on
behind it. -/
def closeFlow (s : Scanner) (t : Token) : Step := do
  let s ← s.dropKey
  if s.flow = 0 then return { s.emit t with rest := [] }
  else
    return ({ s with flow := s.flow - 1, keys := s.keys.drop 1, mayStartKey := false }.emit t).pass

def addFlowEntry (s : Scanner) : Step := do
  let s ← { s with mayStartKey := true }.dropKey
  .ok (s.emit .flowEntry).pass

/-- An indicator opens a block collection at its column, where one may begin. -/
private def openBlock (s : Scanner) (what : String) (t : Token) : Step :=
  if s.flow ≠ 0 then .ok s
  else if !s.mayStartKey then s.stop (what ++ " are not allowed here")
  else
    let (opened, s) := s.deepen s.column
    .ok (if opened then s.emit t else s)

def addEntry (s : Scanner) : Step := do
  let s ← s.openBlock "sequence entries" .sequenceStart
  let s ← { s with mayStartKey := true }.dropKey
  .ok (s.emit .entry).pass

def addKey (s : Scanner) : Step := do
  let s ← s.openBlock "mapping keys" .mappingStart
  let s ← { s with mayStartKey := s.flow == 0 }.dropKey
  .ok (s.emit .key).pass

/-- A colon turns the remembered place into a key, or stands for an empty key. -/
def addValue (s : Scanner) : Step := do
  match s.keys with
  | some place :: outer =>
    let s := { s with keys := none :: outer, mayStartKey := false }
    let (opened, s) := if s.flow = 0 then s.deepen place.mark.column else (false, s)
    let s := s.insertAt place .key
    let s := if opened then s.insertAt place .mappingStart else s
    .ok (s.emit .value).pass
  | _ =>
    let s ← s.openBlock "mapping values" .mappingStart
    let s ← { s with mayStartKey := s.flow == 0 }.dropKey
    .ok (s.emit .value).pass

def atPlain (s : Scanner) (c : Char) : Bool :=
  !(endsWord (some c) || "-?:,[]\x7b\x7d#&*!|>'\"%@\x60".toList.contains c) ||
    (!endsWord (s.peek 1) && (c == '-' || (s.flow == 0 && (c == '?' || c == ':'))))

/-- Adds the token that begins here. Anchors, tags, block scalars and directives are refused. -/
def addToken (s : Scanner) (c : Char) : Step :=
  let alone := endsWord (s.peek 1)
  if s.column = 0 ∧ s.atDocumentMark then s.addDocumentMark
  else if c = '[' then s.openFlow .flowSequenceStart
  else if c = '\x7b' then s.openFlow .flowMappingStart
  else if c = ']' then s.closeFlow .flowSequenceEnd
  else if c = '\x7d' then s.closeFlow .flowMappingEnd
  else if c = ',' then s.addFlowEntry
  else if c = '-' ∧ alone then s.addEntry
  else if c = '?' ∧ (s.flow ≠ 0 ∨ alone) then s.addKey
  else if c = ':' ∧ (s.flow ≠ 0 ∨ alone) then s.addValue
  else if c = '\'' then s.addQuoted false
  else if c = '"' then s.addQuoted true
  else if s.atPlain c then s.addPlain
  else
    s.stopIn "while scanning for the next token" s.mark
      ("found character " ++ Text.quoted c.toString ++ " that cannot start any token")

/-- The tokens up to the first at which a key might yet begin. -/
def settled (s : Scanner) : List Placed :=
  let keys := match s.dropStale with
    | .ok s => s.keys
    | .error _ => s.keys
  s.tokens.take ((keys.filterMap fun place => place.map KeyPlace.position).foldl min
    s.tokens.length)

/-- The next token, or the end of the text. -/
def advance (s : Scanner) : Step := do
  let s ← (← s.dropStale).toToken.dropStale
  let s := s.unwind s.column
  match s.rest with
  | [] => return (← (s.unwind (-1)).dropKey).emit .streamEnd
  | c :: _ => s.addToken c

/-- Cuts the rest of the text into tokens; each takes one character at least. The last token is
the end of the text, or says why there is none. -/
def run : Nat → Scanner → List Placed
  | 0, s => s.tokens
  | fuel + 1, s =>
    match s.advance with
    | .error cause => s.settled ++ [(.broken cause, s.mark)]
    | .ok next => if s.toToken.rest.isEmpty then next.tokens else run fuel next

end Scanner

def isAllowed (c : Char) : Bool :=
  let n := c.toNat
  n == 9 || n == 10 || n == 13 || (0x20 ≤ n && n ≤ 0x7E) || n == 0x85 ||
    (0xA0 ≤ n && n ≤ 0xD7FF) || (0xE000 ≤ n && n ≤ 0xFFFD) || 0x10000 ≤ n

def tokens (cs : List Char) : Except Fault (List Placed) :=
  match cs.dropWhile isAllowed with
  | [] => .ok (Scanner.run (cs.length + 1) { rest := cs })
  | c :: rest => .error (.malformed
      { problem := "unacceptable character #x" ++
          String.ofList (Text.hexadecimal 4 c.toNat) ++ ": special characters are not allowed"
        offset := some (cs.length - rest.length - 1) })

end Reel.Yaml
