import Reel.Text.Digit
import Reel.Value

/-!
# Reading a command line

Options have short names of one letter, which can be written together behind one dash, and long
names behind two dashes, which can be cut as long as they stay unique. A value follows as the
next word, behind an equals sign, or right behind a short name. What follows the short name of
an option without a value are further short names, also behind an equals sign. A word that
begins with a dash is a value only if it looks like a negative number, or holds a space and
names no option. Two dashes mark the end of the options wherever they stand alone: an option
that has nothing but them in its own word is left with an empty list.

All words are classified before the first one takes effect, so an ambiguous name is a mistake
wherever it stands. There are no operands: a word that belongs to no option is a mistake too.
-/
namespace Reel.CommandLine

inductive Stop where
  | help
  | misuse
  deriving Repr, DecidableEq

def Stop.code : Stop → Nat
  | .help => 0
  | .misuse => 2

/-- What an option does to the arguments collected so far. A value can be refused. -/
inductive Effect (α : Type) where
  | flag (set : α → α)
  | value (set : Value → α → Option α)
  | help

/-- An option with its names, dashes included. -/
structure OptionRule (α : Type) where
  names : List String
  effect : Effect α

variable {α : Type}

def OptionRule.takesValue (rule : OptionRule α) : Bool :=
  match rule.effect with
  | .value _ => true
  | _ => false

def helpRule : OptionRule α := { names := ["-h", "--help"], effect := .help }

/-- What a word of a command line is. An option can have a text in the same word, behind its
name or behind an equals sign. -/
inductive Word (α : Type) where
  | operand (text : String)
  | option (rule : OptionRule α) (short : Bool) (glued : Option (List Char))
  | stray

def rule? (rules : List (OptionRule α)) (name : String) : Option (OptionRule α) :=
  rules.find? fun rule => rule.names.contains name

def rulesFrom (rules : List (OptionRule α)) (stem : List Char) : List (OptionRule α) :=
  rules.filter fun rule => rule.names.any fun name => stem.isPrefixOf name.toList

/-- The text before the first equals sign, and the one behind it if there is one. -/
def splitSign (cs : List Char) : List Char × Option (List Char) :=
  match cs.dropWhile (· != '=') with
  | [] => (cs, none)
  | _ :: value => (cs.takeWhile (· != '='), some value)

/-- Whether characters are digits with at most one point before the last of them. -/
def isAmount (cs : List Char) : Bool :=
  match cs.dropWhile Text.isDecimal with
  | [] => !cs.isEmpty
  | '.' :: fraction => !fraction.isEmpty && fraction.all Text.isDecimal
  | _ => false

/-- Whether a word with a dash looks like a negative number; a line feed may follow it. -/
def isNegativeAmount (cs : List Char) : Bool :=
  match cs with
  | '-' :: body => isAmount (if body.getLast? = some '\n' then body.dropLast else body)
  | _ => false

/-- A word with a dash that names no option. -/
def unnamed (cs : List Char) : Word α :=
  if isNegativeAmount cs || cs.contains ' ' then .operand (String.ofList cs) else .stray

def classify (rules : List (OptionRule α)) (word : String) : Except Stop (Word α) :=
  match word.toList with
  | '-' :: c :: rest =>
    let cs := '-' :: c :: rest
    let short := c != '-'
    let (stem, value) := splitSign cs
    match rule? rules word, value.bind fun _ => rule? rules (String.ofList stem) with
    | some rule, _ => .ok (.option rule short none)
    | none, some rule => .ok (.option rule short value)
    | none, none =>
      if short then
        match rule? rules (String.ofList ['-', c]) with
        | some rule => .ok (.option rule true (some rest))
        | none => .ok (unnamed cs)
      else
        match rulesFrom rules stem with
        | [] => .ok (unnamed cs)
        | [rule] => .ok (.option rule false value)
        | _ => .error .misuse
  | _ => .ok (.operand word)

/-- Classifies all words; behind two dashes alone there are no options. -/
def classifyAll (rules : List (OptionRule α)) : List String → Except Stop (List (Word α))
  | [] => .ok []
  | "--" :: rest => .ok (.stray :: rest.map .operand)
  | word :: rest => do
    let first ← classify rules word
    return first :: (← classifyAll rules rest)

/-- What one word asks for: options with their values, perhaps one more that looks for its value
in the next word. -/
structure Cluster (α : Type) where
  taken : List (OptionRule α × Option Value) := []
  pending : Option (OptionRule α) := none

/-- Adds an option without a value in front. -/
def Cluster.addFlag (rule : OptionRule α) (c : Cluster α) : Cluster α :=
  { c with taken := (rule, none) :: c.taken }

/-- The value of an option with a text in the same word. Two dashes alone are no text, so
nothing is left of them. -/
def gluedValue (cs : List Char) : Value :=
  if cs = ['-', '-'] then .list [] else .text (String.ofList cs)

/-- Takes a glued text as the value of an option; behind the letter of an option without a value
it is a row of further letters. -/
def expand (rules : List (OptionRule α)) (rule : OptionRule α) (short : Bool) :
    List Char → Except Stop (Cluster α)
  | [] => if rule.takesValue then .ok { taken := [(rule, some (.text ""))] } else .error .misuse
  | c :: rest =>
    if rule.takesValue then .ok { taken := [(rule, some (gluedValue (c :: rest)))] }
    else if !short then .error .misuse
    else
      match rule? rules (String.ofList ['-', c]) with
      | none => .error .misuse
      | some next =>
        match rest with
        | [] => .ok { taken := [(rule, none)], pending := some next }
        | d :: rest => (expand rules next true (d :: rest)).map (Cluster.addFlag rule)

def clusterOf (rules : List (OptionRule α)) (rule : OptionRule α) (short : Bool) :
    Option (List Char) → Except Stop (Cluster α)
  | none => .ok { pending := some rule }
  | some glued => expand rules rule short glued

def take (args : α) (entry : OptionRule α × Option Value) : Except Stop α :=
  match entry.1.effect, entry.2 with
  | .flag set, _ => .ok (set args)
  | .value set, some value =>
    match set value args with
    | some args => .ok args
    | none => .error .misuse
  | .value _, none => .error .misuse
  | .help, _ => .error .help

/-- Lets classified words take effect in order. `strays` tells that some word belonged to no
option, which is a mistake once all others have been taken. -/
def readWords (rules : List (OptionRule α)) (strays : Bool) (args : α) :
    List (Word α) → Except Stop α
  | [] => if strays then .error .misuse else .ok args
  | .operand _ :: rest => readWords rules true args rest
  | .stray :: rest => readWords rules true args rest
  | .option rule short glued :: rest => do
    let c ← clusterOf rules rule short glued
    match c.pending with
    | none => readWords rules strays (← c.taken.foldlM take args) rest
    | some last =>
      if last.takesValue then
        match rest with
        | .operand value :: rest =>
          let given := c.taken ++ [(last, some (Value.text value))]
          readWords rules strays (← given.foldlM take args) rest
        | _ => throw .misuse
      else readWords rules strays (← (c.taken ++ [(last, none)]).foldlM take args) rest

/-- Reads the words of a command line into arguments that start out as given. -/
def readArguments (rules : List (OptionRule α)) (args : α) (words : List String) :
    Except Stop α := do
  readWords rules false args (← classifyAll rules words)

end Reel.CommandLine
