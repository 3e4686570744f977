import Reel.Error
import Reel.Path
import Reel.Shell.Words
import Reel.Text.Blank
import Reel.Text.Lines

/-!
# Short forms for the screen

A command is summed up by its program, the pass it belongs to and the file it ends in. Of what a
command printed as errors the last lines that hold something are shown.
-/
namespace Reel.Summary

/-- The word behind the first one that asks for a pass. -/
def passOf (words : List String) : Option String :=
  (words.dropWhile (· != "-pass"))[1]?

def ofWords (command : String) (words : List String) : String :=
  match words with
  | [] => command
  | [tool] => Path.basename tool ++ ": " ++ command
  | tool :: rest =>
    let target := Path.basename (rest.getLastD "")
    match passOf words with
    | some pass => Path.basename tool ++ " pass " ++ pass ++ ": " ++ target
    | none => Path.basename tool ++ ": " ++ target

/-- A command in short; one that cannot be read as words stands for itself. -/
def ofCommand (command : String) : String :=
  if command = "" then "command"
  else
    match Shell.split? command with
    | none => command
    | some words => ofWords command words

/-- A command of any kind in short; an absent one has a word of its own. -/
def ofValue : Value → Except Error String
  | .null => .ok (ofCommand "")
  | .text command => .ok (ofCommand command)
  | v => .error (.lacks v "read")

/-- How many lines of what a failed command printed are shown. -/
def tailLength : Nat := 20

def tail (diagnostic : String) : List String :=
  let lines := (Text.lines diagnostic).filter fun line => !Text.blank line
  lines.drop (lines.length - tailLength)

/-- The last lines of a value that are not blank; the empty, the zero and the absent have none. -/
def tailOf (v : Value) : Except Error (List String) :=
  match v with
  | .text diagnostic => .ok (tail diagnostic)
  | v =>
    if !v.truthy then .ok []
    else
      match v with
      | .bytes _ => .error (.wrongKind "a bytes-like object is required, not 'dict'")
      | v => .error (.lacks v "splitlines")

end Reel.Summary
