import Reel.Host.Files
import Reel.Invocation
import Reel.Text.Blank
import Reel.Text.Replace

/-!
# Custom commands

A user's own arguments for the encoder, with places for the paths of the input and the output.
The input is put in first.
-/
namespace Reel

/-- A template of arguments and the paths that it is filled with. -/
structure CustomCommand where
  template : Value
  input : Value
  output : Value
  deriving Repr, DecidableEq

namespace CustomCommand

def inputSlot : String := "\x7binput\x7d"

def outputSlot : String := "\x7boutput\x7d"

/-- The template with the paths in place; all three have to be texts. -/
def render (c : CustomCommand) : Except Error String :=
  match c.template, c.input, c.output with
  | .null, _, _ => reject .templateEmpty
  | .text template, input, output =>
    if Text.blank template then reject .templateEmpty
    else
      match input, output with
      | .text input, .text output =>
        .ok (Text.replace outputSlot output (Text.replace inputSlot input template))
      | .text _, v | v, _ => .error (.wrongKind
        ("replace() argument 2 must be str, not " ++ v.kindName))
  | .bytes _, _, _ => .error (.wrongKind "a bytes-like object is required, not 'str'")
  | v, _, _ => .error (.lacks v "strip")

/-- The run of the encoder through the shell; refused if the output exists. -/
def invocations (c : CustomCommand) (files : Files) : Except Error (List Invocation) := do
  if ← files.existsAt c.output then reject (.outputExists (← c.output.toText))
  return [{ shellCommand := .text (← c.render), outputPath := c.output }]

end CustomCommand

end Reel
