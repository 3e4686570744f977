import Reel.Shell.Words
import Reel.Value.Key
import Reel.Value.Spelling

/-!
# Invocations

One run of the encoder: a list of arguments, or a line for the shell. A two-pass encode is two
invocations that share everything before the pass; the first analyses and writes nothing, the
second writes the output.
-/
namespace Reel

/-- One run of the encoder. A line for the shell takes the place of the arguments. The pass and
the output are there to be looked at. -/
structure Invocation where
  arguments : List Value := []
  pass : Value := .null
  outputPath : Value := .null
  shellCommand : Value := .null
  deriving Repr, DecidableEq

namespace Invocation

/-- A value as a word of a line; what is no text can only be left empty. -/
def word : Value → Except Error String
  | .text s => .ok s
  | v =>
    if !v.truthy then .ok ""
    else
      match v with
      | .bytes _ => .error .bytesSearched
      | v => .error (.wrongKind
        ("expected string or bytes-like object, got '" ++ v.kindName ++ "'"))

/-- The line that would run the invocation in a shell. -/
def commandLine (i : Invocation) (program : Value) : Except Error String := do
  match i.shellCommand with
  | .null => return Shell.join (← (program :: i.arguments).mapM word)
  | line => return (← program.toText) ++ " " ++ (← line.toText)

/-- Whether two invocations run the same pass of the same command. -/
def same (a b : Invocation) : Bool :=
  Value.areEqual a.arguments b.arguments && a.pass.isEqual b.pass &&
    a.shellCommand.isEqual b.shellCommand

end Invocation

/-- Arguments of every run: overwrite, and no banner. -/
def globalArguments : List Value := ["-y", "-hide_banner"]

def nullDevice : Value := "/dev/null"

/-- The two passes over the same base arguments, with one log if a place for it is named. -/
def twoPassInvocations (base : List Value) (outputPath passLogPrefix sink : Value) :
    List Invocation :=
  let log : List Value := if passLogPrefix.isNull then [] else ["-passlogfile", passLogPrefix]
  [{ arguments := base ++ Value.words ["-pass", "1"] ++ log ++
        Value.words ["-an", "-f", "null"] ++ [sink],
      pass := .int 1 },
    { arguments := base ++ Value.words ["-pass", "2"] ++ log ++ [outputPath],
      pass := .int 2, outputPath }]

end Reel
