import Reel.Host.Process
import Reel.Invocation
import Reel.Value.Number

/-!
# Running commands

Commands run one at a time. Each is echoed and reported when it starts and when it ends; its
number counts from the announcement of how many are expected. A program that is not found is a
failed command with the code that shells give it. A row of invocations stops at the first
failure.
-/
namespace Reel

/-- Whether a number is absent, or zero or less. -/
def countsNothing (v : Value) : Except Error Bool :=
  if v.isNull then .ok true else v.isAtMostZero

/-- The place of a command in the row, as it is written before it. -/
def commandPrefix (index total : Value) : Except Error String := do
  if ← countsNothing index then return ""
  else if ← countsNothing total then return "[" ++ (← index.toText) ++ "]"
  else return "[" ++ (← index.toText) ++ "/" ++ (← total.toText) ++ "]"

structure PipelineResult where
  returnCode : Int
  diagnostic : String
  pass : Value := .null
  deriving Repr, DecidableEq

namespace PipelineResult

def ok (r : PipelineResult) : Bool := r.returnCode == 0

/-- Stops with a failure unless the run succeeded. -/
def requireOk (r : PipelineResult) : Except Error Unit :=
  if r.ok then .ok ()
  else do
    let _ ← r.pass.toText
    throw (.failed { returnCode := r.returnCode, diagnostic := r.diagnostic, pass := r.pass })

end PipelineResult

/-- The exit code of a program that was not found. -/
def notFoundCode : Int := 127

namespace Run

def setQuiet (quiet : Bool) : Run Unit := modify fun host => { host with quiet }

def setListener (listener : Option Listener) : Run Unit :=
  modify fun host => { host with listener }

/-- Announces how many commands are expected, and counts from the beginning. -/
def setTotal (total : Value) : Run Unit := modify fun host => { host with total, index := 0 }

/-- Counts, echoes and reports a command that starts; its number. -/
def beginCommand (command : String) : Run Nat := do
  modify fun host => { host with index := host.index + 1 }
  let host ← get
  unless host.quiet do
    let place ← ofExcept (commandPrefix (.int host.index) host.total)
    printLine ((if place = "" then "" else place ++ " ") ++ "CMD: '" ++ command ++ "'")
  report (.started command host.index host.total host.clock)
  return host.index

def endCommand (command : String) (index : Nat) (started : Double) (returnCode : Int)
    (diagnostic : String) : Run Unit := do
  let host ← get
  report (.ended command index host.total returnCode (host.clock.sub started) diagnostic host.clock)

/-- Runs a program with its arguments, all as texts; its exit code and what it printed as
errors. -/
def command (arguments : List Value) : Run (Int × String) := do
  let words ← ofExcept (arguments.mapM Value.toText)
  let line := Shell.join words
  let index ← beginCommand line
  let started := (← get).clock
  let (code, diagnostic) ← match ← start (Value.words words) with
    | .error .missing => pure (notFoundCode, "command not found: " ++ words.headD "")
    | .error fault => throw (fault.error (words.headD ""))
    | .ok ended => pure (ended.exitCode, Text.decodeLenient ended.diagnostic)
  endCommand line index started code diagnostic
  return (code, diagnostic)

/-- A line as it is echoed: without blanks at its ends, rows of spaces as one. -/
def condense (line : String) : String := String.ofList (go (Text.trim Text.isBlank line.toList))
where
  go : List Char → List Char
    | ' ' :: ' ' :: rest => go (' ' :: rest)
    | c :: rest => c :: go rest
    | [] => []

def shell (line : String) : Run (Int × String) := do
  let shown := condense line
  let index ← beginCommand shown
  let started := (← get).clock
  match ← startShell line with
  | .error fault => throw (fault.error line)
  | .ok ended =>
    let diagnostic := Text.decodeLenient ended.diagnostic
    endCommand shown index started ended.exitCode diagnostic
    return (ended.exitCode, diagnostic)

/-- Runs a line of any kind through the shell; only a text is one. -/
def shellOf : Value → Run (Int × String)
  | .text line => shell line
  | .bytes _ => throw .bytesSearched
  | v => throw (.lacks v "strip")

end Run

/-- Who runs the encoder: its name, what runs a program with its arguments, and what runs a line
through the shell. -/
structure Runner where
  program : Value
  command : List Value → Run (Int × String) := Run.command
  shell : String → Run (Int × String) := Run.shell

namespace Runner

def encoder (r : Runner) (arguments : List Value) (pass : Value) : Run PipelineResult := do
  let (returnCode, diagnostic) ← r.command (r.program :: arguments)
  return { returnCode, diagnostic, pass }

def invocation (r : Runner) (i : Invocation) : Run PipelineResult :=
  match i.shellCommand with
  | .null => r.encoder i.arguments i.pass
  | _ => do
    let (returnCode, diagnostic) ← r.shell (← Run.ofExcept (i.commandLine r.program))
    return { returnCode, diagnostic, pass := i.pass }

/-- Runs invocations in order up to the first failure; the result of the last one that ran. -/
def passes (r : Runner) : List Invocation → Run PipelineResult
  | [] => throw .noInvocations
  | [last] => r.invocation last
  | first :: rest => do
    let result ← r.invocation first
    if result.ok then r.passes rest else return result

end Runner

namespace Run

def encoder (program : Value) (arguments : List Value) (pass : Value) : Run PipelineResult :=
  Runner.encoder { program } arguments pass

def invocation (program : Value) (i : Invocation) : Run PipelineResult :=
  Runner.invocation { program } i

/-- Runs invocations on the machine, in order up to the first failure. -/
def passes (program : Value) (invocations : List Invocation) : Run PipelineResult :=
  Runner.passes { program } invocations

end Run

end Reel
