import Reel.CommandLine
import Reel.Environment.Plain

/-!
# The program

Runs the renderer on the words of the real command line. The files that the arguments and the
project name are read into the machine beforehand. Programs are not started from here: every
command is printed and counts as having succeeded without output. The environment is the plain
one.
-/
open Reel

/-- Reads a file into the machine; what cannot be read is not there. -/
def Reel.Host.readIn (host : Host) (path : String) : IO Host := do
  try
    let content ← IO.FS.readBinFile path
    return { host with files := host.files.write path (.file content.toList) }
  catch _ => return host

def Reel.CommandLine.namedFiles [Environment] (words : List String) : List String :=
  match CommandLine.Arguments.read words with
  | .error _ => []
  | .ok (input, a) =>
    let source := match input with
      | .project path => path
      | .media path => path
    (Settings.pathOf a.settings).toOption.toList ++ [source, a.output].filterMap Value.text?

def Reel.CommandLine.projectFiles [Environment] (host : Host) (words : List String) : List String :=
  match CommandLine.Arguments.read words with
  | .ok (.project path, _) =>
    match ((Timeline.loadAt path).on host).1 with
    | .ok t => (t.segments.map Segment.path ++ t.audioItems.map AudioItem.path).filterMap
        Value.text?
    | .error _ => []
  | _ => []

def main (words : List String) : IO UInt32 := do
  let _ : Environment := .plain
  let host ← (CommandLine.namedFiles words).foldlM Host.readIn {}
  let host ← (CommandLine.projectFiles host words).foldlM Host.readIn host
  let (outcome, host) := (CommandLine.run words).on host
  IO.print host.stdout
  IO.eprint host.stderr
  match outcome with
  | .ok _ => return 0
  | .error (.exit code) => return UInt32.ofNat code
  | .error e =>
    IO.eprintln e.message
    return 1
