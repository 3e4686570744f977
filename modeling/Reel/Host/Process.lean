import Reel.Host

/-!
# Starting programs

A program is started with a list of arguments, through the shell, or as a probe. A probe changes
nothing but what it answers; any other start takes the next outcome of the command script, and an
exhausted script means success without output.
-/
namespace Reel

/-- The error of a program that does not start or end. -/
def StartFault.error (program : String) : StartFault → Error
  | .missing => .file .missing program
  | .denied => .file .denied program
  | .refused => .zeroInside
  | .descriptors => .unreadable "bad value(s) in fds_to_keep"
  | .timeout => .unreadable ("Command " ++ Text.quoted program ++ " timed out")

structure Ended where
  exitCode : Int
  output : List UInt8
  diagnostic : List UInt8
  deriving Repr, DecidableEq

namespace Run

def recordSpawn (spawn : Spawn) : Run Unit :=
  modify fun host => { host with spawned := spawn :: host.spawned }

/-- Takes the next outcome of the command script and lets the command run: its files appear and
its time passes. -/
def perform : Run (Except StartFault Ended) := do
  let host ← get
  let script := host.commands.headD {}
  set { host with commands := host.commands.drop 1 }
  match script.fault with
  | some fault => return .error fault
  | none =>
    modify fun host =>
      { host with
        files := script.creates.foldl (fun files path => files.write path (.file [])) host.files
        clock := host.clock.add script.seconds }
    return .ok { exitCode := script.exitCode, output := [], diagnostic := script.diagnostic }

/-- Starts a line through the shell and waits for it. -/
def startShell (line : String) : Run (Except StartFault Ended) := do
  recordSpawn (.shell line)
  perform

/-- Starts a program with its arguments and waits for it. -/
def start (words : List Value) : Run (Except StartFault Ended) := do
  recordSpawn (.arguments words true)
  perform

/-- Starts a probe and waits for it. One that cannot close inherited descriptors starts only
without closing them. -/
def startProbe (words : List Value) (closesDescriptors : Bool) :
    Run (Except StartFault Ended) := do
  recordSpawn (.arguments words closesDescriptors)
  let script := (← get).probes words
  let ended : Ended :=
    { exitCode := script.exitCode, output := script.output, diagnostic := script.diagnostic }
  match script.fault with
  | none => return .ok ended
  | some .descriptors => return if closesDescriptors then .error .descriptors else .ok ended
  | some fault => return .error fault

end Run

end Reel
