import Reel.Host.Files
import Reel.Number.Double

/-!
# The machine the program runs on

Everything outside the program that it can see or change: files, the programs it starts, the
clock, and the console. Started programs are a script: for each probe what it answers, and for
the commands one outcome after the other. A run threads the machine through and keeps what
happened up to the point where it was stopped.
-/
namespace Reel

/-- Why a program does not start, or does not end by itself. -/
inductive StartFault where
  | missing
  | denied
  /-- The arguments are refused. -/
  | refused
  /-- Closing inherited descriptors is refused; starting again without that works. -/
  | descriptors
  /-- The program runs longer than it may and is stopped. -/
  | timeout
  deriving Repr, DecidableEq

structure ProbeScript where
  output : List UInt8 := []
  exitCode : Int := 0
  diagnostic : List UInt8 := []
  fault : Option StartFault := none
  deriving Repr, DecidableEq

structure CommandScript where
  exitCode : Int := 0
  diagnostic : List UInt8 := []
  seconds : Double := .zero
  creates : List String := []
  fault : Option StartFault := none
  deriving Repr, DecidableEq

/-- A program that was started, or that should have been. -/
inductive Spawn where
  | arguments (words : List Value) (closesDescriptors : Bool)
  | shell (line : String)
  deriving Repr, DecidableEq

/-- What is reported about a command when it starts and when it ends, with the time of the
report. -/
inductive Report where
  | started (command : String) (index : Nat) (total : Value) (time : Double)
  | ended (command : String) (index : Nat) (total : Value) (returnCode : Int)
      (seconds : Double) (diagnostic : String) (time : Double)
  deriving Repr, DecidableEq

/-- Someone who listens to the reports. Told all of them so far, latest first, the listener can
stop the program. -/
abbrev Listener := List Report → Except Error Unit

structure Host where
  files : Files := .empty
  /-- What probes answer, told by the words that start them. -/
  probes : List Value → ProbeScript := fun _ => { exitCode := 1 }
  commands : List CommandScript := []
  clock : Double := .zero
  /-- Commands are not echoed. -/
  quiet : Bool := false
  /-- Who listens to the reports, if anyone does. -/
  listener : Option Listener := none
  /-- How many commands are expected, if that was announced. -/
  total : Value := .null
  /-- How many commands were started since the announcement. -/
  index : Nat := 0
  /-- What was printed, latest first. -/
  printed : List String := []
  /-- What was printed as an error, latest first. -/
  complained : List String := []
  /-- The reports, latest first. -/
  reports : List Report := []
  /-- The programs started, latest first. -/
  spawned : List Spawn := []
  deriving Inhabited

/-- A computation on a machine; a stop leaves the machine as it was at that point. -/
abbrev Run (α : Type) := ExceptT Error (StateM Host) α

namespace Run

def on {α : Type} (run : Run α) (host : Host) : Except Error α × Host :=
  Id.run (StateT.run (ExceptT.run run) host)

@[simp] theorem on_pure {α : Type} (x : α) (host : Host) :
    (pure x : Run α).on host = (.ok x, host) := rfl

@[simp] theorem on_throw {α : Type} (e : Error) (host : Host) :
    (throw e : Run α).on host = (.error e, host) := rfl

/-- What follows a computation runs on the machine that it leaves, unless it was stopped. -/
theorem on_bind {α β : Type} (run : Run α) (next : α → Run β) (host : Host) :
    (run >>= next).on host = match run.on host with
      | (.ok x, host) => (next x).on host
      | (.error e, host) => (.error e, host) := by
  unfold on ExceptT.run StateT.run Id.run
  simp only [bind, ExceptT.bind, ExceptT.mk, StateT.bind]
  cases run host with
  | mk outcome host => cases outcome <;> rfl

/-- A result that was found without looking at the machine. -/
def ofExcept {α : Type} : Except Error α → Run α
  | .ok x => pure x
  | .error e => throw e

def rejected {α : Type} (cause : Rejection) : Run α := throw (.rejected cause)

def files : Run Files := return (← get).files

def printLine (line : String) : Run Unit :=
  modify fun host => { host with printed := (line ++ "\n") :: host.printed }

def complain (line : String) : Run Unit :=
  modify fun host => { host with complained := (line ++ "\n") :: host.complained }

/-- Prints one line unless echoing is off. -/
def echo (line : String) : Run Unit := do
  unless (← get).quiet do printLine line

/-- Sends a report to the listener, if there is one. -/
def report (r : Report) : Run Unit := do
  match (← get).listener with
  | none => pure ()
  | some listener =>
    modify fun host => { host with reports := r :: host.reports }
    ofExcept (listener (← get).reports)

/-- Makes a directory with those on the way to it; what went wrong on the way. -/
def makeWay (path : String) : Run (Option (FileFault × String)) := do
  let (files, fault) := (← files).makePath path
  modify fun host => { host with files }
  return fault

/-- Makes a directory with those on the way to it, up to a name that holds the zero character.
`written` is how the caller writes paths. -/
def makePath (path : String) (written : String → Value) : Run Unit := do
  let sound := path.toList.takeWhile (· != '\x00')
  let whole := sound.length = path.length
  let way := if whole then path else Path.dirname (String.ofList sound)
  let fault ← if !whole && (way = "" || (← files).exists? way) then pure none else makeWay way
  match fault with
  | some (fault, path) => unless !whole && fault = .exists do throw (.file fault (written path))
  | none => pure ()
  unless whole do throw .zeroInside

end Run

namespace Host

def stdout (host : Host) : String := String.join host.printed.reverse

def stderr (host : Host) : String := String.join host.complained.reverse

/-- Forgets what was printed, reported and started, so that the next step shows its own. -/
def fresh (host : Host) : Host :=
  { host with printed := [], complained := [], reports := [], spawned := [] }

end Host

end Reel
