import Reel.CommandLine.Reader
import Reel.Encode
import Reel.Number.Numeral

/-!
# Arguments

The options of the renderer, which works on a project file or on a single media file, and those
of the dashboard, which works on a project file only. What is handed on is kept as the value it
was given, absent where no option names it; the empty list, which an option without a text
leaves, is refused by none of them here.
-/
namespace Reel.CommandLine

inductive Input where
  | project (path : Value)
  | media (path : Value)
  deriving Repr, DecidableEq

structure Arguments where
  input : Option Input := none
  name : Value := .null
  output : Value := .null
  format : Value := .null
  root : Value := .null
  settings : Value := .null
  cacheDir : Value := .null
  probeWorkers : Value := .null
  dryRun : Bool := false
  dumpPlan : Bool := false
  keepTemp : Bool := false
  quiet : Bool := false
  /-- The bitrate of a two-pass encode, if one is asked for. -/
  bitrate : Value := .null
  fast : Bool := false
  /-- The quality of a VP9 encode, if one is asked for. -/
  vp9Crf : Value := .null
  start : Value := .null
  finish : Value := .null
  crop : Value := .null
  scale : Value := .null
  alpha : Bool := false
  fps : Value := .null
  removeAudio : Bool := false
  opus : Bool := false
  custom : Value := .null
  deriving Repr, DecidableEq

def textRule {α : Type} (names : List String) (set : Value → α → α) : OptionRule α :=
  { names, effect := .value fun v args => some (set v args) }

/-- The whole number that a text holds; the empty list holds none and stays. -/
def readWhole? : Value → Option Value
  | .text s => (Numeral.readGroupedWhole? s).map .int
  | v => some v

def wholeRule {α : Type} (names : List String) (set : Value → α → α) : OptionRule α :=
  { names, effect := .value fun v args => (readWhole? v).map fun n => set n args }

def flagRule {α : Type} (names : List String) (set : α → α) : OptionRule α :=
  { names, effect := .flag set }

/-- A project file; refused behind a media file. -/
def takeProject (path : Value) (a : Arguments) : Option Arguments :=
  match a.input with
  | some (.media _) => none
  | _ => some { a with input := some (.project path) }

/-- A media file; refused behind a project file. -/
def takeMedia (path : Value) (a : Arguments) : Option Arguments :=
  match a.input with
  | some (.project _) => none
  | _ => some { a with input := some (.media path) }

/-- Whether a text names a container that can be written. -/
def isFormat : Value → Bool
  | .text s => (containers.map (·.1)).contains s
  | _ => true

def takeFormat (format : Value) (a : Arguments) : Option Arguments :=
  if isFormat format then some { a with format } else none

def rules : List (OptionRule Arguments) :=
  [helpRule,
    { names := ["-y", "--yaml"], effect := .value takeProject },
    { names := ["-i", "--input"], effect := .value takeMedia },
    textRule ["-N", "--name"] fun v a => { a with name := v },
    textRule ["-o", "--output"] fun v a => { a with output := v },
    { names := ["-f", "--format"], effect := .value takeFormat },
    textRule ["-r", "--root"] fun v a => { a with root := v },
    textRule ["-s", "--settings"] fun v a => { a with settings := v },
    textRule ["-c", "--cache-dir"] fun v a => { a with cacheDir := v },
    wholeRule ["-j", "--probe-workers"] fun n a => { a with probeWorkers := n },
    flagRule ["-n", "--dry-run"] fun a => { a with dryRun := true },
    flagRule ["-p", "--dump-plan"] fun a => { a with dumpPlan := true },
    flagRule ["-k", "--keep-temp"] fun a => { a with keepTemp := true },
    flagRule ["-q", "--quiet"] fun a => { a with quiet := true },
    textRule ["--two-pass"] fun v a => { a with bitrate := v },
    flagRule ["--fast"] fun a => { a with fast := true },
    wholeRule ["--vp9"] fun n a => { a with vp9Crf := n },
    textRule ["--start"] fun v a => { a with start := v },
    textRule ["--end"] fun v a => { a with finish := v },
    textRule ["--crop"] fun v a => { a with crop := v },
    textRule ["--scale"] fun v a => { a with scale := v },
    flagRule ["--alpha"] fun a => { a with alpha := true },
    textRule ["--fps"] fun v a => { a with fps := v },
    flagRule ["--remove-audio"] fun a => { a with removeAudio := true },
    flagRule ["--opus"] fun a => { a with opus := true },
    textRule ["--custom"] fun v a => { a with custom := v }]

/-- Reads the arguments of the renderer; an input must be among them. -/
def Arguments.read (words : List String) : Except Stop (Input × Arguments) := do
  let args ← readArguments rules {} words
  match args.input with
  | some input => return (input, args)
  | none => throw .misuse

structure DashboardArguments where
  project : Value := .null
  output : Value := .null
  root : Value := .null
  settings : Value := .null
  dryRun : Bool := false
  bitrate : Value := .null
  fast : Bool := false
  debug : Bool := false
  deriving Repr, DecidableEq

def dashboardRules : List (OptionRule DashboardArguments) :=
  [helpRule,
    textRule ["-y", "--yaml"] fun v a => { a with project := v },
    textRule ["-o", "--output"] fun v a => { a with output := v },
    textRule ["-r", "--root"] fun v a => { a with root := v },
    textRule ["-s", "--settings"] fun v a => { a with settings := v },
    flagRule ["-n", "--dry-run"] fun a => { a with dryRun := true },
    textRule ["--two-pass"] fun v a => { a with bitrate := v },
    flagRule ["--fast"] fun a => { a with fast := true },
    flagRule ["-d", "--debug"] fun a => { a with debug := true }]

/-- Reads the arguments of the dashboard; a project must be among them. -/
def DashboardArguments.read (words : List String) : Except Stop DashboardArguments := do
  let args ← readArguments dashboardRules {} words
  if args.project.isNull then throw .misuse else return args

end Reel.CommandLine
