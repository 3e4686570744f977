import Reel.Dashboard.Duration
import Reel.Dashboard.Highlight
import Reel.Dashboard.Summary
import Reel.Encode
import Reel.Pipeline
import Reel.Settings

/-!
# The dashboard

Shows a render while it runs: a panel with its status, a panel with what is rendered, a log of
its commands, and, if asked for, a journal in a file. The dashboard reacts to calls: the plan is
ready, a command started or ended, an error stopped the render, the render is finished, time
passed. Nothing is shown before the panels are attached.
-/
namespace Reel

inductive Status where
  | running
  | done
  | failed
  deriving Repr, DecidableEq

def Status.text : Status → String
  | .running => "running"
  | .done => "done"
  | .failed => "failed"

def Status.color : Status → String
  | .running => Palette.foreground
  | .done => Palette.paths
  | .failed => Palette.error

/-- A value as a part of a panel; only texts are. -/
def panelText : Value → Except Error String
  | .text s => .ok s
  | _ => .error (.wrongKind "Only str or Text can be appended to Text")

structure Metrics where
  status : Status
  elapsed : Value
  count : Value
  total : Value
  summary : Value
  deriving Repr, DecidableEq

/-- The status panel. An empty total is not shown. -/
def Metrics.render (m : Metrics) : Except Error Styled := do
  let elapsed ← Duration.ofValue m.elapsed
  let count ← m.count.toText
  let total ← if m.total.truthy then do pure [("/" ++ (← m.total.toText), Palette.numbers)]
    else pure []
  let summary ← panelText m.summary
  return Styled.ofParts ([("Status: ", Palette.dim), (m.status.text, m.status.color), ("\n", ""),
    ("Elapsed: ", Palette.dim), (elapsed, Palette.numbers), ("\n", ""),
    ("Commands: ", Palette.dim), (count, Palette.numbers)] ++ total ++
    [("\n", ""), ("Current: ", Palette.dim), (summary, Palette.foreground)])

inductive LogLine where
  | plain (s : String)
  | styled (t : Styled)
  deriving Repr, DecidableEq

structure Screen where
  log : List LogLine := []
  metrics : List Metrics := []
  info : List Styled := []
  deriving Repr

structure Dashboard where
  file : Value
  outputOverride : Value := .null
  dryRun : Bool := false
  settings : Settings := {}
  encode : Option EncodeOptions := none
  /-- Where the journal is kept, if there is one. -/
  journalPath : Option String := none
  /-- What keeps a line out of the journal, told by the number of lines before it. -/
  journalFault : Nat → Option Foreign := fun _ => none
  attached : Bool := false
  commandCount : Value := .int 0
  commandTotal : Value := .null
  summary : Value := ""
  segmentCount : Value := .null
  composedDuration : Value := .null
  startTime : Value := .null
  /-- How long the render took when it was finished first. -/
  finishTime : Value := .null
  errorText : Value := .null
  outputFile : Value := .null
  finished : Bool := false
  screen : Screen := {}
  /-- The lines of the journal, latest first. -/
  journal : List String := []

inductive Phase where
  | started
  | ended
  | other
  deriving Repr, DecidableEq

/-- What is told about a command. The number of a command and the total can be left out. -/
structure Notice where
  phase : Phase
  command : Value := ""
  index : Option Value := none
  total : Option Value := none
  returnCode : Value := .int 0
  seconds : Value := .real .zero
  diagnostic : Value := ""
  deriving Repr, DecidableEq

def Notice.ofReport : Report → Notice
  | .started command index total _ =>
    { phase := .started, command := .text command, index := some (.int index), total := some total }
  | .ended command index total returnCode seconds diagnostic _ =>
    { phase := .ended, command := .text command, index := some (.int index), total := some total
      returnCode := .int returnCode, seconds := .real seconds, diagnostic := .text diagnostic }

/-- A reaction of the dashboard; a stop leaves it as it was at that point. -/
abbrev Reaction (α : Type) := ExceptT Error (StateM Dashboard) α

def Reaction.on {α : Type} (reaction : Reaction α) (d : Dashboard) : Except Error α × Dashboard :=
  Id.run (StateT.run (ExceptT.run reaction) d)

namespace Dashboard

def since (start : Value) (now : Double) : Except Error Value := do
  return .real (now.sub (← start.toTerm "-"))

/-- How long the render has been running, or ran. A render that took no time at all is timed on. -/
def elapsed (d : Dashboard) (now : Double) : Except Error Value :=
  match d.startTime with
  | .null => .ok (.real .zero)
  | start => if d.finished && d.finishTime.truthy then .ok d.finishTime else since start now

/-- The status of the render; an error outlasts its end. -/
def status (d : Dashboard) : Status :=
  if !d.errorText.isNull then .failed else if d.finished then .done else .running

def metrics (d : Dashboard) (now : Double) : Except Error Metrics := do
  return { status := d.status, elapsed := ← d.elapsed now, count := d.commandCount
           total := d.commandTotal, summary := d.summary }

/-- A text that says that something is not known. -/
def unknown : String := "N/A"

/-- The output as it is shown: as asked for, or as found out; an empty path is none. -/
def shownOutput (d : Dashboard) : Value := d.outputOverride.orElse (d.outputFile.orElse unknown)

def info (d : Dashboard) : Except Error Styled := do
  let file ← panelText d.file
  let output ← panelText d.shownOutput
  let segments ← match d.segmentCount with
    | .null => pure (unknown, Palette.dim)
    | n => do pure (← n.toText, Palette.numbers)
  let duration ← match d.composedDuration with
    | .null => pure (unknown, Palette.dim)
    | v => do pure (← Duration.ofValue v, Palette.numbers)
  let journal := match d.journalPath with
    | none => []
    | some path => [("\n", ""), ("Debug log: ", Palette.dim), (path, Palette.paths)]
  return Styled.ofParts ([("Project: ", Palette.dim), (file, Palette.paths), ("\n", ""),
    ("Output: ", Palette.dim), (output, if output = unknown then Palette.dim else Palette.paths),
    ("\n", ""), ("Segments: ", Palette.dim), segments, ("\n", ""), ("Duration: ", Palette.dim),
    duration, ("\n", ""), ("Dry run: ", Palette.dim),
    if d.dryRun then ("yes", Palette.paths) else ("no", Palette.foreground)] ++ journal)

def ofExcept {α : Type} : Except Error α → Reaction α
  | .ok x => pure x
  | .error e => throw e

def textOf (v : Value) : Reaction String := ofExcept v.toText

/-- Adds a line to the journal, if one is kept. -/
def note (line : String) : Reaction Unit := do
  let d ← get
  if d.journalPath.isSome then
    match d.journalFault d.journal.length with
    | some fault => throw (.foreign fault)
    | none => set { d with journal := line :: d.journal }

/-- Adds a value to the journal; it is spelled out only if one is kept. -/
def noteValue (v : Value) : Reaction Unit := do
  if (← get).journalPath.isSome then note (← textOf v)

/-- Writes into the log, once it is attached. -/
def write (line : LogLine) : Reaction Unit :=
  modify fun d =>
    if d.attached then { d with screen := { d.screen with log := line :: d.screen.log } } else d

def writeStyled (s style : String) : Reaction Unit := write (.styled (Styled.ofText s style))

/-- Brings the status panel up to date, once it is attached. -/
def updateMetrics (now : Double) : Reaction Unit := do
  let d ← get
  if d.attached then
    let m ← ofExcept (d.metrics now)
    let _ ← ofExcept m.render
    set { d with screen := { d.screen with metrics := m :: d.screen.metrics } }

/-- Brings the panel with what is rendered up to date, once it is attached. -/
def updateInfo : Reaction Unit := do
  let d ← get
  if d.attached then
    let t ← ofExcept d.info
    set { d with screen := { d.screen with info := t :: d.screen.info } }

/-- The journal of a dashboard begins with its own place. -/
def opened (d : Dashboard) : Dashboard :=
  match d.journalPath with
  | none => d
  | some path => { d with journal := ["debug log: " ++ path] }

def mount (now : Double) : Reaction Unit := do
  modify fun d => { d with attached := true, startTime := .real now }
  updateInfo
  match (← get).journalPath with
  | some path => write (.plain ("debug log: " ++ path))
  | none => pure ()

def planReady (commands : Value) (now : Double) : Reaction Unit := do
  let d ← get
  if d.attached then
    write (.plain ("Compiled " ++ (← textOf d.segmentCount) ++ " segments into " ++
      (← textOf commands) ++ " command(s)"))
  note ("command total: " ++ (← textOf commands))
  updateMetrics now
  updateInfo

/-- An error stopped the render; where it arose goes to the journal only. -/
def setError (text trace : Value) : Reaction Unit := do
  modify fun d => { d with errorText := text }
  if trace.truthy then noteValue trace
  if (← get).attached then
    writeStyled ("error: " ++ (← textOf text)) (Palette.bold Palette.error)

/-- A command started. Commands are counted on from the number of the last one, which must be
there even if the new one brings its own. -/
def commandStarted (n : Notice) (summary : String) (now : Double) : Reaction Unit := do
  let next ← ofExcept (← get).commandCount.successor
  modify fun d => { d with
    commandCount := n.index.getD next
    commandTotal := n.total.getD d.commandTotal
    summary := .text summary }
  let d ← get
  let place ← ofExcept (commandPrefix d.commandCount d.commandTotal)
  if place ≠ "" then
    write (.plain "")
    writeStyled place (Palette.bold Palette.header)
  match ← ofExcept (Highlight.ofValue n.command) with
  | some line => write (.styled line)
  | none => write (.plain "")
  note ("start: " ++ (← textOf n.command))
  updateMetrics now

def commandEnded (n : Notice) (summary : String) (now : Double) : Reaction Unit := do
  let command ← textOf n.command
  if ← ofExcept n.returnCode.isNotZero then
    let head := "error (" ++ (← textOf n.returnCode) ++ "): "
    writeStyled (head ++ summary) (Palette.bold Palette.error)
    (← ofExcept (Summary.tailOf n.diagnostic)).forM fun line => writeStyled line Palette.dim
    note (head ++ command)
    noteValue n.diagnostic
  else note ("end (" ++ (← ofExcept (n.seconds.toFixed 3)) ++ "s): " ++ command)
  updateMetrics now

def hear (n : Notice) (now : Double) : Reaction Unit := do
  if (← get).attached then
    let summary ← ofExcept (Summary.ofValue n.command)
    match n.phase with
    | .started => commandStarted n summary now
    | .ended => commandEnded n summary now
    | .other => pure ()

/-- The render is finished. The time it took is that of the first end. -/
def finish (now : Double) : Reaction Unit := do
  if (← get).attached then
    modify fun d => { d with finished := true }
    let d ← get
    if !d.startTime.isNull && d.finishTime.isNull then
      let time ← ofExcept (since d.startTime now)
      modify fun d => { d with finishTime := time }
    let line ←
      if !d.errorText.isNull then pure "complete with errors"
      else if d.dryRun || d.outputFile.isNull then pure "complete"
      else do pure ("complete: " ++ (← textOf d.outputFile))
    write (.plain line)
    note line
    updateMetrics now
    updateInfo

end Dashboard

end Reel
