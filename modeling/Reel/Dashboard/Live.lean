import Reel.Dashboard
import Reel.Project

/-!
# Rendering under the dashboard

The dashboard renders its project silently, in a thread of its own, and follows it by the reports of
its commands. Each call from there to the dashboard can fail. What stops the render is shown; the
machine is left without announcement, listener or silence.
-/
namespace Reel

inductive Call where
  | planReady (commands : Value)
  | command (report : Report)
  | setError (text trace : Value)
  | finish
  deriving Repr, DecidableEq

def Call.reaction : Call → Double → Reaction Unit
  | .planReady commands, now => Dashboard.planReady commands now
  | .command r, now => Dashboard.hear (Notice.ofReport r) now
  | .setError text trace, _ => Dashboard.setError text trace
  | .finish, now => Dashboard.finish now

/-- How a call goes. -/
inductive Fate where
  /-- The dashboard reacts, and what stops it is raised in the render. -/
  | answered
  /-- Something else goes wrong on the way, in the dashboard, or on the way back. -/
  | failed (fault : Foreign) (left : Dashboard → Dashboard)

/-- The dashboard as the thread of a render finds it. -/
structure Display where
  dashboard : Dashboard
  /-- How a call goes, told by the number of calls before it. -/
  fate : Nat → Fate := fun _ => .answered
  /-- The calls so far, latest first. -/
  calls : List Call := []

namespace Display

def call (s : Display) (c : Call) (now : Double) : Except Error Unit × Display :=
  let (outcome, dashboard) := match s.fate s.calls.length with
    | .answered => (c.reaction now).on s.dashboard
    | .failed fault left => (.error (.foreign fault), left s.dashboard)
  (outcome, { s with dashboard, calls := c :: s.calls })

def timeOf : Report → Double
  | .started _ _ _ time => time
  | .ended _ _ _ _ _ _ time => time

/-- The display once it was told reports, the latest first. -/
def told (s : Display) : List Report → Display
  | [] => s
  | r :: earlier => ((s.told earlier).call (.command r) (timeOf r)).2

/-- The dashboard as a listener: what goes wrong when it is told the latest report stops the
program. -/
def listener (s : Display) : Listener
  | [] => .ok ()
  | r :: earlier => ((s.told earlier).call (.command r) (timeOf r)).1

end Display

abbrev Live (α : Type) := ExceptT Error (StateT Display (StateM Host)) α

namespace Live

variable {α : Type}

def on (live : Live α) (s : Display) (host : Host) : Except Error α × Display × Host :=
  let ((outcome, s), host) := Id.run (StateT.run (StateT.run (ExceptT.run live) s) host)
  (outcome, s, host)

/-- A computation that does not look at the display. -/
def ofRun (run : Run α) : Live α := ExceptT.mk fun s => fun host =>
  let (outcome, host) := run.on host
  ((outcome, s), host)

/-- A reaction of the dashboard in its own thread, at the machine's time. -/
def react (reaction : Double → Reaction α) : Live α := ExceptT.mk fun s => fun host =>
  let (outcome, dashboard) := (reaction host.clock).on s.dashboard
  ((outcome, { s with dashboard }), host)

def call (c : Call) : Live Unit := ExceptT.mk fun s => fun host => (s.call c host.clock, host)

def update (f : Dashboard → Dashboard) : Live Unit :=
  modify fun s => { s with dashboard := f s.dashboard }

def attempt (live : Live α) : Live (Except Error α) := ExceptT.mk fun s => fun host =>
  let (outcome, s, host) := live.on s host
  ((.ok outcome, s), host)

/-- Goes on, or stops, as something ended. -/
def ofExcept (r : Except Error α) : Live α := ofRun (Run.ofExcept r)

end Live

namespace Dashboard

/-- Runs a computation that the dashboard listens to. Every report that it sends is a call, also one
that stops it. -/
def following {α : Type} (run : Run α) : Live α := do
  let s ← (get : Live Display)
  let earlier := (← (Live.ofRun get : Live Host)).reports
  Live.ofRun do
    modify fun host => { host with reports := [] }
    Run.setListener (some s.listener)
  let outcome ← Live.attempt (Live.ofRun run)
  let reports := (← (Live.ofRun get : Live Host)).reports
  Live.ofRun do
    modify fun host => { host with reports := reports ++ earlier }
    Run.setListener none
  set (s.told reports)
  Live.ofExcept outcome

/-- Opens the dashboard on a machine, where its journal is a file from then on. -/
def openOn (d : Dashboard) : Run Dashboard := do
  match d.journalPath with
  | none => return d.opened
  | some path =>
    if (← Run.files).node? path = some .directory then throw (.file .isDirectory path)
    else
      modify fun host => { host with files := host.files.write path (.file []) }
      return d.opened

/-- Runs a computation on a project that goes on being used, however the computation ends. -/
def withProject {α : Type} (work : Work α) (project : Project) : Run (Except Error α × Project) :=
  ExceptT.mk fun host =>
    let (outcome, project, host) := work.on project host
    (.ok (outcome, project), host)

/-- Keeps what a project has set in the encoding options, if they are the dashboard's own. -/
def keepEncode (project : Project) (d : Dashboard) : Dashboard :=
  { d with encode := d.encode.map fun _ => project.encode }

/-- Compiles and renders a project whose output goes to a path. -/
def proceed (project : Project) (output : Value) : Live Unit := do
  let total : Value := .int project.commandTotal
  Live.update fun d => { d with outputFile := output, commandTotal := total }
  Live.ofRun (Run.setTotal total)
  let (outcome, project) ← Live.ofRun (withProject Project.compile project)
  Live.update (keepEncode project)
  let invocations ← Live.ofExcept outcome
  Live.update fun d => { d with
    segmentCount := match project.resolved with
      | some t => .int t.segments.length
      | none => .null
    composedDuration := match project.graph with
      | some g => .real g.duration
      | none => .null }
  Live.call (.planReady (.int invocations.length))
  let _ ← following (Work.runOn (Project.run (some invocations)) project)

variable [Environment]

def openProject (d : Dashboard) : Run Project := do
  let project ← Project.load d.file d.settings d.encode
  return { project with outputOverride := d.outputOverride, dryRun := d.dryRun }

def renderProject : Live Unit := do
  let project ← Live.ofRun (openProject (← get).dashboard)
  let output ← Live.ofExcept project.outputPath
  proceed project output

/-- Renders the project and shows how that ended, whatever goes wrong. `trace` tells where an error
arose. -/
def perform (trace : String) : Live Unit := do
  Live.ofRun (Run.setQuiet true)
  let stopped ← Live.attempt
    (tryCatch renderProject fun e => Live.call (.setError (.text e.message) (.text trace)))
  Live.ofRun do
    Run.setTotal .null
    Run.setListener none
    Run.setQuiet false
  Live.call .finish
  Live.ofExcept stopped

def start (trace : String) : Live Unit := do
  Live.react mount
  perform trace

end Dashboard

end Reel
