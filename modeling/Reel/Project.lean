import Reel.FileName
import Reel.Graph.Build
import Reel.Graph.Command
import Reel.Graph.Describe
import Reel.Host.Probe
import Reel.Pipeline
import Reel.Project.PassLog
import Reel.Settings

/-!
# Projects

A project is a timeline with all that is needed to render it. It is validated before any program
starts, then its durations are resolved, its graph is built, and the graph becomes commands. A
dry run stops there. What was reached before a stop, be it the resolved timeline or the graph,
stays with the project.
-/
namespace Reel

/-- A project that can be rendered. The programs and the number of probes at once are those of
the settings it was opened with. -/
structure Project where
  timeline : Timeline Double
  settings : Settings
  encode : EncodeOptions
  /-- The output that is asked for in place of the project's own. -/
  outputOverride : Value := .null
  dryRun : Bool := false
  keepTemp : Bool := false
  probeProgram : Value
  probeWorkers : Int
  encoderProgram : Value
  resolved : Option (Timeline Double) := none
  graph : Option (Graph Double) := none

/-- A computation on a project and the machine; a stop leaves both as they were at that point. -/
abbrev Work (α : Type) := ExceptT Error (StateT Project (StateM Host)) α

namespace Work

/-- A computation that does not look at the project. -/
def ofRun {α : Type} (run : Run α) : Work α := ExceptT.mk fun project => fun host =>
  let (outcome, host) := run.on host
  ((outcome, project), host)

def ofExcept {α : Type} (r : Except Error α) : Work α := ofRun (Run.ofExcept r)

def on {α : Type} (work : Work α) (project : Project) (host : Host) :
    Except Error α × Project × Host :=
  let ((outcome, project), host) := Id.run (StateT.run (StateT.run (ExceptT.run work) project) host)
  (outcome, project, host)

/-- Runs the computation on a project that is dropped afterwards. -/
def runOn {α : Type} (work : Work α) (project : Project) : Run α := ExceptT.mk fun host =>
  let (outcome, _, host) := work.on project host
  (outcome, host)

end Work

namespace Project

/-- The project of a timeline. Without encoding options, those of the timeline's format. -/
def ofTimeline (timeline : Timeline Double) (settings : Settings)
    (encode : Option EncodeOptions) : Except Error Project := do
  let encode ← match encode with
    | some encode => pure encode
    | none => do pure { outputFormat := ← EncodeOptions.formatOf timeline.outputFormat }
  return { timeline, settings, encode
           probeProgram := settings.ffprobe
           probeWorkers := settings.probeWorkers
           encoderProgram := settings.ffmpeg }

def load [Environment] (file : Value) (settings : Settings) (encode : Option EncodeOptions) :
    Run Project :=
  match file with
  | .null => Run.rejected .projectMissing
  | path => do Run.ofExcept (ofTimeline (← Timeline.loadAt path) settings encode)

/-- The name of the output file in the folder for outputs. -/
def outputName (p : Project) : Except Error String := do
  return (← p.timeline.name.toText) ++ "." ++ p.encode.outputFormat

/-- Where the output goes: as asked for, or to the project's name in the folder for outputs. -/
def outputPath (p : Project) : Except Error Value :=
  match p.outputOverride with
  | .null => do
    let name ← p.outputName
    return .text (Path.join (← p.settings.processedDir) name)
  | path => .ok path

/-- Refuses a name that can be no file's. -/
def validateName (name : Value) : Except Error Unit := do
  let missing := match name with
    | .null => true
    | .text s => Text.blank s
    | _ => false
  if missing then reject .projectNameMissing
  else if ← FileName.isValidValue name then return ()
  else reject (.projectNameInvalid (← name.toText))

/-- Refuses the first file of a list that is not there. -/
def requireFiles (files : Files) (cause : String → Rejection) : List Value → Except Error Unit
  | [] => .ok ()
  | path :: rest => do
    if ← files.isFileAt path then requireFiles files cause rest
    else reject (cause (← path.toText))

/-- Refuses a project that cannot be rendered: without a usable name or a segment, with a file
that is missing, options that do not fit, or an output that exists. -/
def validate (p : Project) (files : Files) : Except Error Unit := do
  validateName p.timeline.name
  if p.timeline.segments.isEmpty then reject .segmentsMissing
  requireFiles files .timelineFileMissing (p.timeline.segments.map Segment.path)
  unless p.timeline.useTrackAudio do
    requireFiles files .audioFileMissing ((← p.timeline.audioSequence).map AudioItem.path)
  p.encode.validate
  let output ← p.outputPath
  if ← files.existsAt output then reject (.outputExists (← output.toText))

/-- Where a two-pass encode keeps its logs: in the cache directory, or beside the output. -/
def passLogPlace (p : Project) (output : Value) : Except Error String := do
  let directory ← match p.settings.cacheDir with
    | .null => output.toPath.map fun path => .text (Path.dirname path)
    | given => .ok given
  let name := "." ++ (← p.timeline.name.toText) ++ "-passlog"
  return Path.join (← directory.toPath) name

def commandTotal (p : Project) : Nat := if p.encode.twoPass then 2 else 1

def compile : Work (List Invocation) := do
  let p ← get
  Work.ofRun do Run.ofExcept (p.validate (← Run.files))
  let resolved ← Work.ofRun ((Prober.ofProgram p.probeProgram).resolve p.probeWorkers p.timeline)
  modify fun p => { p with resolved := some resolved }
  let graph ← Work.ofExcept (Graph.build resolved)
  modify fun p => { p with graph := some graph }
  let output ← Work.ofExcept p.outputPath
  if p.encode.twoPass && p.encode.passLogPrefix.isNull then
    let log ← Work.ofExcept (p.passLogPlace output)
    modify fun p => { p with encode := { p.encode with passLogPrefix := log } }
  Work.ofExcept (graph.invocations (← get).encode output nullDevice)

/-- What a render would do: the output, the graph and the command lines. -/
def plan : Work Value := do
  let invocations ← compile
  let p ← get
  Work.ofExcept do
    let output ← p.outputPath
    let graph ← match p.graph with
      | some g => g.describe
      | none => pure .null
    let commands ← invocations.mapM fun i => i.commandLine p.settings.ffmpeg
    return .record [("project", p.timeline.name), ("output", output), ("graph", graph),
      ("commands", .texts commands)]

def rehearse (program : Value) (invocations : List Invocation) : Run Unit := do
  unless (← get).quiet do
    invocations.forM fun i => do Run.printLine (← Run.ofExcept (i.commandLine program))
    Run.printLine "dry run: validation complete"

/-- Runs invocations and takes the logs of the passes away, also if a start is refused. -/
def runPasses (p : Project) (invocations : List Invocation) : Run PipelineResult := do
  let clean : Run Unit := do
    unless p.keepTemp do
      let files ← Run.ofExcept (PassLog.clearAt (← Run.files) p.encode.passLogPrefix)
      modify fun host => { host with files }
  let result ← tryCatch (Run.passes p.encoderProgram invocations) fun e => do
    clean
    throw e
  clean
  return result

/-- Makes the directory of a path that a value is, unless it is there. Bytes are the path that
they hold. -/
def makeDirectoryOf (output : Value) : Run Unit := do
  let (path, written) : String × (String → Value) ← match output with
    | .bytes content =>
      pure ((Files.pathIn? content).getD "", fun path => .bytes (Text.encode path))
    | v => pure (← Run.ofExcept v.toPath, .text)
  let directory := Path.dirname path
  unless directory = "" || (← Run.files).exists? directory do Run.makePath directory written

/-- Renders into a path whose directory is made if it is not there. -/
def renderTo (output : Value) (passes : Run PipelineResult) : Run PipelineResult := do
  makeDirectoryOf output
  let result ← passes
  Run.ofExcept result.requireOk
  Run.echo ("mpv " ++ (← Run.ofExcept output.toText))
  return result

/-- Renders the project, with invocations compiled before or new ones. A dry run has no
result. -/
def run (given : Option (List Invocation)) : Work (Option PipelineResult) := do
  let invocations ← match given with
    | some invocations => pure invocations
    | none => compile
  let p ← get
  if p.dryRun then
    Work.ofRun (rehearse p.settings.ffmpeg invocations)
    return none
  else
    let output ← Work.ofExcept p.outputPath
    return some (← Work.ofRun (renderTo output (p.runPasses invocations)))

end Project

end Reel
