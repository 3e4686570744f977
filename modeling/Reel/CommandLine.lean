import Reel.Clip
import Reel.Clip.Custom
import Reel.CommandLine.Arguments
import Reel.Project

/-!
# The renderer

Renders a project, or cuts and encodes a single media file. A rejection, a defect or a failed
command is reported and makes the program exit with 1; mistakes in the arguments make it exit
with 2 before anything happens.
-/
namespace Reel

namespace CommandLine

/-- The quality of a VP9 encode that names none. -/
def defaultVp9Crf : Value := .int 31

def Arguments.encode (a : Arguments) (format : Value) : Except Error EncodeOptions := do
  return { outputFormat := ← EncodeOptions.formatOf format
           twoPass := !a.bitrate.isNull
           videoBitrate := a.bitrate
           fast := a.fast
           vp9 := !a.vp9Crf.isNull
           vp9Crf := if a.vp9Crf.isNull then defaultVp9Crf else a.vp9Crf }

/-- Renders a project, or prints its plan. -/
def renderProject [Environment] (a : Arguments) (settings : Settings) (file : Value) :
    Run Unit := do
  let loaded ← Project.load file settings none
  let format := if a.format.isNull then loaded.timeline.outputFormat else a.format
  let project := { loaded with
    outputOverride := a.output
    dryRun := a.dryRun
    keepTemp := a.keepTemp
    encode := ← Run.ofExcept (a.encode format) }
  if a.dumpPlan then
    let plan ← Project.plan.runOn project
    Run.printLine (← Run.ofExcept (Foreign.ofAnswer (Environment.documentText plan)))
  else
    let _ ← (Project.run none).runOn project

/-- The container of a clip: as asked for, or one for all that name none. -/
def Arguments.clipFormat (a : Arguments) : Value := a.format.orElse "mp4"

/-- Where a clip goes: as asked for, or to its name in the folder for outputs. -/
def clipOutput (a : Arguments) (settings : Settings) : Run Value := do
  match a.output with
  | .null =>
    let directory ← Run.ofExcept settings.processedDir
    return .text (← Run.ofExcept (outputPathFor (← Run.files) directory a.name a.clipFormat))
  | path => return path

/-- Where a two-pass encode of a clip keeps its logs: in the cache directory, or beside the
output. -/
def clipLogPlace (settings : Settings) (output : Value) : Except Error String := do
  let directory ←
    if settings.cacheDir.truthy then settings.cacheDir.toPath
    else output.toPath.map Path.dirname
  return Path.join directory ".clip-passlog"

def clipInvocations (a : Arguments) (settings : Settings) (input output : Value) :
    Run (List Invocation) := do
  let files ← Run.files
  match a.custom with
  | .null =>
    let encode ← Run.ofExcept (a.encode a.clipFormat)
    let encode ← if encode.twoPass then do
        let log ← Run.ofExcept (clipLogPlace settings output)
        pure { encode with passLogPrefix := log }
      else pure encode
    let job : ClipJob :=
      { input, output, start := a.start, finish := a.finish, encode
        options :=
          { crop := a.crop, scale := a.scale, alpha := a.alpha, fps := a.fps
            removeAudio := a.removeAudio, extractOpus := a.opus } }
    Run.ofExcept (job.invocations files)
  | template => Run.ofExcept (CustomCommand.invocations { template, input, output } files)

/-- Makes a clip, or prints the commands that would. -/
def renderClip (a : Arguments) (settings : Settings) (input : Value) : Run Unit := do
  let output ← clipOutput a settings
  let invocations ← clipInvocations a settings input output
  if a.dryRun || a.dumpPlan then
    invocations.forM fun i => do Run.printLine (← Run.ofExcept (i.commandLine settings.ffmpeg))
  else
    let _ ← Project.renderTo output (Run.passes settings.ffmpeg invocations)

def render [Environment] (input : Input) (a : Arguments) : Run Unit := do
  let settings ← Settings.load a.settings
    [("root_path", a.root), ("cache_dir", a.cacheDir), ("probe_workers", a.probeWorkers)]
  match input with
  | .project file => renderProject a settings file
  | .media path => renderClip a settings path

/-- Runs the renderer with the words of a command line. -/
def run [Environment] (words : List String) : Run Unit := do
  match Arguments.read words with
  | .error stop => throw (.exit stop.code)
  | .ok (input, a) =>
    Run.setQuiet a.quiet
    tryCatch (render input a) fun e => do
      if e.isReported then
        Run.complain ("error: " ++ e.message)
        throw (.exit 1)
      else throw e

end CommandLine

end Reel
