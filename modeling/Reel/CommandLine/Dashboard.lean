import Reel.CommandLine.Arguments
import Reel.Dashboard.Live

/-!
# The command line of the dashboard

Opens the dashboard of a project. Encoding options are made only if some are asked for; their
format is that of the project, which is read for it before the dashboard starts.
-/
namespace Reel.CommandLine

variable [Environment]

/-- The encoding options that the arguments ask for, if any. -/
def DashboardArguments.encode (a : DashboardArguments) (settings : Settings) :
    Run (Option EncodeOptions) := do
  if !a.bitrate.isNull || a.fast then
    let project ← Project.load a.project settings none
    return some
      { outputFormat := ← Run.ofExcept (EncodeOptions.formatOf project.timeline.outputFormat)
        twoPass := !a.bitrate.isNull
        videoBitrate := a.bitrate
        fast := a.fast }
  else return none

def journalIn (directory : String) : String := Path.join directory "montage_tui.log"

/-- The dashboard that the words of a command line ask for. -/
def openDashboard (directory : String) (words : List String) : Run Dashboard := do
  match DashboardArguments.read words with
  | .error stop => throw (.exit stop.code)
  | .ok a =>
    let settings ← Settings.load a.settings [("root_path", a.root)]
    return Dashboard.opened
      { file := a.project, outputOverride := a.output, dryRun := a.dryRun, settings
        encode := ← a.encode settings
        journalPath := if a.debug then some (journalIn directory) else none }

end Reel.CommandLine
