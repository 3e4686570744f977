import Reel.Timeline.File
import Reel.Value.Number

/-!
# Settings

Where projects live, which programs are used, how many probes run at once. Settings come from a
file, which may be missing if nobody named it, and each can be overridden. Values are kept as
they are written in the file.
-/
namespace Reel

structure Settings where
  rootPath : Value := .null
  ffmpeg : Value := .text "ffmpeg"
  ffprobe : Value := .text "ffprobe"
  probeWorkers : Int := 1
  cacheDir : Value := .null
  deriving Repr, Inhabited

namespace Settings

/-- Settings from values of any kind; there is at least one probe worker. -/
def ofValues (rootPath ffmpeg ffprobe probeWorkers cacheDir : Value) : Except Error Settings := do
  return { rootPath, ffmpeg, ffprobe, probeWorkers := max 1 (← probeWorkers.toWhole), cacheDir }

def managerName : String := "TrackManager"

/-- The folder for one purpose, below a root that must be set. -/
def managerDir (s : Settings) : Except Error String :=
  if s.rootPath.isNull then reject .rootMissing
  else do
    if Text.blank (← s.rootPath.toText) then reject .rootMissing
    else return Path.join (← s.rootPath.toPath) managerName

def queueDir (s : Settings) : Except Error String := do
  return Path.join (← s.managerDir) "Queue"

def processedDir (s : Settings) : Except Error String := do
  return Path.join (← s.managerDir) "Processed"

def projectsDir (s : Settings) : Except Error String := do
  return Path.join (← s.managerDir) "Projects"

/-- The folder for outputs, made if it is not there. -/
def ensureProcessedDir (s : Settings) : Run String := do
  let path ← Run.ofExcept s.processedDir
  unless (← Run.files).exists? path do Run.makePath path .text
  return path

/-- The settings file that is read if none is named. -/
def defaultFile : String := "~/.config/montage/settings.yml"

/-- The names under which settings can be overridden. -/
def overridable : List String :=
  ["root_path", "ffmpeg_bin", "ffprobe_bin", "probe_workers", "cache_dir"]

/-- Overrides settings; an absent value overrides nothing. -/
def override (values : List (String × Value)) :
    List (String × Value) → Except Error (List (String × Value))
  | [] => .ok values
  | (name, v) :: rest =>
    if overridable.contains name then
      override (if v.isNull then values
        else values.map fun (n, old) => if n = name then (n, v) else (n, old)) rest
    else .error (.unknownSetting name)

/-- The name that the settings file itself goes by; it cannot override anything. -/
def fileName : String := "settings_file"

/-- The entries of a settings file; an empty or void document has none. -/
def entriesOf : Value → Run (List (Value × Value))
  | .map entries => pure entries
  | v => if v.truthy then Run.rejected .settingsNotMapping else pure []

variable [Environment]

/-- The path of a settings file, in the home directory if it begins with a tilde. Bytes are the
path that they hold. -/
def pathOf : Value → Except Error String
  | .null => Files.expandHome defaultFile
  | .text path => Files.expandHome path
  | .bytes content => Files.expandHome ((Files.pathIn? content).getD "")
  | v => v.toPath

/-- The path of a settings file as the caller writes it. -/
def pathWritten (file : Value) (path : String) : Value :=
  match file with
  | .bytes _ => .bytes (Text.encode path)
  | _ => path

/-- Reads settings from the named file, or from the default one if it is there. -/
def load (file : Value) (overrides : List (String × Value)) : Run Settings := do
  if overrides.any fun entry => entry.1 == fileName then
    throw (.wrongKind ("got multiple values for argument '" ++ fileName ++ "'"))
  let path ← Run.ofExcept (pathOf file)
  let entries ←
    if (← Run.files).exists? path then entriesOf (← documentIn false path (pathWritten file path))
    else if file.isNull then pure []
    else Run.rejected (.settingsMissing (pathWritten file path).shown)
  let field (name : String) (default : Value) : Value :=
    (Value.lookup? (.text name) entries).getD default
  let values ← Run.ofExcept (override
    [("root_path", field "root_path" .null), ("ffmpeg_bin", field "ffmpeg" (.text "ffmpeg")),
      ("ffprobe_bin", field "ffprobe" (.text "ffprobe")),
      ("probe_workers", field "probe_workers" (.int 1)),
      ("cache_dir", field "cache_dir" .null)] overrides)
  let value (name : String) : Value := (values.lookup name).getD .null
  Run.ofExcept (ofValues (value "root_path") (value "ffmpeg_bin") (value "ffprobe_bin")
    (value "probe_workers") (value "cache_dir"))

end Settings

end Reel
