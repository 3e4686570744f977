import Reel.Host
import Reel.Value.Spelling

/-!
# Logs of a two-pass encode

The first pass leaves its findings in files whose paths begin with a place that the options
name. They are taken away by that beginning: every file of the directory, and no directory,
whose name starts with the base name of the place.
-/
namespace Reel.PassLog

/-- The directory that a path names, the working directory for the empty one. -/
def directoryPlace? (files : Files) (path : String) : Option Place :=
  if path = "" then some [] else files.place? path

/-- Whether a listed file belongs to a log whose base name is given. A hidden file belongs only
to a log that names its dot. -/
def belongs (base : String) (entry : Place × Stored) : Bool :=
  let name := (entry.1.getLastD "").toList
  entry.2 != .directory && base.toList.isPrefixOf name &&
    (base != "" || name.head? != some '.')

def places (files : Files) (log : String) : List Place :=
  match directoryPlace? files (Path.dirname log) with
  | none => []
  | some directory =>
    ((files.children directory).filter (belongs (Path.basename log))).map (·.1)

def clear (files : Files) (log : String) : Files :=
  (places files log).foldl Files.remove files

/-- Whether a directory cannot be searched: its name holds the zero character, and nothing that
other names would be compared with. -/
def isUnsearchable (directory : String) : Bool :=
  let cs := directory.toList
  cs.contains '\x00' && !cs.any ['*', '?', '['].contains

/-- Takes the log files away whose place a value names; an absent one names none, and what is no
text can name none. -/
def clearAt (files : Files) : Value → Except Error Files
  | .null => .ok files
  | .bytes _ => .error (.wrongKind "can't concat str to bytes")
  | v => do
    let log ← v.toPath
    if isUnsearchable (Path.dirname log) then throw .zeroInside else return clear files log

end Reel.PassLog
