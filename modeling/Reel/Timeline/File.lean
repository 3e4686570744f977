import Reel.Host
import Reel.Timeline.Record

/-!
# Project and settings files

A file of this kind holds one document. The byte order mark that a project file may begin with is
passed over.
-/
namespace Reel

def projectSizeLimit : Nat := 10000000

variable [Environment]

/-- The document in a file. `marked` allows a byte order mark, and `written` is the path as the
caller writes it. -/
def documentIn (marked : Bool) (path : String) (written : Value) : Run Value := do
  let files ← Run.files
  match files.locate path, files.node? path with
  | .error fault, _ => throw (.file fault written)
  | .ok _, none => throw (.file .missing written)
  | .ok _, some .directory => throw (.file .isDirectory written)
  | .ok _, some stored => Run.ofExcept (Foreign.ofAnswer
      (Environment.document marked written.shown stored.bytes))

def requireExists (path : Value) : Run Unit := do
  unless ← Run.ofExcept ((← Run.files).existsAt path) do
    Run.rejected (.fileMissing (← Run.ofExcept path.toText))

/-- Reads the timeline of a project file; a timeline without a name takes that of the file.
`written` makes a value of a text as the caller writes paths. -/
def Timeline.load (path : String) (written : String → Value) : Run (Timeline Double) := do
  let files ← Run.files
  if projectSizeLimit < ((files.node? path).map Files.size).getD 0 then
    Run.rejected .projectTooLarge
  match ← documentIn true path (written path) with
  | .map entries =>
    let timeline ← Run.ofExcept (Record.timeline files entries)
    if timeline.name.text? = some "" then
      return { timeline with name := written (Path.splitExtension (Path.basename path)).1 }
    else return timeline
  | _ => Run.rejected .projectNotMapping

/-- Reads the timeline of the project file that a value leads to. What is no path leads to none
that could be read. -/
def Timeline.loadAt (path : Value) : Run (Timeline Double) := do
  requireExists path
  match path with
  | .text path => Timeline.load path .text
  | .bytes content =>
    Timeline.load ((Files.pathIn? content).getD "") fun path => .bytes (Text.encode path)
  | _ => throw (.unreadable "[Errno 9] Bad file descriptor")

end Reel
