import Reel.Environment
import Reel.Timeline.Spec

/-!
# Timelines in project records

A project record is a mapping. Each field has one name and, in records that the desktop editor
wrote, further spellings; of several spellings of one field the last in the record counts. A
record gives a timeline, or the reason why it is refused.
-/
namespace Reel.Record

variable [Environment]

/-- A mapping as it was read: entries in order, keys of any kind. -/
abbrev Entries := List (Value × Value)

def projectSpellings : List (String × String) :=
  [("Name", "name"), ("Type", "type"), ("Items", "segments"), ("AudioItems", "audio"),
    ("AudioPath", "audio_path"), ("AudioDurationSeconds", "audio_duration"),
    ("UseVideoAudio", "use_track_audio"), ("UseTrackAudio", "use_track_audio"),
    ("OutputFormat", "output_format"), ("Width", "width"), ("Height", "height"), ("Fps", "fps"),
    ("TransitionSeconds", "transition"), ("SlideDurationSeconds", "slide_duration"),
    ("MaxClipDurationSeconds", "max_clip_duration"), ("JoinMode", "join")]

/-- Further spellings of the fields of a segment or an audio item. -/
def itemSpellings : List (String × String) :=
  [("Path", "file"), ("path", "file"), ("DurationSeconds", "duration"), ("Kind", "kind")]

def fieldOf (spellings : List (String × String)) : Value → Value
  | .text s => .text ((spellings.lookup s).getD s)
  | key => key

def rename (spellings : List (String × String)) (entries : Entries) : Entries :=
  entries.map fun (key, value) => (fieldOf spellings key, value)

/-- The value of a field; the last entry that spells it counts. -/
def field? (entries : Entries) (name : String) : Option Value :=
  Value.lookup? (.text name) entries

/-- The value of a field, absent fields as the absent value. -/
def field (entries : Entries) (name : String) : Value := (field? entries name).getD .null

/-- The choices of a field: names in lower case, and places in the declaration order. -/
structure Choices (α : Type) where
  names : List (String × α)
  ordinals : List α := []

def kinds : Choices MediaKind where
  names := [("video", .video), ("image", .image), ("photo", .image)]
  ordinals := [.video, .image]

def projectTypes : Choices ProjectType where
  names := [("videocollage", .videoCollage), ("video_collage", .videoCollage),
    ("collage", .videoCollage), ("slideshow", .slideShow), ("slide_show", .slideShow)]
  ordinals := [.videoCollage, .slideShow]

def joinModes : Choices JoinMode where
  names := [("concat", .concat), ("crossfade", .crossfade), ("xfade", .crossfade)]

/-- The choice that a value stands for: a name in any case with blanks around it, or a number
equal to a place. -/
def Choices.choose {α : Type} (choices : Choices α) (field : String) (given : Value) :
    Except Error α :=
  let unknown : Except Error α := do reject (.unknownChoice field (← given.toText))
  match given with
  | .text s =>
    match choices.names.lookup (Text.lower (Text.strip s)) with
    | some choice => .ok choice
    | none => unknown
  | v =>
    if v.isKey then
      match (choices.ordinals.zipIdx.find? fun (_, n) => v.sameKey (.int n)) with
      | some (choice, _) => .ok choice
      | none => unknown
    else .error (.wrongKind (match v with
      | .decimal _ => "Cannot hash a signaling NaN value"
      | v => "unhashable type: '" ++ v.kindName ++ "'"))

/-- The words that mean yes in a field for a truth value. -/
def yesWords : List String := ["1", "true", "yes", "on"]

/-- A truth value: a word, or any value that counts as true. -/
def flag : Value → Bool
  | .text s => yesWords.contains (Text.lower (Text.strip s))
  | v => v.truthy

/-- The items of a field that holds a list or is left out. -/
def items (name : String) : Value → Except Error (List Value)
  | .null => .ok []
  | .list items => .ok items
  | _ => reject (.notList name)

def videoExtensions : List String := [".mp4", ".avi", ".mkv", ".mov", ".wmv"]

def imageExtensions : List String := [".jpg", ".jpeg", ".png", ".bmp", ".gif"]

/-- What is shown by what a value leads to. Where the check for pictures ends with an error that
says what is wrong with the file, with its text or with a value, it counts as video. -/
def kindOfContent (files : Files) (path : Value) : Except Error MediaKind :=
  match Environment.requirePicture files path with
  | .ok () => .ok .image
  | .error fault =>
    match fault.family with
    | .system | .grammar | .value => .ok .video
    | .other => .error (.foreign fault)

/-- What a medium shows: told by the extension of its path, else by what it leads to. -/
def detectKind (files : Files) (path : String) : Except Error MediaKind :=
  let extension := Text.lower (Path.splitExtension path).2
  if imageExtensions.contains extension then .ok .image
  else if videoExtensions.contains extension then .ok .video
  else kindOfContent files (.text path)

/-- What a medium shows that a value leads to. Bytes have no extension that is known. -/
def detectKindAt (files : Files) : Value → Except Error MediaKind
  | .bytes content => kindOfContent files (.bytes content)
  | v => do detectKind files (← v.toPath)

/-- The entries of a segment or an audio item; a path alone stands for its file. -/
def itemEntries (refused : Rejection) : Value → Except Error Entries
  | .text path => .ok [(.text "file", .text path)]
  | .map entries => .ok (rename itemSpellings entries)
  | _ => reject refused

/-- The file of an item, as it is given. A blank text names none. -/
def itemFile (refused : Rejection) (entries : Entries) : Except Error String :=
  match field entries "file" with
  | .null => reject refused
  | file => do
    let path ← file.toText
    if Text.blank path then reject refused else return path

/-- The kind of a segment: as it is given, or told by its file. -/
def segmentKind (files : Files) (entries : Entries) (path : String) : Except Error MediaKind :=
  match field entries "kind" with
  | .null => detectKind files path
  | kind => kinds.choose "segment kind" kind

def segment (files : Files) (given : Value) : Except Error (Segment Double) := do
  let entries ← itemEntries .segmentEntry given
  let path ← Files.expandHome (← itemFile .segmentFile entries)
  let kind ← segmentKind files entries path
  let duration ← Timecode.secondsOr (.real .zero) (field entries "duration")
  Segment.ofValue path kind (.real duration) .null

def audioItem (given : Value) : Except Error (AudioItem Double) := do
  let entries ← itemEntries .audioEntry given
  let file ← itemFile .audioFile entries
  let duration ← Timecode.secondsOr (.real .zero) (field entries "duration")
  let path ← Files.expandHome file
  AudioItem.ofValue path (.real duration)

/-- The dimensions of a project: the two items of a resolution, or two fields. -/
def dimensions (entries : Entries) : Except Error (Value × Value) :=
  match field entries "resolution" with
  | .null =>
    .ok ((field? entries "width").getD (.int Geometry.defaultWidth),
      (field? entries "height").getD (.int Geometry.defaultHeight))
  | .list [width, height] => .ok (width, height)
  | _ => reject .resolution

def choice? {α : Type} (choices : Choices α) (entries : Entries) (name : String) :
    Except Error (Option α) :=
  match field entries name with
  | .null => .ok none
  | v => (choices.choose name v).map some

def timeline (files : Files) (record : Entries) : Except Error (Timeline Double) := do
  let entries := rename projectSpellings record
  let (width, height) ← dimensions entries
  let segments ← (← items "segments" (field entries "segments")).mapM (segment files)
  let audioItems ← (← items "audio" (field entries "audio")).mapM audioItem
  let join ← choice? joinModes entries "join"
  let projectType ← choice? projectTypes entries "type"
  let name ← ((field entries "name").orElse "").toText
  let audioDuration ← Timecode.secondsOr (.real .zero) (field entries "audio_duration")
  let transition ← Timecode.secondsOr (.real defaultTransition) (field entries "transition")
  let slide ← Timecode.secondsOr (.real defaultSlide) (field entries "slide_duration")
  let maxClip ← Timecode.secondsOr (.real .zero) (field entries "max_clip_duration")
  Timeline.ofSpec {
    name
    projectType := projectType.getD .videoCollage
    segments, audioItems
    audioPath := field entries "audio_path"
    audioDuration := .real audioDuration
    useTrackAudio := .bool (flag ((field? entries "use_track_audio").getD (.bool true)))
    width, height
    fps := (field? entries "fps").getD (.int Geometry.defaultFps)
    transition := .real transition
    slide := .real slide
    maxClip := .real maxClip
    outputFormat := (field? entries "output_format").getD (.text defaultFormat)
    join }

/-- The timeline of a value; only a mapping is a record. -/
def timelineOf (files : Files) : Value → Except Error (Timeline Double)
  | .map entries => timeline files entries
  | v => .error (.lacks v "items")

end Reel.Record
