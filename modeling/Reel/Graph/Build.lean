import Reel.Graph
import Reel.Graph.Offsets
import Reel.Timeline.Geometry

/-!
# Compiling a timeline

Every segment becomes a node that brings its picture to one size, rate and pixel format; the
nodes are joined by one concatenation or by a left fold of cross-fades. The sound follows one
of three policies: the segments' own sound, the audio items one after the other, or silence.

The construction adds nodes to a draft, each with a freshly issued label. It asks for resolved
durations: a segment or an audio item without one is a defect of what came before.
-/
namespace Reel

def sampleRate : Int := 48000
def channelLayout : String := "stereo"
def pixelFormat : String := "yuv420p"

def silenceSource : String :=
  "anullsrc=channel_layout=" ++ channelLayout ++ ":sample_rate=" ++ toString sampleRate

/-- What was bound, issued and added so far. -/
structure Draft (α : Type) where
  labels : Allocator := {}
  inputs : List Binding := []
  nodes : List (Node α) := []

namespace Draft

variable {α : Type}

def bind (d : Draft α) (path : Value) (options : List String) (synthetic : Bool) :
    Nat × Draft α :=
  let index := d.inputs.length
  (index, { d with inputs := d.inputs ++ [{ index, path, options, synthetic }] })

def add (d : Draft α) (kind : LabelKind) (index : Option Int) (inputs : List Source)
    (filters : List (Filter α)) (offset : Option α) : Except Error (Label × Draft α) :=
  match d.labels.issue kind index with
  | .error defect => .error (.defect defect)
  | .ok (output, labels) =>
    .ok (output, { d with labels, nodes := d.nodes ++ [{ inputs, filters, output, offset }] })

end Draft

structure Picture where
  width : Int
  height : Int
  fps : Value

namespace Build

variable {α : Type}

def cut (name : String) (finish : α) : Filter α :=
  { name, positional := [.number 0, .seconds finish] }

def restartClock (name : String) : Filter α := { name, positional := [.word "PTS-STARTPTS"] }

def audioFormat : Filter α :=
  { name := "aformat"
    options := [("sample_fmts", .word "fltp"), ("sample_rates", .number sampleRate),
      ("channel_layouts", .word channelLayout)] }

def segmentFilters (p : Picture) (duration : α) : List (Filter α) :=
  [cut "trim" duration,
    restartClock "setpts",
    { name := "scale", positional := [.number p.width, .number p.height]
      options := [("force_original_aspect_ratio", .word "increase")] },
    { name := "crop", positional := [.number p.width, .number p.height] },
    { name := "fps", positional := [.literal p.fps] },
    { name := "format", positional := [.word pixelFormat] }]

/-- The filters of a sound that is cut to a duration. -/
def soundFilters (duration : α) : List (Filter α) :=
  [cut "atrim" duration, restartClock "asetpts", audioFormat]

def silence : Filter α :=
  { name := "anullsrc"
    options := [("r", .number sampleRate), ("cl", .word channelLayout)] }

def pictureFade (transition offset : α) : Filter α :=
  { name := "xfade"
    options := [("transition", .word "fade"), ("duration", .seconds transition),
      ("offset", .seconds offset)] }

def soundFade (transition : α) : Filter α :=
  { name := "acrossfade"
    options := [("d", .seconds transition), ("c1", .word "tri"), ("c2", .word "tri")] }

def alignment (finish : α) : List (Filter α) := [{ name := "apad" }, cut "atrim" finish]

def concatenation (lane : StreamKind) (count : Nat) : Filter α :=
  let (v, a) : Int × Int := match lane with
    | .video => (1, 0)
    | .audio => (0, 1)
  { name := "concat"
    options := [("n", .number count), ("v", .number v), ("a", .number a)] }

/-- The filters of an audio item, which is faded in and out. -/
def itemFilters (duration fade fadeStart : α) : List (Filter α) :=
  [cut "atrim" duration, restartClock "asetpts",
    { name := "afade"
      options := [("t", .word "in"), ("st", .number 0), ("d", .seconds fade)] },
    { name := "afade"
      options := [("t", .word "out"), ("st", .seconds fadeStart), ("d", .seconds fade)] },
    audioFormat]

/-- The filters that bring the joined picture to its final form. -/
def outputFilters (p : Picture) : List (Filter α) :=
  [{ name := "fps", positional := [.literal p.fps] },
    { name := "format", positional := [.word pixelFormat] },
    { name := "setsar", positional := [.number 1] }]

variable [Seconds α]

/-- The words that bind a segment. A still image is shown for its duration. -/
def segmentOptions (s : Segment α) : Except Error (List String) :=
  if s.isImage then do return ["-loop", "1", "-t", ← Seconds.format s.duration] else .ok []

def addPicture (p : Picture) (index : Nat) (s : Segment α) (d : Draft α) :
    Except Error (Label × Draft α) := do
  let options ← segmentOptions s
  let (input, d) := d.bind s.path options false
  d.add .videoSegment (some index) [.stream input .video] (segmentFilters p s.duration) none

/-- Adds a segment's own sound, or silence as long as the segment. Segments are bound first, so
a segment's input has its own index. -/
def addSound (index : Nat) (s : Segment α) (d : Draft α) : Except Error (Label × Draft α) :=
  if !s.isImage && s.hasAudio.truthy then
    d.add .trackAudio (some index) [.stream index .audio] (soundFilters s.duration) none
  else d.add .trackSilence (some index) [] (silence :: soundFilters s.duration) none

/-- Adds a segment's own sound if segments bring theirs. -/
def addOwnSound (ownSound : Bool) (index : Nat) (s : Segment α) (d : Draft α) :
    Except Error (List Label × Draft α) :=
  if ownSound then do
    let (sound, d) ← addSound index s d
    return ([sound], d)
  else .ok ([], d)

/-- Adds the segments from an index on; the labels of their pictures, and of their sounds if the
segments bring their own. -/
def addSegments (p : Picture) (ownSound : Bool) :
    Nat → List (Segment α) → Draft α → Except Error (List Label × List Label × Draft α)
  | _, [], d => .ok ([], [], d)
  | index, s :: rest, d => do
    let (picture, d) ← addPicture p index s d
    let (own, d) ← addOwnSound ownSound index s d
    let (pictures, sounds, d) ← addSegments p ownSound (index + 1) rest d
    return (picture :: pictures, own ++ sounds, d)

/-- Fades from the running output into the next picture. -/
def addPictureFade (transition offset : α) (index : Nat) (current next : Label) (d : Draft α) :
    Except Error (Label × Draft α) :=
  d.add .videoCrossfade (some index) [.output current, .output next]
    [pictureFade transition offset] (some offset)

/-- Fades from the running sound into the next. The running sound is padded or cut to end one
transition behind the start of the picture's fade, so that both fades start together. -/
def addSoundFade (transition offset : α) (index : Nat) (current next : Label) (d : Draft α) :
    Except Error (Label × Draft α) := do
  let (aligned, d) ← d.add .audioAlign (some index) [.output current]
    (alignment (Seconds.add offset transition)) (some offset)
  d.add .audioCrossfade (some index) [.output aligned, .output next] [soundFade transition]
    (some offset)

/-- Fades from the running output of a lane into the next. -/
def addFade : StreamKind → α → α → Nat → Label → Label → Draft α →
    Except Error (Label × Draft α)
  | .video => addPictureFade
  | .audio => addSoundFade

/-- Folds the fades over the labels that follow the running output. -/
def addFades (lane : StreamKind) (transition : α) :
    Nat → Label → List (Label × α) → Draft α → Except Error (Label × Draft α)
  | _, current, [], d => .ok (current, d)
  | index, current, (next, offset) :: rest, d => do
    let (faded, d) ← addFade lane transition offset index current next d
    addFades lane transition (index + 1) faded rest d

def addConcat (lane : StreamKind) (kind : LabelKind) (labels : List Label) (d : Draft α) :
    Except Error (Label × Draft α) :=
  d.add kind none (labels.map .output) [concatenation lane labels.length] none

/-- The length of fades where there are any. -/
def needed (transition : Option α) : Except Error α :=
  match transition with
  | some x => .ok x
  | none => .error (.wrongKind "transition measures no time")

/-- The label of all pictures, or of all the segments' sounds, one after the other. -/
def joinKind : StreamKind → LabelKind
  | .video => .videoConcat
  | .audio => .audioConcat

/-- Joins one lane; a single stream needs no node. -/
def joinLane (mode : JoinMode) (lane : StreamKind) (transition : α) (offsets : List α)
    (labels : List Label) (d : Draft α) : Except Error (Label × Draft α) :=
  match labels with
  | [] => .error (.defect .videoLabelsMissing)
  | [only] => .ok (only, d)
  | first :: rest =>
    match mode with
    | .crossfade => addFades lane transition 1 first (rest.zip offsets) d
    | .concat => addConcat lane (joinKind lane) labels d

/-- Adds the audio items from an index on, each faded in and out. -/
def addItems (transition : Option α) :
    Nat → List (AudioItem α) → Draft α → Except Error (List Label × Draft α)
  | _, [], d => .ok ([], d)
  | index, item :: rest, d => do
    let (input, d) := d.bind item.path [] false
    if Seconds.le item.duration Seconds.zero then
      throw (.defect (.audioDurationUnresolved (← item.path.toText)))
    let fade := Seconds.min (← needed transition) (Seconds.half item.duration)
    let fadeStart := Seconds.max Seconds.zero (Seconds.sub item.duration fade)
    let (label, d) ← d.add .audioItem (some index) [.stream input .audio]
      (itemFilters item.duration fade fadeStart) none
    let (labels, d) ← addItems transition (index + 1) rest d
    return (label :: labels, d)

def addAudioSequence (transition : Option α) (items : List (AudioItem α)) (d : Draft α) :
    Except Error (Label × Draft α) := do
  let (labels, d) ← addItems transition 0 items d
  match labels with
  | [only] => return (only, d)
  | labels => addConcat .audio .audioSequence labels d

def shortestSilence : α := Seconds.ofRat (1 / 2)

def addSilence (duration : α) (d : Draft α) : Except Error (Label × Draft α) := do
  let length := Seconds.max shortestSilence duration
  let (input, d) := d.bind silenceSource ["-f", "lavfi", "-t", ← Seconds.format length] true
  d.add .silenceFill none [.stream input .audio] (soundFilters length) none

def addOutput (p : Picture) (current : Label) (d : Draft α) : Except Error (Label × Draft α) :=
  d.add .videoOut none [.output current] (outputFilters p) none

/-- How long the joined picture runs: fades make consecutive segments overlap. -/
def composedDuration (mode : JoinMode) (transition : α) (durations : List α) : α :=
  let total := Seconds.sum durations
  if mode ≠ .crossfade ∨ durations.length < 2 then total
  else
    Seconds.max Seconds.zero
      (Seconds.sub total (Seconds.times (durations.length - 1) transition))

def pictureOf (t : Timeline α) : Except Error Picture := do
  return { width := ← Geometry.dimension t.width Geometry.defaultWidth
           height := ← Geometry.dimension t.height Geometry.defaultHeight
           fps := t.fps }

/-- The length of a timeline's fades; a single segment has none. -/
def fadeOf (t : Timeline α) : Except Error α :=
  if t.segments.length < 2 then .ok Seconds.zero else needed t.transition

/-- Adds the sound: the segments' own sounds, joined as the pictures are, or the audio items, or
silence. -/
def addSoundLane (t : Timeline α) (fade : α) (offsets : List α) (sounds : List Label)
    (duration : α) (d : Draft α) : Except Error (Label × Draft α) :=
  if t.useTrackAudio then joinLane t.joinMode .audio fade offsets sounds d
  else do
    let items ← t.audioSequence
    if items.isEmpty then addSilence duration d else addAudioSequence t.transition items d

end Build

/-- Compiles a timeline whose durations are resolved. -/
def Graph.build {α : Type} [Seconds α] (t : Timeline α) : Except Error (Graph α) := do
  if t.segments.isEmpty then reject .segmentsMissing
  else
    match t.segments.find? fun s => Seconds.le s.duration Seconds.zero with
    | some s => do throw (.defect (.durationUnresolved (← s.path.toText)))
    | none =>
      let picture ← Build.pictureOf t
      let fade ← Build.fadeOf t
      let durations := t.segments.map Segment.duration
      let offsets := crossfadeOffsets durations fade
      let duration := Build.composedDuration t.joinMode fade durations
      let (pictures, sounds, d) ← Build.addSegments picture t.useTrackAudio 0 t.segments {}
      let (joined, d) ← Build.joinLane t.joinMode .video fade offsets pictures d
      let (audio, d) ← Build.addSoundLane t fade offsets sounds duration d
      let (video, d) ← Build.addOutput picture joined d
      return { inputs := d.inputs, nodes := d.nodes, video, audio := some audio, duration,
               join := t.joinMode }

end Reel
