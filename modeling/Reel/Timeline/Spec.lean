import Reel.Text.Case
import Reel.Timeline
import Reel.Timeline.Geometry

/-!
# Making a timeline

A timeline is made from fields of any kind. Times become numbers of seconds, dimensions become
even, the rate positive and the format lower case, so that what is built on a timeline need not
look at its fields again.
-/
namespace Reel

def shortestTransition : Double := Double.round (1 / 10)

/-- The transition of a timeline that names none. -/
def defaultTransition : Double := Double.round 1

def defaultSlide : Double := Double.round 3

def defaultFormat : String := "mp4"

/-- The length of a transition: the default for an absent value, never below the shortest. -/
def Transition.ofValue : Value → Except Error Double
  | .null => .ok defaultTransition
  | v => do return Seconds.max shortestTransition (← v.toDouble)

/-- The format that a value names, in lower case; the default for an empty or absent one. -/
def OutputFormat.ofValue (v : Value) : Except Error String := do
  return Text.lower (← (v.orElse defaultFormat).toText)

def Segment.ofValue (path : Value) (kind : MediaKind) (duration hasAudio : Value) :
    Except Error (Segment Double) := do
  return { path, kind, duration := ← duration.toDoubleOrZero, hasAudio }

def AudioItem.ofValue (path duration : Value) : Except Error (AudioItem Double) := do
  return { path, duration := ← duration.toDoubleOrZero }

/-- The fields of a timeline as a caller gives them. -/
structure TimelineSpec where
  name : Value := .text ""
  projectType : ProjectType := .videoCollage
  segments : List (Segment Double) := []
  audioItems : List (AudioItem Double) := []
  audioPath : Value := .null
  audioDuration : Value := .real .zero
  useTrackAudio : Value := .bool true
  width : Value := .int Geometry.defaultWidth
  height : Value := .int Geometry.defaultHeight
  fps : Value := .int Geometry.defaultFps
  transition : Value := .real defaultTransition
  slide : Value := .real defaultSlide
  maxClip : Value := .real .zero
  outputFormat : Value := .text defaultFormat
  join : Option JoinMode := none

def Timeline.ofSpec (spec : TimelineSpec) : Except Error (Timeline Double) := do
  return {
    name := spec.name
    projectType := spec.projectType
    segments := spec.segments
    audioItems := spec.audioItems
    audioPath := spec.audioPath
    audioDuration := ← spec.audioDuration.toDoubleOrZero
    useTrackAudio := spec.useTrackAudio.truthy
    width := .int (← Geometry.dimension spec.width Geometry.defaultWidth)
    height := .int (← Geometry.dimension spec.height Geometry.defaultHeight)
    fps := .int (← Geometry.frameRate spec.fps)
    transition := some (← Transition.ofValue spec.transition)
    slide := ← spec.slide.toDouble
    maxClip := Seconds.max .zero (← spec.maxClip.toDoubleOrZero)
    outputFormat := .text (← OutputFormat.ofValue spec.outputFormat)
    join := spec.join }

end Reel
