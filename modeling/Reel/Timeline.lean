import Reel.Seconds
import Reel.Text.Blank

/-!
# Timelines

A timeline is the data of one render: the segments in playback order, the plan for the
soundtrack, and the geometry. Numbers of seconds are of any kind that measures time; fields
that are only handed on, or that a caller may overwrite with anything, are kept as values.
-/
namespace Reel

inductive MediaKind where
  | video
  | image
  deriving Repr, DecidableEq

def MediaKind.text : MediaKind → String
  | .video => "Video"
  | .image => "Image"

/-- What kind of project the timeline belongs to. -/
inductive ProjectType where
  | videoCollage
  | slideShow
  deriving Repr, DecidableEq

def ProjectType.text : ProjectType → String
  | .videoCollage => "VideoCollage"
  | .slideShow => "SlideShow"

inductive JoinMode where
  | concat
  | crossfade
  deriving Repr, DecidableEq

def JoinMode.text : JoinMode → String
  | .concat => "concat"
  | .crossfade => "crossfade"

/-- One piece of the picture lane. Whether the medium has sound is known after probing. -/
structure Segment (α : Type) where
  path : Value
  kind : MediaKind := .video
  duration : α
  hasAudio : Value := .null
  deriving Repr

def Segment.isImage {α : Type} (s : Segment α) : Bool := s.kind == .image

structure AudioItem (α : Type) where
  path : Value
  duration : α
  deriving Repr

structure Timeline (α : Type) where
  name : Value
  projectType : ProjectType
  segments : List (Segment α)
  audioItems : List (AudioItem α)
  /-- The only audio file of records that have no list of items. -/
  audioPath : Value
  audioDuration : α
  /-- Segments bring their own sound. -/
  useTrackAudio : Bool
  width : Value
  height : Value
  fps : Value
  /-- How long fades are; nothing if what a caller put here measures no time. -/
  transition : Option α
  slide : α
  maxClip : α
  outputFormat : Value
  join : Option JoinMode
  deriving Repr

namespace Timeline

variable {α : Type}

/-- How segments are joined: as asked for, or as the type of project suggests. -/
def joinMode (t : Timeline α) : JoinMode :=
  match t.join with
  | some mode => mode
  | none => match t.projectType with
    | .slideShow => .crossfade
    | .videoCollage => .concat

/-- The audio items, or the single audio file of older records as the only item. -/
def audioSequence [Seconds α] (t : Timeline α) : Except Error (List (AudioItem α)) :=
  if t.audioItems.isEmpty then
    match t.audioPath with
    | .null => .ok []
    | .text path =>
      if Text.blank path then .ok [] else .ok [⟨path, Seconds.unsigned t.audioDuration⟩]
    | .bytes content => .ok [⟨.bytes content, Seconds.unsigned t.audioDuration⟩]
    | v => .error (.lacks v "strip")
  else .ok t.audioItems

end Timeline

end Reel
