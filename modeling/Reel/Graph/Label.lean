import Reel.Value.Spelling

/-!
# Labels of a filter graph

Every node of a graph names its output by a label. A kind of label either counts its members
or has one member only, and an allocator issues each text once, in the order of the nodes. A
refused request leaves the allocator as it was.
-/
namespace Reel

inductive LabelKind where
  | videoSegment
  | trackAudio
  | trackSilence
  | audioItem
  | videoCrossfade
  | audioCrossfade
  | audioAlign
  | videoConcat
  | audioConcat
  | audioSequence
  | silenceFill
  | videoOut
  deriving Repr, DecidableEq

namespace LabelKind

def all : List LabelKind :=
  [.videoSegment, .trackAudio, .trackSilence, .audioItem, .videoCrossfade, .audioCrossfade,
    .audioAlign, .videoConcat, .audioConcat, .audioSequence, .silenceFill, .videoOut]

theorem mem_all (kind : LabelKind) : kind ∈ all := by cases kind <;> decide

def stem : LabelKind → String
  | .videoSegment => "v"
  | .trackAudio => "a"
  | .trackSilence => "asil"
  | .audioItem => "aseq"
  | .videoCrossfade => "xv"
  | .audioCrossfade => "xa"
  | .audioAlign => "xpad"
  | .videoConcat => "vcat"
  | .audioConcat => "acat"
  | .audioSequence => "audio"
  | .silenceFill => "silent"
  | .videoOut => "vout"

def name : LabelKind → String
  | .videoSegment => "VIDEO_SEGMENT"
  | .trackAudio => "TRACK_AUDIO"
  | .trackSilence => "TRACK_SILENCE"
  | .audioItem => "AUDIO_ITEM"
  | .videoCrossfade => "VIDEO_CROSSFADE"
  | .audioCrossfade => "AUDIO_CROSSFADE"
  | .audioAlign => "AUDIO_ALIGN"
  | .videoConcat => "VIDEO_CONCAT"
  | .audioConcat => "AUDIO_CONCAT"
  | .audioSequence => "AUDIO_SEQUENCE"
  | .silenceFill => "SILENCE_FILL"
  | .videoOut => "VIDEO_OUT"

def isIndexed : LabelKind → Bool
  | .videoSegment | .trackAudio | .trackSilence | .audioItem | .videoCrossfade
  | .audioCrossfade | .audioAlign => true
  | .videoConcat | .audioConcat | .audioSequence | .silenceFill | .videoOut => false

end LabelKind

/-- The name of one node's output, with the place of the node in the order of issue. -/
structure Label where
  kind : LabelKind
  /-- The index as it is written. -/
  index : Option String
  serial : Nat
  deriving Repr, DecidableEq

namespace Label

/-- The text of a label: the stem of its kind, and its index if it has one. -/
def textOf (kind : LabelKind) : Option String → String
  | none => kind.stem
  | some index => kind.stem ++ index

def text (l : Label) : String := textOf l.kind l.index

def pad (l : Label) : String := "[" ++ l.text ++ "]"

end Label

/-- Issues labels. The labels issued so far are kept in order. -/
structure Allocator where
  issued : List Label := []
  deriving Repr, DecidableEq

/-- Issues a label with the next serial number, for an index as it is written. The index must be
there exactly for a counted kind, and no label issued before may have the same text. -/
def Allocator.issueText (a : Allocator) (kind : LabelKind) (index : Option String) :
    Except Defect (Label × Allocator) :=
  if kind.isIndexed && index.isNone then .error (.labelNeedsIndex kind.name)
  else if !kind.isIndexed && index.isSome then .error (.labelTakesNoIndex kind.name)
  else
    let label : Label := { kind, index, serial := a.issued.length }
    if (a.issued.map Label.text).contains label.text then .error (.labelRepeated label.text)
    else .ok (label, { issued := a.issued ++ [label] })

/-- Issues a label for a member of a counted kind, or for the only one of another. -/
def Allocator.issue (a : Allocator) (kind : LabelKind) (index : Option Int) :
    Except Defect (Label × Allocator) :=
  a.issueText kind (index.map toString)

/-- Issues a label for an index of any kind; the absent one is none. -/
def Allocator.issueAt (a : Allocator) (kind : LabelKind) (index : Value) :
    Except Error (Label × Allocator) := do
  let text ← if kind.isIndexed && !index.isNull then some <$> index.toText
    else pure (if index.isNull then none else some "")
  match a.issueText kind text with
  | .ok result => return result
  | .error defect => throw (.defect defect)

end Reel
