import Reel.Proofs.Graph.Draft

/-!
# The parts of a compiled graph

Which bindings and nodes each part of the construction lays down, without the allocator and
without the errors: the segments, the joined lanes, the audio items, the soundtrack. A relation
follows the recursion of the function that lays the part down. The serial numbers of labels are
left open; they are those of a consistent draft.
-/
namespace Reel

open Build Label

variable {α : Type}

/-- The node that puts all streams of a lane one after the other. -/
def concatNode (kind : LabelKind) (lane : StreamKind) (labels : List Label) (k : Nat) : Node α :=
  { inputs := labels.map .output
    filters := [concatenation lane labels.length]
    output := .single kind k }

def pictureFadeNode (T offset : α) (i : Nat) (current next : Label) (k : Nat) : Node α :=
  { inputs := [.output current, .output next]
    filters := [pictureFade T offset]
    output := .counted .videoCrossfade i k
    offset := some offset }

def soundFadeNode (T offset : α) (i : Nat) (current next : Label) (k : Nat) : Node α :=
  { inputs := [.output current, .output next]
    filters := [soundFade T]
    output := .counted .audioCrossfade i k
    offset := some offset }

/-- The node that brings the joined picture to its final form. -/
def outputNode (p : Picture) (joined : Label) (k : Nat) : Node α :=
  { inputs := [.output joined], filters := outputFilters p, output := .single .videoOut k }

/-- Audio items one after the other; a single one needs no node. -/
inductive Sequence : List Label → List (Node α) → Label → Prop
  | only (l : Label) : Sequence [l] [] l
  | several {labels : List Label} (k : Nat) : labels.length ≠ 1 →
      Sequence labels [concatNode .audioSequence .audio labels k] (.single .audioSequence k)

variable [Seconds α]

/-- The node that lets a sound end one transition behind an offset. -/
def alignmentNode (T offset : α) (i : Nat) (current : Label) (k : Nat) : Node α :=
  { inputs := [.output current]
    filters := alignment (Seconds.add offset T)
    output := .counted .audioAlign i k
    offset := some offset }

def segmentKinds : List LabelKind := [.videoSegment, .trackAudio, .trackSilence]

/-- The kinds of labels that the fades of a lane get. -/
def fadeKinds : StreamKind → List LabelKind
  | .video => [.videoCrossfade]
  | .audio => [.audioAlign, .audioCrossfade]

/-- The kinds of labels that joining a lane may need. -/
def joinKinds (lane : StreamKind) : List LabelKind := joinKind lane :: fadeKinds lane

def soundtrackKinds : List LabelKind :=
  [.audioItem, .audioSequence, .silenceFill] ++ joinKinds .audio

/-- The binding of a segment and the node of its picture. -/
structure PictureOf (p : Picture) (i : Nat) (s : Segment α) (b : Binding) (n : Node α) : Prop where
  binding : ∃ options, segmentOptions s = .ok options ∧
    b = { index := i, path := s.path, options }
  node : ∃ k, n = { inputs := [.stream i .video], filters := segmentFilters p s.duration
                    output := .counted .videoSegment i k }

/-- The node of a segment's sound: its own, or silence of its length. -/
inductive SoundOf (i : Nat) (s : Segment α) : Node α → Prop
  | own (k : Nat) : (!s.isImage && s.hasAudio.truthy) = true →
      SoundOf i s { inputs := [.stream i .audio], filters := soundFilters s.duration
                    output := .counted .trackAudio i k }
  | silent (k : Nat) : (!s.isImage && s.hasAudio.truthy) = false →
      SoundOf i s { inputs := [], filters := silence :: soundFilters s.duration
                    output := .counted .trackSilence i k }

/-- The node of a segment's sound if segments bring their own sound, else none. -/
inductive OwnSound (i : Nat) (s : Segment α) : Bool → List (Node α) → Prop
  | without : OwnSound i s false []
  | node {m : Node α} : SoundOf i s m → OwnSound i s true [m]

/-- The segments from an index on: their bindings, their nodes, and the labels of their pictures
and sounds. -/
inductive Segments (p : Picture) (own : Bool) : Nat → List (Segment α) → List Binding →
    List (Node α) → List Label → List Label → Prop
  | nil (i : Nat) : Segments p own i [] [] [] [] []
  | cons {i : Nat} {s : Segment α} {b : Binding} {n : Node α} {ms : List (Node α)}
      {rest : List (Segment α)} {bs : List Binding} {ns : List (Node α)}
      {pictures sounds : List Label} :
      PictureOf p i s b n → OwnSound i s own ms →
      Segments p own (i + 1) rest bs ns pictures sounds →
      Segments p own i (s :: rest) (b :: bs) (n :: (ms ++ ns)) (n.output :: pictures)
        (ms.map Node.output ++ sounds)

/-- One fade of a lane: its nodes, and the label of what it gives. -/
inductive Fade (T offset : α) (i : Nat) (current next : Label) :
    StreamKind → List (Node α) → Label → Prop
  | picture (k : Nat) : Fade T offset i current next .video
      [pictureFadeNode T offset i current next k] (.counted .videoCrossfade i k)
  | sound (j k : Nat) : Fade T offset i current next .audio
      [alignmentNode T offset i current j,
        soundFadeNode T offset i (.counted .audioAlign i j) next k]
      (.counted .audioCrossfade i k)

/-- The fades of a lane from an index on, each from the running output into the next label. -/
inductive Fades (lane : StreamKind) (T : α) : Nat → Label → List (Label × α) → List (Node α) →
    Label → Prop
  | done (i : Nat) (current : Label) : Fades lane T i current [] [] current
  | fade {i : Nat} {current next l last : Label} {offset : α} {rest : List (Label × α)}
      {ns ms : List (Node α)} :
      Fade T offset i current next lane ns l → Fades lane T (i + 1) l rest ms last →
      Fades lane T i current ((next, offset) :: rest) (ns ++ ms) last

inductive Joined (mode : JoinMode) (lane : StreamKind) (T : α) (offsets : List α) :
    List Label → List (Node α) → Label → Prop
  | only (l : Label) : Joined mode lane T offsets [l] [] l
  | concat {first second : Label} {rest : List Label} (k : Nat) : mode = .concat →
      Joined mode lane T offsets (first :: second :: rest)
        [concatNode (joinKind lane) lane (first :: second :: rest) k] (.single (joinKind lane) k)
  | fades {first second last : Label} {rest : List Label} {ns : List (Node α)} :
      mode = .crossfade → Fades lane T 1 first ((second :: rest).zip offsets) ns last →
      Joined mode lane T offsets (first :: second :: rest) ns last

/-- The binding and the node of an audio item that runs for some time. -/
structure ItemOf (transition : Option α) (i input : Nat) (item : AudioItem α) (b : Binding)
    (n : Node α) : Prop where
  resolved : Seconds.le item.duration Seconds.zero = false
  binding : b = { index := input, path := item.path }
  node : ∃ T k, transition = some T ∧
    n = { inputs := [.stream input .audio]
          filters := itemFilters item.duration
            (Seconds.min T (Seconds.half item.duration))
            (Seconds.max Seconds.zero (Seconds.sub item.duration
              (Seconds.min T (Seconds.half item.duration))))
          output := .counted .audioItem i k }

/-- The audio items from an index on, bound from an input on. -/
inductive Items (transition : Option α) : Nat → Nat → List (AudioItem α) → List Binding →
    List (Node α) → List Label → Prop
  | nil (i input : Nat) : Items transition i input [] [] [] []
  | cons {i input : Nat} {item : AudioItem α} {b : Binding} {n : Node α}
      {rest : List (AudioItem α)} {bs : List Binding} {ns : List (Node α)} {labels : List Label} :
      ItemOf transition i input item b n → Items transition (i + 1) (input + 1) rest bs ns labels →
      Items transition i input (item :: rest) (b :: bs) (n :: ns) (n.output :: labels)

def SilenceBound (length : α) (input : Nat) (b : Binding) : Prop :=
  ∃ text, Seconds.format length = .ok text ∧
    b = { index := input, path := silenceSource, options := ["-f", "lavfi", "-t", text]
          synthetic := true }

/-- The sound of a timeline, by its policy. -/
inductive Soundtrack (t : Timeline α) (T : α) (offsets : List α) (input : Nat)
    (sounds : List Label) (duration : α) : List Binding → List (Node α) → Label → Prop
  | own {ns : List (Node α)} {l : Label} : t.useTrackAudio = true →
      Joined t.joinMode .audio T offsets sounds ns l →
      Soundtrack t T offsets input sounds duration [] ns l
  | items {items : List (AudioItem α)} {bs : List Binding} {ns ms : List (Node α)}
      {labels : List Label} {l : Label} : t.useTrackAudio = false →
      t.audioSequence = .ok items → items ≠ [] →
      Items t.transition 0 input items bs ns labels → Sequence labels ms l →
      Soundtrack t T offsets input sounds duration bs (ns ++ ms) l
  | silence {b : Binding} (k : Nat) : t.useTrackAudio = false → t.audioSequence = .ok [] →
      SilenceBound (Seconds.max shortestSilence duration) input b →
      Soundtrack t T offsets input sounds duration [b]
        [{ inputs := [.stream input .audio]
           filters := soundFilters (Seconds.max shortestSilence duration)
           output := .single .silenceFill k }]
        (.single .silenceFill k)

/-- A graph with the parts that it was assembled from. -/
structure Assembly (t : Timeline α) (g : Graph α) where
  picture : Picture
  /-- The length of the fades. -/
  T : α
  segmentInputs : List Binding
  soundInputs : List Binding
  segmentNodes : List (Node α)
  pictureNodes : List (Node α)
  soundNodes : List (Node α)
  pictures : List Label
  sounds : List Label
  joined : Label
  sound : Label
  last : Nat
  nonempty : t.segments ≠ []
  resolved : ∀ s ∈ t.segments, Seconds.le s.duration Seconds.zero = false
  picture_eq : pictureOf t = .ok picture
  fade_eq : fadeOf t = .ok T
  segments : Segments picture t.useTrackAudio 0 t.segments segmentInputs segmentNodes pictures
    sounds
  join : Joined t.joinMode .video T (crossfadeOffsets (t.segments.map Segment.duration) T)
    pictures pictureNodes joined
  soundtrack : Soundtrack t T (crossfadeOffsets (t.segments.map Segment.duration) T)
    segmentInputs.length sounds
    (composedDuration t.joinMode T (t.segments.map Segment.duration))
    soundInputs soundNodes sound
  inputs_eq : g.inputs = segmentInputs ++ soundInputs
  nodes_eq : g.nodes =
    segmentNodes ++ pictureNodes ++ soundNodes ++ [outputNode picture joined last]
  video_eq : g.video = .single .videoOut last
  audio_eq : g.audio = some sound
  duration_eq : g.duration =
    composedDuration t.joinMode T (t.segments.map Segment.duration)
  join_eq : g.join = t.joinMode
  serials : g.nodes.map (fun n => n.output.serial) = List.range g.nodes.length
  distinct : (g.nodes.map fun n => n.output.text).Nodup
  numbered : g.inputs.map Binding.index = List.range g.inputs.length

end Reel
