import Reel.Proofs.Graph.Fades
import Reel.Proofs.Graph.Length

/-!
# Picture and sound keep in step

Where segments bring their own sound, pictures and sounds are joined by separate folds. A fade of
pictures runs from its offset on; a fade of sounds overlaps the end of what it reads, which is
therefore brought to end one transition behind the offset. Step by step both folds give streams of
one length, so both lanes end together, whatever was cut off on the way.
-/
namespace Reel

open Build Label

/-- The length of a fold of fades over the lengths that follow a running length. -/
def fadedLength : Length → List (Length × Rat) → Length
  | running, [] => running
  | _, (next, offset) :: rest => fadedLength (next.map (offset + ·)) rest

/-- The length of a joined lane. Pictures and sounds have the same rule. -/
def joinedLength (mode : JoinMode) (offsets : List Rat) : List Length → Length
  | [] => none
  | [only] => only
  | first :: rest =>
    match mode with
    | .concat => Length.total (first :: rest)
    | .crossfade => fadedLength first (rest.zip offsets)

theorem total_map_some (durations : List Rat) :
    Length.total (durations.map some) = some durations.sum := by
  induction durations with
  | nil => rfl
  | cons d rest ih => rw [List.map_cons, Length.total, ih, List.sum_cons]; rfl

theorem fadedLength_isSome (rest : List (Rat × Rat)) (running : Rat) :
    ∃ x, fadedLength (some running) (rest.map fun (d, o) => (some d, o)) = some x := by
  induction rest generalizing running with
  | nil => exact ⟨running, rfl⟩
  | cons pair rest ih =>
      obtain ⟨d, offset⟩ := pair
      exact ih (offset + d)

/-- Streams with an end are joined into a stream with an end. -/
theorem joinedLength_isSome (mode : JoinMode) (offsets : List Rat) {durations : List Rat}
    (nonempty : durations ≠ []) : ∃ x, joinedLength mode offsets (durations.map some) = some x := by
  match durations, mode with
  | [], _ => exact (nonempty rfl).elim
  | [only], _ => exact ⟨only, rfl⟩
  | first :: second :: rest, .concat => exact ⟨_, total_map_some (first :: second :: rest)⟩
  | first :: second :: rest, .crossfade =>
      have pairs : ((second :: rest).map some).zip offsets =
          ((second :: rest).zip offsets).map fun (d, o) => (some d, o) := by
        rw [List.zip_map_left]
        rfl
      obtain ⟨x, hx⟩ := fadedLength_isSome ((second :: rest).zip offsets) first
      exact ⟨x, by rw [← pairs] at hx; exact hx⟩

variable {lengths : Label → Length}

theorem PictureOf.length {p : Picture} {i : Nat} {s : Segment Rat} {b : Binding} {n : Node Rat}
    (h : PictureOf p i s b n) : n.length lengths = some s.duration := by
  obtain ⟨k, rfl⟩ := h.node
  rfl

theorem SoundOf.length {i : Nat} {s : Segment Rat} {m : Node Rat} (h : SoundOf i s m) :
    m.length lengths = some s.duration := by
  cases h with
  | own => rfl
  | silent => rfl

/-- Each segment's picture, and its own sound, runs as long as the segment. -/
theorem Segments.measured {p : Picture} {own : Bool} {i : Nat} {segments : List (Segment Rat)}
    {bs : List Binding} {ns : List (Node Rat)} {pictures sounds : List Label}
    (h : Segments p own i segments bs ns pictures sounds) (measures : Measures lengths ns) :
    pictures.map lengths = (segments.map Segment.duration).map some ∧
      (own = true → sounds.map lengths = (segments.map Segment.duration).map some) := by
  induction h with
  | nil => exact ⟨rfl, fun _ => rfl⟩
  | @cons i s b n ms rest bs ns pictures sounds hp hs _ ih =>
      rw [← List.singleton_append, Measures.append, Measures.append] at measures
      obtain ⟨picture, sound, others⟩ := measures
      obtain ⟨hpictures, hsounds⟩ := ih others
      have hn := picture n (by simp)
      rw [hp.length] at hn
      refine ⟨by simp [hn, hpictures], fun policy => ?_⟩
      cases hs with
      | without => cases policy
      | @node m hm =>
          have hms := sound m (by simp)
          rw [hm.length] at hms
          simp [hms, hsounds policy]

theorem pictureFade_length (T offset : Rat) (running next : Length) :
    (pictureFade T offset).length [running, next] = next.map (offset + ·) := by
  cases next <;> rfl

theorem soundFade_length (T finish : Rat) (next : Length) :
    (soundFade T).length [some finish, next] = next.map (finish - T + ·) := by
  cases next with
  | none => rfl
  | some x =>
      have overlapped : (soundFade T).length [some finish, some x] = some (finish + (x + 0) - T) :=
        rfl
      rw [overlapped, Option.map_some]
      congr 1
      ring

theorem alignmentNode_length (T offset : Rat) (i : Nat) (current : Label) (k : Nat) :
    (alignmentNode T offset i current k).length lengths = some (offset + T) := rfl

theorem concatNode_length (kind : LabelKind) (lane : StreamKind) (labels : List Label) (k : Nat) :
    (concatNode kind lane labels k).length lengths = Length.total (labels.map lengths) := by
  have sources : (labels.map Source.output).map (Source.length lengths) = labels.map lengths := by
    rw [List.map_map]
    rfl
  rw [concatNode, Node.length, sources]
  cases lane <;> rfl

/-- A fade gives a stream that runs from its offset for as long as what it brings in, in either
lane: a sound is aligned for that. -/
theorem Fade.length {T offset : Rat} {i : Nat} {current next l : Label} {lane : StreamKind}
    {ns : List (Node Rat)} (h : Fade T offset i current next lane ns l)
    (measures : Measures lengths ns) : lengths l = (lengths next).map (offset + ·) := by
  cases h with
  | picture k =>
      have faded := measures _ (List.mem_singleton_self _)
      exact faded.trans (pictureFade_length T offset (lengths current) (lengths next))
  | sound j k =>
      have aligned : lengths (.counted .audioAlign i j) = some (offset + T) :=
        (measures (alignmentNode T offset i current j) (by simp)).trans
          (alignmentNode_length T offset i current j)
      have faded := measures (soundFadeNode T offset i (.counted .audioAlign i j) next k) (by simp)
      -- The overlap takes off what the alignment added behind the offset.
      have overlap := soundFade_length T (offset + T) (lengths next)
      rw [← aligned, add_sub_cancel_right] at overlap
      exact faded.trans overlap

theorem Fades.length {lane : StreamKind} {T : Rat} {i : Nat} {current last : Label}
    {rest : List (Label × Rat)} {ns : List (Node Rat)} (h : Fades lane T i current rest ns last)
    (measures : Measures lengths ns) :
    lengths last = fadedLength (lengths current) (rest.map fun (l, o) => (lengths l, o)) := by
  induction h with
  | done => rfl
  | fade hf _ ih =>
      rw [Measures.append] at measures
      rw [ih measures.2, hf.length measures.1]
      rfl

/-- Either lane is joined into a stream of the same length. -/
theorem Joined.length {mode : JoinMode} {lane : StreamKind} {T : Rat} {offsets : List Rat}
    {labels : List Label} {ns : List (Node Rat)} {l : Label}
    (h : Joined mode lane T offsets labels ns l) (measures : Measures lengths ns) :
    lengths l = joinedLength mode offsets (labels.map lengths) := by
  cases h with
  | only => rfl
  | concat k hm =>
      have joined := measures _ (List.mem_singleton_self _)
      rw [concatNode_length] at joined
      rw [hm]
      exact joined
  | @fades first second last rest ns hm hf =>
      rw [hf.length measures, hm]
      have pairs : ((second :: rest).zip offsets).map (fun (l, o) => (lengths l, o)) =
          ((second :: rest).map lengths).zip offsets := by
        rw [List.zip_map_left]
        rfl
      rw [pairs]
      rfl

/-- The nodes that fade into one segment: pictures, the alignment of the running sound, sounds.
They start together and bring in that segment. -/
structure Graph.FadesInto (g : Graph Rat) (i : Nat) (T offset : Rat) (xv xpad xa : Node Rat) :
    Prop where
  found : g.node? ("xv" ++ toString i) = some xv ∧ g.node? ("xpad" ++ toString i) = some xpad ∧
    g.node? ("xa" ++ toString i) = some xa
  picture : xv.filters = [pictureFade T offset]
  sound : xa.filters = [soundFade T]
  offsets : xv.offset = some offset ∧ xpad.offset = some offset ∧ xa.offset = some offset
  aligned : xa.inputs[0]? = some (.output xpad.output)
  /-- A fade of sounds starts one transition before the end of what it reads first. -/
  start : (g.length xpad.output).map (· - T) = some offset
  segment : ∃ picture sound, xv.inputs[1]? = some (.output picture) ∧
    xa.inputs[1]? = some (.output sound) ∧ picture.OfSegment [.videoSegment] i ∧
    sound.OfSegment [.trackAudio, .trackSilence] i

theorem Soundtrack.joined {t : Timeline Rat} {T : Rat} {offsets : List Rat} {input : Nat}
    {sounds : List Label} {duration : Rat} {bs : List Binding} {ns : List (Node Rat)} {l : Label}
    (h : Soundtrack t T offsets input sounds duration bs ns l) (own : t.useTrackAudio = true) :
    Joined t.joinMode .audio T offsets sounds ns l := by
  cases h with
  | own _ hj => exact hj
  | items policy => rw [own] at policy; cases policy
  | silence _ policy => rw [own] at policy; cases policy

namespace Assembly

variable {t : Timeline Rat} {g : Graph Rat}

theorem measures_parts (a : Assembly t g) : Measures g.length a.segmentNodes ∧
    Measures g.length a.pictureNodes ∧ Measures g.length a.soundNodes ∧
    Measures g.length [outputNode a.picture a.joined a.last] := by
  have measures := a.measures
  rw [a.nodes_eq, Measures.append, Measures.append, Measures.append] at measures
  obtain ⟨⟨⟨segments, pictures⟩, sounds⟩, output⟩ := measures
  exact ⟨segments, pictures, sounds, output⟩

theorem lanes_length (a : Assembly t g) (own : t.useTrackAudio = true) :
    ∃ x, g.length g.video = some x ∧ g.length a.sound = some x := by
  obtain ⟨segments, pictures, sounds, output⟩ := a.measures_parts
  -- Both lanes join streams of the segments' durations by the same offsets.
  obtain ⟨hp, hs⟩ := a.segments.measured segments
  have joined := a.join.length pictures
  have sound := (a.soundtrack.joined own).length sounds
  rw [hp] at joined
  rw [hs own] at sound
  have video : g.length g.video = g.length a.joined := by
    rw [a.video_eq]
    exact output _ (List.mem_singleton_self _)
  have nonempty : t.segments.map Segment.duration ≠ [] := by simpa using a.nonempty
  obtain ⟨x, hx⟩ := joinedLength_isSome t.joinMode
    (crossfadeOffsets (t.segments.map Segment.duration) a.T) nonempty
  exact ⟨x, by rw [video, joined, hx], by rw [sound, hx]⟩

theorem fadesInto (a : Assembly t g) (own : t.useTrackAudio = true)
    (mode : t.joinMode = .crossfade) {i : Nat} (hi : i + 1 < t.segments.length) :
    ∃ offset xv xpad xa, g.FadesInto (i + 1) a.T offset xv xpad xa := by
  obtain ⟨-, hpictures, hsounds⟩ := a.segments.length
  rw [if_pos own] at hsounds
  have join := a.join
  have soundtrack := a.soundtrack.joined own
  rw [mode] at join soundtrack
  have offset := getElem?_crossfadeOffsets a.T (t.segments.map Segment.duration) i (by simpa)
  have picture : a.pictures[i + 1]? = some a.pictures[i + 1] := List.getElem?_eq_getElem (by omega)
  have sound : a.sounds[i + 1]? = some a.sounds[i + 1] := List.getElem?_eq_getElem (by omega)
  have pictureOf := a.segments.picture_get picture
  have soundOf := a.segments.sound_get own sound
  rw [Nat.zero_add] at pictureOf soundOf
  obtain ⟨_, _, ms, pictureFade, inPictures⟩ := join.fade picture offset
  obtain ⟨_, _, ks, soundFade, inSounds⟩ := soundtrack.fade sound offset
  cases pictureFade with
  | picture k =>
      cases soundFade with
      | sound m n =>
          have xv := a.mem_nodes_of_picture (inPictures _ (List.mem_singleton_self _))
          have xpad := a.mem_nodes_of_sound (inSounds _ (List.mem_cons_self ..))
          have xa := a.mem_nodes_of_sound
            (inSounds _ (List.mem_cons_of_mem _ (List.mem_singleton_self _)))
          refine ⟨_, _, _, _, ⟨a.node?_eq xv, a.node?_eq xpad, a.node?_eq xa⟩, rfl, rfl,
            ⟨rfl, rfl, rfl⟩, rfl, ?_, _, _, rfl, rfl, pictureOf, soundOf⟩
          rw [a.measures _ xpad, alignmentNode_length, Option.map_some, add_sub_cancel_right]

end Assembly

/-- Where segments bring their own sound, picture and sound of a compiled graph run equally long.
Where segments are faded, each fade of sounds starts with the fade of pictures into the same
segment. -/
theorem build_lanes_in_step {t : Timeline Rat} {g : Graph Rat} (h : Graph.build t = .ok g)
    (own : t.useTrackAudio = true) :
    (∃ sound x, g.audio = some sound ∧ g.length sound = some x ∧ g.length g.video = some x) ∧
      (t.joinMode = .crossfade → ∀ i, 1 ≤ i → i < t.segments.length →
        ∃ T offset xv xpad xa, t.transition = some T ∧ g.FadesInto i T offset xv xpad xa) := by
  obtain ⟨a⟩ := assembly_of_build h
  constructor
  · obtain ⟨x, video, sound⟩ := a.lanes_length own
    exact ⟨a.sound, x, a.audio_eq, sound, video⟩
  · intro mode i first last
    obtain ⟨i, rfl⟩ : ∃ j, i = j + 1 := ⟨i - 1, by omega⟩
    obtain ⟨offset, xv, xpad, xa, fades⟩ := a.fadesInto own mode last
    exact ⟨a.T, offset, xv, xpad, xa, a.transition_eq (by omega), fades⟩

/-- A clip with sound, a still image that is shorter than the fades, and a silent clip. -/
def unevenSegments : List (Segment Rat) :=
  [{ path := "walk.mp4", duration := 3, hasAudio := .bool true },
    { path := "map.png", kind := .image, duration := 1 / 2 },
    { path := "summit.mp4", duration := 4 }]

theorem lanes_in_step_uneven :
    ∃ g, Graph.build (Timeline.plain unevenSegments .crossfade true 1) = .ok g ∧
      (∃ sound x, g.audio = some sound ∧ g.length sound = some x ∧ g.length g.video = some x) ∧
      ∃ T offset xv xpad xa, T = 1 ∧ g.FadesInto 2 T offset xv xpad xa := by
  obtain ⟨g, h⟩ := exists_of_isOk
    (r := Graph.build (Timeline.plain unevenSegments .crossfade true 1)) (by decide +kernel)
  obtain ⟨ends, fades⟩ := build_lanes_in_step h rfl
  obtain ⟨T, offset, xv, xpad, xa, hT, into⟩ := fades rfl 2 (by decide) (by decide)
  exact ⟨g, h, ends, T, offset, xv, xpad, xa, (Option.some.inj hT).symm, into⟩

end Reel
