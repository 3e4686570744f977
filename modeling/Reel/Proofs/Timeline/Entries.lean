import Reel.Proofs.Yields
import Reel.Timeline.Record

/-!
# What the entries of a record say

The value of a field is that of the last entry that spells it. A record gives a timeline exactly if
each part of the timeline can be read from its field, and no part is read from any other. So what
is to be shown of a timeline that was read, or of the same record with other entries, is shown part
by part.
-/
namespace Reel

namespace Value

theorem sameKey_text {key : Value} {name : String} :
    sameKey key (.text name) = true ↔ key = .text name := by
  cases key <;> simp [sameKey, magnitude?]

theorem text_sameKey {key : Value} {name : String} :
    sameKey (.text name) key = true ↔ key = .text name := by
  rw [eq_comm (a := key)]
  cases key <;> simp [sameKey, magnitude?]

/-- Of two rows of entries the second counts where it has one under the key. -/
theorem lookup?_append (key : Value) (first second : List (Value × Value)) :
    lookup? key (first ++ second) = (lookup? key second).or (lookup? key first) := by
  induction first with
  | nil => simp [lookup?]
  | cons entry rest ih =>
      obtain ⟨k, v⟩ := entry
      rw [List.cons_append, lookup?, ih, lookup?]
      cases lookup? key second <;> cases lookup? key rest <;> rfl

end Value

namespace Record

variable {files : Files} {entries others record : Entries} {name : String} {t : Timeline Double}

theorem field?_append (first second : Entries) (name : String) :
    field? (first ++ second) name = (field? second name).or (field? first name) :=
  Value.lookup?_append ..

theorem field?_eq_none_iff :
    field? entries name = none ↔ ∀ entry ∈ entries, entry.1 ≠ .text name := by
  induction entries with
  | nil => simp [field?, Value.lookup?]
  | cons entry rest ih =>
      rw [← List.singleton_append, field?_append, Option.or_eq_none_iff, ih, List.singleton_append,
        List.forall_mem_cons, and_comm, field?, Value.lookup?]
      simp [Value.lookup?, ← Value.sameKey_text]

theorem field?_append_other (silent : ∀ entry ∈ others, entry.1 ≠ .text name) :
    field? (entries ++ others) name = field? entries name := by
  rw [field?_append, field?_eq_none_iff.mpr silent, Option.none_or]

theorem rename_append (spellings : List (String × String)) (first second : Entries) :
    rename spellings (first ++ second) = rename spellings first ++ rename spellings second :=
  List.map_append

abbrev Agree (entries others : Entries) (name : String) : Prop :=
  field? others name = field? entries name

theorem Agree.field (h : Agree entries others name) :
    field others name = Record.field entries name := by
  rw [Record.field, h, Record.field]

theorem dimensions_congr (resolution : Agree entries others "resolution")
    (width : Agree entries others "width") (height : Agree entries others "height") :
    dimensions others = dimensions entries := by
  unfold dimensions
  rw [resolution.field, width, height]

theorem choice?_congr {α : Type} (choices : Choices α) (same : Agree entries others name) :
    choice? choices others name = choice? choices entries name := by
  unfold choice?
  rw [same.field]

/-- A time as it is kept, from a value that is absent for the default. -/
def time (default : Double) (v : Value) : Except Error Double := do
  Value.toDoubleOrZero (.real (← Timecode.secondsOr (.real default) v))

variable [Environment]

theorem exists_of_segment_ok {given : Value} {s : Segment Double}
    (h : segment files given = .ok s) :
    ∃ entries file path, itemEntries .segmentEntry given = .ok entries ∧
      itemFile .segmentFile entries = .ok file ∧ Files.expandHome file = .ok path ∧
      s.path = .text path ∧ time .zero (field entries "duration") = .ok s.duration := by
  obtain ⟨entries, read, h⟩ := exists_of_bind_ok h
  obtain ⟨file, named, h⟩ := exists_of_bind_ok h
  obtain ⟨path, expanded, h⟩ := exists_of_bind_ok h
  obtain ⟨kind, -, h⟩ := exists_of_bind_ok h
  obtain ⟨duration, lasting, h⟩ := exists_of_bind_ok h
  obtain ⟨taken, kept, h⟩ := exists_of_bind_ok h
  obtain rfl := Except.ok.inj h
  refine ⟨entries, file, path, read, named, expanded, rfl, ?_⟩
  rw [time, lasting]
  exact kept

theorem exists_of_audioItem_ok {given : Value} {item : AudioItem Double}
    (h : audioItem given = .ok item) :
    ∃ entries file path, itemEntries .audioEntry given = .ok entries ∧
      itemFile .audioFile entries = .ok file ∧ Files.expandHome file = .ok path ∧
      item.path = .text path ∧ time .zero (field entries "duration") = .ok item.duration := by
  obtain ⟨entries, read, h⟩ := exists_of_bind_ok h
  obtain ⟨file, named, h⟩ := exists_of_bind_ok h
  obtain ⟨duration, lasting, h⟩ := exists_of_bind_ok h
  obtain ⟨path, expanded, h⟩ := exists_of_bind_ok h
  obtain ⟨taken, kept, h⟩ := exists_of_bind_ok h
  obtain rfl := Except.ok.inj h
  refine ⟨entries, file, path, read, named, expanded, rfl, ?_⟩
  rw [time, lasting]
  exact kept

/-- Each part of the timeline is what its field says. -/
structure Tells (files : Files) (entries : Entries) (t : Timeline Double) : Prop where
  size : ∃ width height w h, dimensions entries = .ok (width, height) ∧
    Geometry.dimension width Geometry.defaultWidth = .ok w ∧ t.width = .int w ∧
    Geometry.dimension height Geometry.defaultHeight = .ok h ∧ t.height = .int h
  segments : (do (← items "segments" (field entries "segments")).mapM (segment files)) =
    .ok t.segments
  audioItems : (do (← items "audio" (field entries "audio")).mapM audioItem) = .ok t.audioItems
  join : choice? joinModes entries "join" = .ok t.join
  projectType : ∃ kind, choice? projectTypes entries "type" = .ok kind ∧
    t.projectType = kind.getD .videoCollage
  name : ∃ name, ((field entries "name").orElse "").toText = .ok name ∧ t.name = .text name
  audioPath : t.audioPath = field entries "audio_path"
  audioDuration : time .zero (field entries "audio_duration") = .ok t.audioDuration
  useTrackAudio : t.useTrackAudio = flag ((field? entries "use_track_audio").getD (.bool true))
  fps : ∃ n, Geometry.frameRate ((field? entries "fps").getD (.int Geometry.defaultFps)) = .ok n ∧
    t.fps = .int n
  transition : ∃ x, Timecode.secondsOr (.real defaultTransition) (field entries "transition") =
    .ok x ∧ t.transition = some (Seconds.max shortestTransition x)
  slide : Timecode.secondsOr (.real defaultSlide) (field entries "slide_duration") = .ok t.slide
  maxClip : ∃ x, time .zero (field entries "max_clip_duration") = .ok x ∧
    t.maxClip = Seconds.max .zero x
  outputFormat : ∃ format, OutputFormat.ofValue
    ((field? entries "output_format").getD (.text defaultFormat)) = .ok format ∧
    t.outputFormat = .text format

theorem tells_of_timeline (h : timeline files record = .ok t) :
    Tells files (rename projectSpellings record) t := by
  obtain ⟨⟨width, height⟩, sized, h⟩ := exists_of_bind_ok h
  obtain ⟨given, listed, h⟩ := exists_of_bind_ok h
  obtain ⟨segments, hs, h⟩ := exists_of_bind_ok h
  obtain ⟨audio, heard, h⟩ := exists_of_bind_ok h
  obtain ⟨audioItems, hi, h⟩ := exists_of_bind_ok h
  obtain ⟨join, hj, h⟩ := exists_of_bind_ok h
  obtain ⟨kind, hk, h⟩ := exists_of_bind_ok h
  obtain ⟨name, hn, h⟩ := exists_of_bind_ok h
  obtain ⟨sounding, ha, h⟩ := exists_of_bind_ok h
  obtain ⟨fading, hf, h⟩ := exists_of_bind_ok h
  obtain ⟨slide, hd, h⟩ := exists_of_bind_ok h
  obtain ⟨limit, hm, h⟩ := exists_of_bind_ok h
  obtain ⟨audioDuration, ha', h⟩ := exists_of_bind_ok h
  obtain ⟨w, hw, h⟩ := exists_of_bind_ok h
  obtain ⟨tall, hh, h⟩ := exists_of_bind_ok h
  obtain ⟨rate, hr, h⟩ := exists_of_bind_ok h
  obtain ⟨transition, hf', h⟩ := exists_of_bind_ok h
  obtain ⟨slide', hd', h⟩ := exists_of_bind_ok h
  obtain ⟨maxClip, hm', h⟩ := exists_of_bind_ok h
  obtain ⟨format, ho, h⟩ := exists_of_bind_ok h
  obtain rfl := Except.ok.inj h
  obtain rfl : Seconds.max shortestTransition fading = transition := Except.ok.inj hf'
  obtain rfl : slide = slide' := Except.ok.inj hd'
  exact {
    size := ⟨width, height, w, tall, sized, hw, rfl, hh, rfl⟩
    segments := by rw [listed]; exact hs
    audioItems := by rw [heard]; exact hi
    join := hj, projectType := ⟨kind, hk, rfl⟩, name := ⟨name, hn, rfl⟩, audioPath := rfl
    audioDuration := by rw [time, ha]; exact ha'
    useTrackAudio := rfl, fps := ⟨rate, hr, rfl⟩, transition := ⟨fading, hf, rfl⟩, slide := hd
    maxClip := ⟨maxClip, by rw [time, hm]; exact hm', rfl⟩
    outputFormat := ⟨format, ho, rfl⟩ }

theorem timeline_of_tells (h : Tells files (rename projectSpellings record) t) :
    timeline files record = .ok t := by
  obtain ⟨width, height, w, tall, sized, hw, width_eq, hh, height_eq⟩ := h.size
  obtain ⟨given, listed, hs⟩ := exists_of_bind_ok h.segments
  obtain ⟨audio, heard, hi⟩ := exists_of_bind_ok h.audioItems
  obtain ⟨kind, hk, kind_eq⟩ := h.projectType
  obtain ⟨name, hn, name_eq⟩ := h.name
  obtain ⟨sounding, ha, ha'⟩ := exists_of_bind_ok h.audioDuration
  obtain ⟨rate, hr, rate_eq⟩ := h.fps
  obtain ⟨fading, hf, fading_eq⟩ := h.transition
  obtain ⟨maxClip, hm, maxClip_eq⟩ := h.maxClip
  obtain ⟨limit, hm, hm'⟩ := exists_of_bind_ok hm
  obtain ⟨format, ho, format_eq⟩ := h.outputFormat
  have path := h.audioPath
  have own := h.useTrackAudio
  have join := h.join
  have slide := h.slide
  obtain ⟨⟩ := t
  simp only at width_eq height_eq kind_eq name_eq rate_eq fading_eq maxClip_eq format_eq path own
  subst width_eq height_eq kind_eq name_eq rate_eq fading_eq maxClip_eq format_eq path own
  rw [timeline]
  simp only [sized, listed, hs, heard, hi, join, hk, hn, ha, hf, slide, hm, Timeline.ofSpec, ha', hw, hh,
    hr, hm', ho, bind, Except.bind]
  rfl

theorem timeline_eq_ok_iff :
    timeline files record = .ok t ↔ Tells files (rename projectSpellings record) t :=
  ⟨tells_of_timeline, timeline_of_tells⟩

end Record

end Reel
