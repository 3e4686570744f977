import Reel.Environment.Plain
import Reel.Proofs.Timeline.Records
import Reel.Proofs.Timeline.Uses

/-!
# What stops the reading of a record

A record whose values suit their uses gives a timeline or is rejected, and one that gives a
timeline has no other values. So the values that are told apart as not suitable are all that can
stop the reading in another way, and none of them is held back by mistake.
-/
namespace Reel

namespace Record

/-- The entries of an item, and none for what is rejected. -/
def entriesOf (given : Value) : Entries := ((itemEntries .segmentEntry given).toOption).getD []

def itemUses (entries : Entries) : List Use :=
  [.file (field entries "file"), .time (field entries "duration")]

/-- Where no kind is given, the file is looked at. -/
def kindUse (entries : Entries) : Use :=
  if (field entries "kind").isNull then .sight (field entries "file")
  else .choice (field entries "kind")

def segmentUses (given : Value) : List Use :=
  kindUse (entriesOf given) :: itemUses (entriesOf given)

/-- The items of a list, and none of what is rejected. -/
def listed : Value → List Value
  | .list items => items
  | _ => []

/-- The dimensions of a record, and none of those that are rejected. -/
def sizes (entries : Entries) : List Value :=
  match dimensions entries with
  | .ok (width, height) => [width, height]
  | .error _ => []

/-- The values of a record that are not handed on as they are, each with its use. -/
def uses (record : Entries) : List Use :=
  let entries := rename projectSpellings record
  (listed (field entries "segments")).flatMap segmentUses ++
    (listed (field entries "audio")).flatMap (fun given => itemUses (entriesOf given)) ++
    [.choice (field entries "join"), .choice (field entries "type"), .text (field entries "name"),
      .time (field entries "audio_duration"), .time (field entries "transition"),
      .time (field entries "slide_duration"), .time (field entries "max_clip_duration")] ++
    (sizes entries).map .size ++
    [.size ((field? entries "fps").getD (.int Geometry.defaultFps)),
      .text ((field? entries "output_format").getD (.text defaultFormat))]

/-- Each value suits its use. -/
def Suits [Environment] (files : Files) (used : List Use) : Prop :=
  ∀ use ∈ used, use.suits files = true

/-- Numbers among the times are doubles. -/
def Genuine (used : List Use) : Prop := ∀ use ∈ used, use.Genuine

section Items

variable {refused : Rejection} {entries : Entries} {given : Value} {files : Files}

theorem itemEntries_hangsOn (refused : Rejection) (given : Value) :
    HangsOn True (itemEntries refused given) := by
  unfold itemEntries
  split
  · exact .ok trivial
  · exact .ok trivial
  · exact .rejected _

theorem entriesOf_eq (h : itemEntries refused given = .ok entries) :
    entriesOf given = entries := by
  cases given with
  | text path => exact Except.ok.inj h
  | map fields => exact Except.ok.inj h
  | _ => cases h

theorem itemFile_hangsOn (refused : Rejection) (entries : Entries) :
    HangsOn ((field entries "file").isLegible = true) (itemFile refused entries) := by
  unfold itemFile
  split
  · exact .rejected _
  · unfold Value.toText
    split
    · next legible =>
        change HangsOn _ (if Text.blank _ then reject refused else .ok _)
        split
        · exact .rejected _
        · exact .ok legible
    · next illegible => exact .stops trivial illegible

theorem itemFile_eq {path : String} (h : itemFile refused entries = .ok path) :
    path = (field entries "file").shown := by
  unfold itemFile at h
  split at h
  · cases h
  · obtain ⟨text, read, h⟩ := exists_of_bind_ok h
    split at h
    · cases h
    · obtain rfl := Except.ok.inj h
      unfold Value.toText at read
      split at read
      · exact (Except.ok.inj read).symm
      · cases read

theorem Segment.exists_ofValue (path : Value) (kind : MediaKind) (x : Double) (sound : Value) :
    ∃ s, Segment.ofValue path kind (.real x) sound = .ok s := by
  obtain ⟨y, given, -⟩ := Value.toDoubleOrZero_real x
  rw [Segment.ofValue, given]
  exact ⟨_, rfl⟩

theorem AudioItem.exists_ofValue (path : Value) (x : Double) :
    ∃ item, AudioItem.ofValue path (.real x) = .ok item := by
  obtain ⟨y, given, -⟩ := Value.toDoubleOrZero_real x
  rw [AudioItem.ofValue, given]
  exact ⟨_, rfl⟩

section Outside

variable [Environment]

theorem detectKind_yields (files : Files) (path : String) :
    Yields Error.IsPlain (detectKind files path) fun _ => True := by
  have looked : Yields Error.IsPlain (kindOfContent files (.text path)) fun _ => True := by
    unfold kindOfContent
    split
    · exact .ok trivial
    · split <;> first | exact .ok trivial | exact .error trivial
  unfold detectKind
  dsimp only
  split
  · exact .ok trivial
  · split
    · exact .ok trivial
    · exact looked

/-- The kind of a segment hangs on the use that is made of it, once its path is known. -/
theorem segmentKind_hangsOn {entries : Entries} {path : String}
    (expands : Files.expandHome (field entries "file").shown = .ok path) :
    HangsOn ((kindUse entries).suits files = true) (segmentKind files entries path) := by
  have seen : (Use.sight (field entries "file")).suits files = (detectKind files path).isOk := by
    simp only [Use.suits, expands, bind, Except.bind]
  unfold segmentKind
  split
  · next none =>
      rw [kindUse, none, Value.isNull, if_pos rfl, seen]
      exact .of_yields (detectKind_yields files path)
  · next given =>
      have present : (field entries "kind").isNull = false := by
        cases kind : field entries "kind" with
        | null => exact (given kind).elim
        | _ => rfl
      rw [kindUse, present, if_neg Bool.false_ne_true]
      exact choose_hangsOn kinds (by decide) _ _

theorem seconds_hangsOn {used : List Use} (genuine : Genuine used) (default : Double) {v : Value}
    (mem : .time v ∈ used) :
    HangsOn ((Use.time v).suits files = true) (Timecode.secondsOr (.real default) v) :=
  Timecode.secondsOr_hangsOn default (genuine _ mem)

theorem segment_hangsOn (files : Files) (genuine : Genuine (segmentUses given)) :
    HangsOn (Suits files (segmentUses given)) (segment files given) := by
  have parts : HangsOn (True ∧ (field (entriesOf given) "file").isLegible = true ∧
      (Files.expandHome (field (entriesOf given) "file").shown).isOk = true ∧
      (kindUse (entriesOf given)).suits files = true ∧
      (Use.time (field (entriesOf given) "duration")).suits files = true)
      (segment files given) := by
    refine (itemEntries_hangsOn _ given).bind fun entries he => ?_
    obtain rfl := entriesOf_eq he
    refine (itemFile_hangsOn _ _).bind fun file hf => ?_
    obtain rfl := itemFile_eq hf
    refine (HangsOn.of_yields (Files.expandHome_yields _)).bind fun path expands => ?_
    refine (segmentKind_hangsOn expands).bind fun kind _ => ?_
    exact (seconds_hangsOn genuine .zero (by simp [segmentUses, itemUses])).bind_ok
      fun x _ => Segment.exists_ofValue path kind x .null
  exact parts.congr
    (by simp [Suits, segmentUses, itemUses, Use.suits_file, and_left_comm, and_assoc])

theorem audioItem_hangsOn (files : Files) (genuine : Genuine (itemUses (entriesOf given))) :
    HangsOn (Suits files (itemUses (entriesOf given))) (audioItem given) := by
  have parts : HangsOn (True ∧ (field (entriesOf given) "file").isLegible = true ∧
      (Use.time (field (entriesOf given) "duration")).suits files = true ∧
      (Files.expandHome (field (entriesOf given) "file").shown).isOk = true)
      (audioItem given) := by
    refine (itemEntries_hangsOn _ given).bind fun entries he => ?_
    obtain rfl := entriesOf_eq he
    refine (itemFile_hangsOn _ _).bind fun file hf => ?_
    obtain rfl := itemFile_eq hf
    refine (seconds_hangsOn genuine .zero (by simp [itemUses])).bind fun duration _ => ?_
    exact (HangsOn.of_yields (Files.expandHome_yields _)).bind_ok
      fun path _ => AudioItem.exists_ofValue path duration
  exact parts.congr (by simp [Suits, itemUses, Use.suits_file, and_comm, and_left_comm])

end Outside

end Items

section Records

theorem dimensions_hangsOn (entries : Entries) : HangsOn True (dimensions entries) := by
  unfold dimensions
  split
  · exact .ok trivial
  · exact .ok trivial
  · exact .rejected _

theorem items_hangsOn (name : String) (v : Value) : HangsOn True (items name v) := by
  unfold items
  split
  · exact .ok trivial
  · exact .ok trivial
  · exact .rejected _

theorem listed_eq {name : String} {v : Value} {given : List Value}
    (h : items name v = .ok given) : listed v = given := by
  cases v with
  | null => exact Except.ok.inj h
  | list row => exact Except.ok.inj h
  | _ => cases h

section Outside

variable [Environment] {files : Files}

theorem choice?_hangsOn {α : Type} (choices : Choices α) (few : choices.ordinals.length ≤ 2 ^ 41)
    (entries : Entries) (name : String) :
    HangsOn ((Use.choice (field entries name)).suits files = true)
      (choice? choices entries name) := by
  unfold choice?
  split
  · next none =>
      rw [none]
      exact .ok rfl
  · exact (choose_hangsOn choices few _ _).map

theorem format_hangsOn (v : Value) :
    HangsOn ((Use.text v).suits files = true) (OutputFormat.ofValue v) :=
  (orElse_toText_hangsOn v defaultFormat).bind_ok fun _ _ => ⟨_, rfl⟩

/-- Of what a timeline is made of, only sizes and the format may stop the making. -/
theorem ofSpec_hangsOn {spec : TimelineSpec} {audio transition slide maxClip : Double}
    (audioDuration : spec.audioDuration = .real audio) (fades : spec.transition = .real transition)
    (slides : spec.slide = .real slide) (clips : spec.maxClip = .real maxClip) :
    HangsOn (Suits files
      [.size spec.width, .size spec.height, .size spec.fps, .text spec.outputFormat])
      (Timeline.ofSpec spec) := by
  obtain ⟨audio', ha, -⟩ := Value.toDoubleOrZero_real audio
  obtain ⟨maxClip', hm, -⟩ := Value.toDoubleOrZero_real maxClip
  have parts : HangsOn ((Use.size spec.width).suits files = true ∧
      (Use.size spec.height).suits files = true ∧ (Use.size spec.fps).suits files = true ∧ (Use.text spec.outputFormat).suits files = true)
      (Timeline.ofSpec spec) := by
    rw [Timeline.ofSpec, audioDuration, fades, slides, clips, ha, hm]
    refine (dimension_hangsOn _ _).bind fun width _ => ?_
    refine (dimension_hangsOn _ _).bind fun height _ => ?_
    refine (frameRate_hangsOn _).bind fun fps _ => ?_
    exact (format_hangsOn _).bind_ok fun _ _ => ⟨_, rfl⟩
  exact parts.congr (by simp [Suits])

theorem timeline_hangsOn (files : Files) {record : Entries} (genuine : Genuine (uses record)) :
    HangsOn (Suits files (uses record)) (timeline files record) := by
  let entries := rename projectSpellings record
  have parts : HangsOn (True ∧ True ∧
      (∀ given ∈ listed (field entries "segments"), Suits files (segmentUses given)) ∧ True ∧
      (∀ given ∈ listed (field entries "audio"), Suits files (itemUses (entriesOf given))) ∧
      (Use.choice (field entries "join")).suits files = true ∧
      (Use.choice (field entries "type")).suits files = true ∧
      (Use.text (field entries "name")).suits files = true ∧
      (Use.time (field entries "audio_duration")).suits files = true ∧
      (Use.time (field entries "transition")).suits files = true ∧
      (Use.time (field entries "slide_duration")).suits files = true ∧
      (Use.time (field entries "max_clip_duration")).suits files = true ∧
      Suits files ((sizes entries).map .size ++
        [.size ((field? entries "fps").getD (.int Geometry.defaultFps)),
          .text ((field? entries "output_format").getD (.text defaultFormat))]))
      (timeline files record) := by
    have time (name : String) (default : Double)
        (mem : Use.time (field entries name) ∈ uses record) :
        HangsOn ((Use.time (field entries name)).suits files = true)
          (Timecode.secondsOr (.real default) (field entries name)) :=
      seconds_hangsOn genuine default mem
    unfold timeline
    refine (dimensions_hangsOn _).bind fun ⟨width, height⟩ sized => ?_
    refine (items_hangsOn _ _).bind fun segments hs => ?_
    obtain rfl := listed_eq hs
    refine (HangsOn.mapM fun given mem => segment_hangsOn files ?_).bind fun segments _ => ?_
    · refine fun use hu => genuine use ?_
      simp only [uses, List.mem_append, List.mem_flatMap]
      exact .inl (.inl (.inl (.inl ⟨given, mem, hu⟩)))
    refine (items_hangsOn _ _).bind fun audio ha => ?_
    obtain rfl := listed_eq ha
    refine (HangsOn.mapM fun given mem => audioItem_hangsOn files ?_).bind fun items _ => ?_
    · refine fun use hu => genuine use ?_
      simp only [uses, List.mem_append, List.mem_flatMap]
      exact .inl (.inl (.inl (.inr ⟨given, mem, hu⟩)))
    refine (choice?_hangsOn joinModes (by decide) _ _).bind fun join _ => ?_
    refine (choice?_hangsOn projectTypes (by decide) _ _).bind fun projectType _ => ?_
    refine (orElse_toText_hangsOn _ _).bind fun name _ => ?_
    refine (time "audio_duration" _ (by simp [uses, entries])).bind fun audioDuration _ => ?_
    refine (time "transition" _ (by simp [uses, entries])).bind fun transition _ => ?_
    refine (time "slide_duration" _ (by simp [uses, entries])).bind fun slide _ => ?_
    refine (time "max_clip_duration" _ (by simp [uses, entries])).bind fun maxClip _ => ?_
    have both : sizes entries = [width, height] := by rw [sizes, sized]
    rw [both]
    exact (ofSpec_hangsOn (by rfl) (by rfl) (by rfl) (by rfl)).congr Iff.rfl
  refine parts.congr ?_
  simp only [uses, Suits, List.forall_mem_append, List.forall_mem_flatMap, List.forall_mem_cons,
    true_and, and_assoc, entries]
  simp

end Outside

end Records

end Record

open Record

/-- A record whose values suit their uses gives a timeline or is rejected, and one that gives a
timeline has only such values: whatever else stops the reading is the fault of a value that does
not suit its use. -/
theorem timeline_given_or_rejected [Environment] (files : Files) {record : Entries}
    (genuine : Genuine (uses record)) :
    (Suits files (uses record) → (∃ t, timeline files record = .ok t) ∨
      ∃ cause, timeline files record = .error (.rejected cause)) ∧
    ((∃ t, timeline files record = .ok t) → Suits files (uses record)) := by
  have hangs := timeline_hangsOn files genuine
  generalize timeline files record = outcome at *
  cases hangs with
  | @ok t suits => exact ⟨fun _ => .inl ⟨t, rfl⟩, fun _ => suits⟩
  | rejected cause => exact ⟨fun _ => .inr ⟨cause, rfl⟩, fun ⟨_, given⟩ => by cases given⟩
  | stops _ fails => exact ⟨fun suits => (fails suits).elim, fun ⟨_, given⟩ => by cases given⟩

/-- A slide show that says much that cannot be taken as it is, and one time that is refused. -/
def strangeRecord (transition : String) : Entries :=
  [("Name", .int 7), ("type", "slideshow"), ("fps", "fast"), ("Width", .real .nan),
    ("height", .map []), ("Items", .list ["~/a.png", .map [("Path", "b.png"), ("Kind", .int 1),
      ("duration", .real (.finite (-5 / 2)))]]),
    ("audio", .list ["song.mp3"]), ("TransitionSeconds", .text transition),
    ("max_clip_duration", .real (.infinite true))]

section Plain

attribute [local instance] Environment.plain

theorem strangeRecord_given_or_rejected :
    Suits .empty (uses (strangeRecord "0:01.5")) ∧ Suits .empty (uses (strangeRecord "soon")) ∧
    ((∃ t, timeline .empty (strangeRecord "0:01.5") = .ok t) ∨
      ∃ cause, timeline .empty (strangeRecord "0:01.5") = .error (.rejected cause)) := by
  have suits : ∀ use ∈ uses (strangeRecord "0:01.5"), use.suits .empty = true := by decide +kernel
  have genuine : ∀ use ∈ uses (strangeRecord "0:01.5"), use.Genuine := by decide +kernel
  have rejected : ∀ use ∈ uses (strangeRecord "soon"), use.suits .empty = true := by decide +kernel
  exact ⟨suits, rejected, (timeline_given_or_rejected .empty genuine).1 suits⟩

/-- Values that suit no use: a rate without an end, a list as a choice, times whose parts cannot
be added up or that are no number on purpose, and a user whose name holds the zero character. -/
theorem endlessRate_stops :
    timeline .empty [("fps", .real (.infinite false))] =
      .error (.outOfRange "cannot convert float infinity to integer") ∧
    timeline .empty [("type", .list [.int 1])] = .error (.wrongKind "unhashable type: 'list'") ∧
    timeline .empty [("transition", "inf:-inf")] = .error (.decimal .invalidOperation) ∧
    timeline .empty [("transition", "snan")] =
      .error (.unreadable "cannot convert signaling NaN to float") ∧
    timeline .empty [("segments", .list ["~a\x00b/c.mp4"])] = .error .zeroInside := by
  refine ⟨by rfl, by rfl, by rfl, by rfl, by rfl⟩

end Plain

end Reel
