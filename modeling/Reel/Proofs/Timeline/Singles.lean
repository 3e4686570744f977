import Reel.Environment.Plain
import Reel.Proofs.Timeline.Records

/-!
# A single audio file

A record names its only audio file by a path and a duration of their own, or as a list of one item.
Both ways give the same sound, except that a leading tilde stands for the home directory in the
item only: the path of its own is taken as it is written.
-/
namespace Reel

open Record

theorem Double.unsigned_eq {x : Double} (signed : x ≠ .negZero) : Seconds.unsigned x = x := by
  have zero : (Seconds.zero : Double) = .finite 0 := by decide +kernel
  unfold Seconds.unsigned
  rw [zero]
  split
  · next both =>
      obtain ⟨below, above⟩ := Bool.and_eq_true_iff.mp both
      rcases x with _ | (_ | _) | _ | v
      · cases below
      · cases below
      · cases above
      · exact (signed rfl).elim
      · simp only [Seconds.le, lt, eq, toRat?, Bool.or_eq_true, decide_eq_true_eq] at below above
        simp at below above
        have same : v = 0 := by grind
        rw [same]
  · rfl

theorem Value.toDoubleOrZero_ne_negZero {x y : Double} (h : (Value.real x).toDoubleOrZero = .ok y) :
    y ≠ .negZero := by
  rintro rfl
  unfold toDoubleOrZero at h
  split at h
  · next lasting =>
      obtain rfl : x = .negZero := Except.ok.inj h
      exact absurd lasting (by decide)
  · exact absurd (Except.ok.inj h) (by decide)

namespace Record

variable {files : Files} {entries others record : Entries} {path : String} {duration : Value}
  {t : Timeline Double} {x : Double}

/-- An audio file with its duration as entries of their own. -/
def asFile (path : String) (duration : Value) : Entries :=
  [("audio_path", path), ("audio_duration", duration)]

/-- An audio file with its duration as the only item of a list. -/
def asItem (path : String) (duration : Value) : Entries :=
  [("audio", .list [.map [("file", path), ("duration", duration)]])]

theorem rename_asFile (path : String) (duration : Value) :
    rename projectSpellings (record ++ asFile path duration) =
      rename projectSpellings record ++ asFile path duration := by
  rw [rename_append]
  rfl

theorem rename_asItem (path : String) (duration : Value) :
    rename projectSpellings (record ++ asItem path duration) =
      rename projectSpellings record ++ asItem path duration := by
  rw [rename_append]
  rfl

theorem agree_asFile {name : String} (other : name ∉ ["audio_path", "audio_duration"]) :
    Agree (rename projectSpellings record) (rename projectSpellings (record ++ asFile path duration))
      name := by
  rw [Agree, rename_asFile, field?_append_other]
  simpa [asFile, eq_comm] using other

theorem agree_asItem {name : String} (other : name ≠ "audio") :
    Agree (rename projectSpellings record) (rename projectSpellings (record ++ asItem path duration))
      name := by
  rw [Agree, rename_asItem, field?_append_other]
  simpa [asItem, eq_comm] using other

section

variable [Environment]

def soundFields : List String := ["audio", "audio_path", "audio_duration"]

/-- A record that says the same but for its sound gives the same timeline but for its sound. -/
theorem Tells.resound (h : Tells files entries t)
    (same : ∀ name ∉ soundFields, Agree entries others name) {heard : List (AudioItem Double)}
    {file : Value} (audio : (do (← items "audio" (field others "audio")).mapM audioItem) = .ok heard)
    (single : file = field others "audio_path")
    (lasting : time .zero (field others "audio_duration") = .ok x) :
    Tells files others { t with audioItems := heard, audioPath := file, audioDuration := x } where
  size := by
    rw [dimensions_congr (same _ (by decide)) (same _ (by decide)) (same _ (by decide))]
    exact h.size
  segments := by rw [(same "segments" (by decide)).field]; exact h.segments
  audioItems := audio
  join := by rw [choice?_congr _ (same _ (by decide))]; exact h.join
  projectType := by rw [choice?_congr _ (same _ (by decide))]; exact h.projectType
  name := by rw [(same "name" (by decide)).field]; exact h.name
  audioPath := single
  audioDuration := lasting
  useTrackAudio := by rw [same "use_track_audio" (by decide)]; exact h.useTrackAudio
  fps := by rw [same "fps" (by decide)]; exact h.fps
  transition := by rw [(same "transition" (by decide)).field]; exact h.transition
  slide := by rw [(same "slide_duration" (by decide)).field]; exact h.slide
  maxClip := by rw [(same "max_clip_duration" (by decide)).field]; exact h.maxClip
  outputFormat := by rw [same "output_format" (by decide)]; exact h.outputFormat

theorem audioItem_eq (named : Text.blank path = false) (timed : time .zero duration = .ok x) :
    audioItem (.map [("file", path), ("duration", duration)]) =
      (Files.expandHome path).map fun expanded => ⟨.text expanded, x⟩ := by
  obtain ⟨seconds, read, kept⟩ := exists_of_bind_ok timed
  have entries : itemEntries .audioEntry (.map [("file", path), ("duration", duration)]) =
      .ok [("file", path), ("duration", duration)] := rfl
  have file : itemFile .audioFile [("file", path), ("duration", duration)] = .ok path := by
    change (if Text.blank path then reject .audioFile else .ok path) = .ok path
    rw [named]
    rfl
  have lasting : field [("file", path), ("duration", duration)] "duration" = duration := rfl
  simp only [audioItem, entries, file, lasting, read, bind, Except.bind]
  cases Files.expandHome path with
  | error e => rfl
  | ok expanded =>
      simp only [AudioItem.ofValue, kept, bind, Except.bind]
      rfl

/-- The only item of a list, with the home directory written out. -/
theorem items_asItem (named : Text.blank path = false) (timed : time .zero duration = .ok x) :
    (do (← items "audio" (field (rename projectSpellings (record ++ asItem path duration))
      "audio")).mapM audioItem) =
      (Files.expandHome path).map fun expanded => [⟨.text expanded, x⟩] := by
  have listed : field (rename projectSpellings (record ++ asItem path duration)) "audio" =
      .list [.map [("file", path), ("duration", duration)]] := by
    rw [field, rename_asItem, field?_append]
    rfl
  have item := audioItem_eq named timed
  simp only [listed, items, List.mapM_cons, List.mapM_nil, item, bind, Except.bind]
  cases Files.expandHome path <;> rfl

/-- The record has no list of audio items, or an empty one. -/
def Itemless (record : Entries) : Prop :=
  field (rename projectSpellings record) "audio" = .null ∨
    field (rename projectSpellings record) "audio" = .list []

theorem Itemless.items (h : Itemless record) :
    (do (← Record.items "audio" (field (rename projectSpellings record) "audio")).mapM audioItem) =
      .ok [] := by
  rcases h with none | none <;> rw [none] <;> rfl

theorem timeline_asFile (itemless : Itemless record) (given : timeline files record = .ok t)
    (timed : time .zero duration = .ok x) :
    timeline files (record ++ asFile path duration) =
      .ok { t with audioItems := [], audioPath := path, audioDuration := x } := by
  have said (name : String) (v : Value) (entry : field? (asFile path duration) name = some v) :
      field (rename projectSpellings (record ++ asFile path duration)) name = v := by
    rw [field, rename_asFile, field?_append, entry]
    rfl
  rw [timeline_eq_ok_iff]
  refine (tells_of_timeline given).resound (fun name other => agree_asFile ?_) ?_ ?_ ?_
  · simp only [soundFields, List.mem_cons, not_or] at other ⊢
    exact other.2
  · rw [(agree_asFile (by decide)).field]
    exact itemless.items
  · exact (said "audio_path" path rfl).symm
  · rw [said "audio_duration" duration rfl]
    exact timed

/-- An audio item is kept with the home directory written out. -/
theorem timeline_asItem (given : timeline files record = .ok t) (named : Text.blank path = false)
    (timed : time .zero duration = .ok x) {expanded : String}
    (expands : Files.expandHome path = .ok expanded) :
    timeline files (record ++ asItem path duration) =
      .ok { t with audioItems := [⟨expanded, x⟩] } := by
  have told := tells_of_timeline given
  rw [timeline_eq_ok_iff]
  refine told.resound (fun name other => agree_asItem ?_) ?_ ?_ ?_
  · rintro rfl
    exact other (by decide)
  · rw [items_asItem named timed, expands]
    rfl
  · rw [(agree_asItem (by decide)).field]
    exact told.audioPath
  · rw [(agree_asItem (by decide)).field]
    exact told.audioDuration

/-- A record that is given with an audio item is given without, and with the item's path written
out. -/
theorem exists_of_timeline_asItem (itemless : Itemless record)
    (h : timeline files (record ++ asItem path duration) = .ok t)
    (named : Text.blank path = false) (timed : time .zero duration = .ok x) :
    (∃ t, timeline files record = .ok t) ∧
      ∃ expanded, Files.expandHome path = .ok expanded ∧ t.audioItems = [⟨expanded, x⟩] := by
  have told := tells_of_timeline h
  constructor
  · refine ⟨_, timeline_of_tells (told.resound (fun name other => Eq.symm (agree_asItem ?_))
      itemless.items rfl (x := t.audioDuration) ?_)⟩
    · rintro rfl
      exact other (by decide)
    · rw [← (agree_asItem (by decide)).field]
      exact told.audioDuration
  · have heard := told.audioItems
    rw [items_asItem named timed] at heard
    obtain ⟨expanded, expands, heard⟩ := exists_of_map_ok heard
    exact ⟨expanded, expands, heard.symm⟩

/-- Both ways to name the only audio file give a timeline, and the same sound. -/
def SameSound (files : Files) (record : Entries) (path : String) (duration : Value) : Prop :=
  ∃ one other heard, timeline files (record ++ asFile path duration) = .ok one ∧
    timeline files (record ++ asItem path duration) = .ok other ∧
    one.audioSequence = .ok heard ∧ other.audioSequence = .ok heard

/-- Where a record gives a timeline and has no audio items, an audio file of its own means the same
as a list of one item exactly if its path is the same with the home directory written out. -/
theorem sameSound_iff (files : Files) {record : Entries} (itemless : Itemless record)
    {path : String}
    (named : Text.blank path = false) {duration : Value} {seconds : Double}
    (timed : Timecode.secondsOr (.real .zero) duration = .ok seconds) :
    SameSound files record path duration ↔
      (∃ t, timeline files record = .ok t) ∧ Files.expandHome path = .ok path := by
  obtain ⟨x, kept, -⟩ := Value.toDoubleOrZero_real seconds
  have timed : time .zero duration = .ok x := by
    rw [time, timed]
    exact kept
  have unsigned := Double.unsigned_eq (Value.toDoubleOrZero_ne_negZero kept)
  have single {t : Timeline Double} (items : t.audioItems = []) (file : t.audioPath = path)
      (lasts : t.audioDuration = x) : t.audioSequence = .ok [⟨path, x⟩] := by
    rw [Timeline.audioSequence, items, file, lasts]
    simp [named, unsigned]
  constructor
  · rintro ⟨one, other, heard, hone, hother, first, second⟩
    obtain ⟨⟨t, given⟩, expanded, expands, items⟩ :=
      exists_of_timeline_asItem itemless hother named timed
    rw [timeline_asFile itemless given timed] at hone
    obtain rfl := Except.ok.inj hone
    rw [single rfl rfl rfl] at first
    rw [Timeline.audioSequence, items] at second
    obtain ⟨same⟩ : [⟨.text expanded, x⟩] = [(⟨path, x⟩ : AudioItem Double)] :=
      Except.ok.inj (second.trans first.symm)
    exact ⟨⟨t, given⟩, expands⟩
  · rintro ⟨⟨t, given⟩, expands⟩
    exact ⟨_, _, _, timeline_asFile itemless given timed, timeline_asItem given named timed expands,
      single rfl rfl rfl, rfl⟩

end

section Plain

attribute [local instance] Environment.plain

/-- A path into the home of a user who is not known stays as it is. -/
theorem sameSound_otherUser :
    SameSound .empty [("Items", .list ["~/a.png"]), ("AudioItems", .list [])] "~ana/song.mp3"
      "1:30" := by
  have timed : Timecode.secondsOr (.real .zero) "1:30" = .ok (.finite 90) := by decide +kernel
  have kept : Files.expandHome "~ana/song.mp3" = .ok "~ana/song.mp3" := by decide +kernel
  have given : (timeline .empty [("Items", .list ["~/a.png"]), ("AudioItems", .list [])]).isOk =
      true := by decide +kernel
  exact (sameSound_iff .empty (.inr rfl) (by decide) timed).mpr ⟨exists_of_isOk given, kept⟩

/-- A path into the own home is kept as it is written, and its directory is written out in the
item. -/
theorem not_sameSound_ownHome :
    (∃ t, timeline .empty ([] ++ asFile "~/song.mp3" (.int 5)) = .ok t ∧
      t.audioSequence = .ok [⟨"~/song.mp3", .finite 5⟩]) ∧
    (∃ t, timeline .empty ([] ++ asItem "~/song.mp3" (.int 5)) = .ok t ∧
      t.audioSequence = .ok [⟨"home/song.mp3", .finite 5⟩]) ∧
    ¬ SameSound .empty [] "~/song.mp3" (.int 5) := by
  obtain ⟨t, given⟩ : ∃ t, timeline .empty [] = .ok t := ⟨_, rfl⟩
  have timed : time .zero (.int 5) = .ok (.finite 5) := by decide +kernel
  have expands : Files.expandHome "~/song.mp3" = .ok "home/song.mp3" := by decide +kernel
  have first : timeline .empty ([] ++ asFile "~/song.mp3" (.int 5)) = .ok _ :=
    timeline_asFile (.inl rfl) given timed
  have second : timeline .empty ([] ++ asItem "~/song.mp3" (.int 5)) = .ok _ :=
    timeline_asItem given (by decide) timed expands
  refine ⟨⟨_, first, rfl⟩, ⟨_, second, rfl⟩, ?_⟩
  rintro ⟨one, other, heard, hone, hother, heard_one, heard_other⟩
  obtain rfl := Except.ok.inj (first.symm.trans hone)
  obtain rfl := Except.ok.inj (second.symm.trans hother)
  obtain rfl : [⟨"~/song.mp3", .finite 5⟩] = heard := Except.ok.inj heard_one
  have same : ([⟨"home/song.mp3", .finite 5⟩] : List (AudioItem Double)) =
    [⟨"~/song.mp3", .finite 5⟩] := Except.ok.inj heard_other
  exact absurd (Value.text.inj (AudioItem.mk.inj (List.cons.inj same).1).1) (by decide)

end Plain

end Record

end Reel
