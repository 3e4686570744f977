import Reel.Environment.Plain
import Reel.Proofs.Timeline.Entries

/-!
# Spelling and order of the entries

A record is read field by field, and a field by the last entry that spells it. So how its keys are
spelled and in which order they stand changes nothing while no field is spelled twice, and where
one is, the entries before the last may as well be left out. Segments and audio items have entries
of their own, for which the same holds.
-/
namespace Reel.Record

variable {files : Files} {spellings : List (String × String)} {R : Value → Value → Value → Prop}
  {P Q : Entries → Entries → Prop} {entries others record other : Entries} {name : String}
  {given v w : Value}

abbrev SameField (spellings : List (String × String)) (key other : Value) : Prop :=
  Value.sameKey (fieldOf spellings key) (fieldOf spellings other) = true

abbrev Distinct (spellings : List (String × String)) (entries : Entries) : Prop :=
  entries.Pairwise fun a b => ¬ SameField spellings a.1 b.1

/-- No field is spelled twice, and the same fields stand in any order under any of their
spellings. `R` tells for each field which values may stand in for each other. -/
structure Respelled (spellings : List (String × String)) (R : Value → Value → Value → Prop)
    (entries others : Entries) : Prop where
  distinct : Distinct spellings entries
  respelled : ∃ reordered, reordered.Perm entries ∧ List.Forall₂ (fun a b =>
    fieldOf spellings b.1 = fieldOf spellings a.1 ∧ R (fieldOf spellings a.1) a.2 b.2)
    reordered others

/-- Some entries are left out whose field a later one spells. -/
inductive Thinned (spellings : List (String × String)) (R : Value → Value → Value → Prop) :
    Entries → Entries → Prop
  | nil : Thinned spellings R [] []
  | keep {key v w : Value} {entries others : Entries} (same : R (fieldOf spellings key) v w)
      (rest : Thinned spellings R entries others) :
      Thinned spellings R ((key, v) :: entries) ((key, w) :: others)
  | leaveOut {entry : Value × Value} {entries others : Entries}
      (again : ∃ later ∈ entries, SameField spellings entry.1 later.1)
      (rest : Thinned spellings R entries others) : Thinned spellings R (entry :: entries) others

/-- Every field has the same value, up to `R`. -/
def Alike (spellings : List (String × String)) (R : Value → Value → Value → Prop)
    (entries others : Entries) : Prop :=
  ∀ name, Option.Rel (R (.text name)) (field? (rename spellings entries) name)
    (field? (rename spellings others) name)

/-- The same item, its entries changed within `P`. -/
inductive ItemUpTo (P : Entries → Entries → Prop) : Value → Value → Prop
  | same (v : Value) : ItemUpTo P v v
  | entries {es es' : Entries} (h : P es es') : ItemUpTo P (.map es) (.map es')

/-- The fields that hold lists of items with entries of their own. -/
def itemFields : List Value := ["segments", "audio"]

/-- The same value of a field, the entries of its items changed within `P`. -/
inductive ValueUpTo (P : Entries → Entries → Prop) (field : Value) : Value → Value → Prop
  | same (v : Value) : ValueUpTo P field v v
  | items {items items' : List Value} (listed : field ∈ itemFields)
      (h : List.Forall₂ (ItemUpTo P) items items') : ValueUpTo P field (.list items) (.list items')

/-- The same record, its fields and those of its items in any order and under any spelling. -/
abbrev RespelledRecord : Entries → Entries → Prop :=
  Respelled projectSpellings (ValueUpTo (Respelled itemSpellings fun _ => Eq))

/-- The same record without some of the entries that a later one of their level replaces. -/
abbrev ThinnedRecord : Entries → Entries → Prop :=
  Thinned projectSpellings (ValueUpTo (Thinned itemSpellings fun _ => Eq))

theorem field?_cons (key v : Value) (rest : Entries) :
    field? ((key, v) :: rest) name =
      (field? rest name).or (if key = .text name then some v else none) := by
  rw [← List.singleton_append, field?_append]
  simp only [field?, Value.lookup?, Value.sameKey_text]

theorem mem_of_field? (h : field? entries name = some v) : (.text name, v) ∈ entries := by
  induction entries with
  | nil => cases h
  | cons entry rest ih =>
      rw [field?_cons, Option.or_eq_some_iff] at h
      rcases h with later | ⟨-, here⟩
      · exact List.mem_cons_of_mem _ (ih later)
      · obtain ⟨named, rfl⟩ := Option.ite_some_none_eq_some.mp here
        rw [← named]
        exact List.mem_cons_self

/-- Where no key stands twice, every entry is the last one under its key. -/
theorem field?_of_mem (distinct : entries.Pairwise fun a b => ¬ Value.sameKey a.1 b.1 = true)
    (mem : (.text name, v) ∈ entries) : field? entries name = some v := by
  induction entries with
  | nil => cases mem
  | cons entry rest ih =>
      obtain ⟨head, tail⟩ := List.pairwise_cons.mp distinct
      rw [field?_cons]
      rcases List.mem_cons.mp mem with rfl | mem
      · have none : field? rest name = none := by
          rw [field?_eq_none_iff]
          rintro later mem same
          exact head later mem (by rw [same, Value.sameKey_text])
        rw [none, if_pos rfl, Option.none_or]
      · rw [ih tail mem, Option.some_or]

theorem field?_perm (distinct : entries.Pairwise fun a b => ¬ Value.sameKey a.1 b.1 = true)
    (perm : others.Perm entries) : field? others name = field? entries name := by
  cases found : field? others name with
  | some v => exact (field?_of_mem distinct (perm.mem_iff.mp (mem_of_field? found))).symm
  | none =>
      rw [eq_comm, field?_eq_none_iff]
      intro entry mem
      exact field?_eq_none_iff.mp found entry (perm.mem_iff.mpr mem)

/-- Two values under one key in front of entries that are alike. -/
theorem rel_field?_cons {S : Value → Value → Prop} {key : Value}
    (same : key = .text name → S v w)
    (rest : Option.Rel S (field? entries name) (field? others name)) :
    Option.Rel S (field? ((key, v) :: entries) name) (field? ((key, w) :: others) name) := by
  rw [field?_cons, field?_cons]
  generalize field? entries name = first, field? others name = second at rest
  cases rest with
  | some found => exact .some found
  | none =>
      by_cases named : key = .text name
      · rw [if_pos named, if_pos named]
        exact .some (same named)
      · rw [if_neg named, if_neg named]
        exact .none

theorem Respelled.alike (h : Respelled spellings R entries others) :
    Alike spellings R entries others := by
  obtain ⟨distinct, reordered, perm, same⟩ := h
  intro name
  have renamed : (rename spellings entries).Pairwise fun a b => ¬ Value.sameKey a.1 b.1 = true :=
    List.pairwise_map.mpr distinct
  rw [← field?_perm renamed (perm.map _), ← rename]
  clear perm
  induction same with
  | nil => exact .none
  | @cons a b _ _ same _ ih =>
      obtain ⟨field, value⟩ := same
      change Option.Rel _ (field? ((fieldOf spellings a.1, a.2) :: rename ..) name)
        (field? ((fieldOf spellings b.1, b.2) :: rename ..) name)
      rw [field]
      exact rel_field?_cons (fun named => named ▸ value) ih

theorem Thinned.alike (h : Thinned spellings R entries others) :
    Alike spellings R entries others := by
  intro name
  induction h with
  | nil => exact .none
  | keep same _ ih => exact rel_field?_cons (fun named => named ▸ same) ih
  | @leaveOut entry entries others again _ ih =>
      change Option.Rel _ (field? ((fieldOf spellings entry.1, entry.2) :: rename ..) name) _
      rw [field?_cons]
      by_cases named : fieldOf spellings entry.1 = .text name
      · -- the later entry under the same name is the one that counts
        obtain ⟨later, mem, again⟩ := again
        have heard : field? (rename spellings entries) name ≠ none := by
          intro silent
          refine field?_eq_none_iff.mp silent _ (List.mem_map_of_mem mem) ?_
          rw [SameField, named] at again
          exact Value.text_sameKey.mp again
        obtain ⟨v, found⟩ := Option.ne_none_iff_exists'.mp heard
        rw [found, Option.some_or, ← found]
        exact ih
      · rw [if_neg named, Option.or_none]
        exact ih

theorem Alike.agree (h : Alike spellings (fun _ => Eq) entries others) (name : String) :
    Agree (rename spellings entries) (rename spellings others) name := by
  have same := h name
  unfold Agree
  generalize field? (rename spellings entries) name = first,
    field? (rename spellings others) name = second at same ⊢
  cases same with
  | some same => rw [same]
  | none => rfl

section
variable [Environment] (alike : ∀ {es es'}, P es es' → Alike itemSpellings (fun _ => Eq) es es')
include alike

theorem segment_congr (h : ItemUpTo P v w) : segment files w = segment files v := by
  cases h with
  | same => rfl
  | entries h =>
      have same (name : String) := ((alike h).agree name).field
      simp only [segment, segmentKind, itemEntries, itemFile, same, bind, Except.bind]

theorem audioItem_congr (h : ItemUpTo P v w) : audioItem w = audioItem v := by
  cases h with
  | same => rfl
  | entries h =>
      have same (name : String) := ((alike h).agree name).field
      simp only [audioItem, itemEntries, itemFile, same, bind, Except.bind]

end

theorem mapM_congr_of_forall₂ {α : Type} {S : Value → Value → Prop} {read : Value → Except Error α}
    (same : ∀ v w, S v w → read w = read v) {given others : List Value}
    (h : List.Forall₂ S given others) : others.mapM read = given.mapM read := by
  induction h with
  | nil => rfl
  | cons item _ ih => rw [List.mapM_cons, List.mapM_cons, same _ _ item, ih]

theorem items_congr {α : Type} {read : Value → Except Error α}
    (same : ∀ v w, ItemUpTo P v w → read w = read v)
    (h : Alike projectSpellings (ValueUpTo P) record other) (name : String) :
    (do (← items name (field (rename projectSpellings other) name)).mapM read) =
      (do (← items name (field (rename projectSpellings record) name)).mapM read) := by
  have alike := h name
  unfold field
  generalize field? (rename projectSpellings record) name = first,
    field? (rename projectSpellings other) name = second at alike ⊢
  cases alike with
  | none => rfl
  | some found =>
      cases found with
      | same => rfl
      | items _ found => exact mapM_congr_of_forall₂ same found

theorem agree_of_alike (h : Alike projectSpellings (ValueUpTo P) record other)
    (single : .text name ∉ itemFields) :
    Agree (rename projectSpellings record) (rename projectSpellings other) name := by
  have same := h name
  unfold Agree
  generalize field? (rename projectSpellings record) name = first,
    field? (rename projectSpellings other) name = second at same ⊢
  cases same with
  | none => rfl
  | some found =>
      cases found with
      | same => rfl
      | items listed => exact absurd listed single

theorem timeline_congr [Environment]
    (alike : ∀ {es es'}, P es es' → Alike itemSpellings (fun _ => Eq) es es')
    (h : Alike projectSpellings (ValueUpTo P) record other) :
    timeline files other = timeline files record := by
  have agree (name : String) (single : .text name ∉ itemFields) := agree_of_alike h single
  have each (v w : Value) (item : ItemUpTo P v w) : segment files w = segment files v :=
    segment_congr alike item
  have segments := items_congr each h "segments"
  have audioItems := items_congr (fun _ _ => audioItem_congr alike) h "audio"
  have size := dimensions_congr (agree "resolution" (by decide)) (agree "width" (by decide))
    (agree "height" (by decide))
  have join := choice?_congr joinModes (agree "join" (by decide))
  have type := choice?_congr projectTypes (agree "type" (by decide))
  unfold timeline
  simp only [size, join, type, (agree "name" (by decide)).field,
    (agree "audio_path" (by decide)).field, (agree "audio_duration" (by decide)).field,
    (agree "transition" (by decide)).field, (agree "slide_duration" (by decide)).field,
    (agree "max_clip_duration" (by decide)).field, agree "use_track_audio" (by decide),
    agree "fps" (by decide), agree "output_format" (by decide)]
  refine bind_congr fun size => ?_
  rw [← bind_assoc, segments, bind_assoc]
  refine bind_congr fun given => bind_congr fun segments => ?_
  rw [← bind_assoc, audioItems, bind_assoc]

/-- Neither other spellings and another order of the fields, nor leaving out what is replaced by a
later entry, change the timeline that a record gives, or the reason why it gives none. -/
theorem timeline_respelled [Environment] (files : Files) (record other : Entries) :
    (RespelledRecord record other → timeline files other = timeline files record) ∧
    (ThinnedRecord record other → timeline files other = timeline files record) :=
  ⟨fun h => timeline_congr Respelled.alike h.alike, fun h => timeline_congr Thinned.alike h.alike⟩

/-- A record of the desktop editor, with a key that names no field. -/
def editorRecord : Entries :=
  [("Name", "trip"), ("Items", .list [.map [("Path", "a.png"), ("Kind", "photo")], "b.mp4"]),
    (.int 3, .null), ("Fps", .int 25)]

def handRecord : Entries :=
  [("fps", .int 25), (.int 3, .null),
    ("segments", .list [.map [("kind", "photo"), ("file", "a.png")], "b.mp4"]), ("name", "trip")]

/-- The same record with more that is replaced further on. -/
def doubledRecord : Entries :=
  [("fps", "fast"), ("Name", "trip"), ("segments", .null),
    ("Items", .list [.map [("file", "c.png"), ("Path", "a.png"), ("Kind", "photo")], "b.mp4"]),
    (.int 3, .null), ("Fps", .int 25)]

section Plain

attribute [local instance] Environment.plain

theorem timeline_handRecord :
    (RespelledRecord editorRecord handRecord ∧ ThinnedRecord doubledRecord editorRecord) ∧
    timeline .empty handRecord = timeline .empty editorRecord ∧
    timeline .empty editorRecord = timeline .empty doubledRecord := by
  have respelled : RespelledRecord editorRecord handRecord := by
    have photo : Respelled itemSpellings (fun _ => Eq) [("Path", "a.png"), ("Kind", "photo")]
        [("kind", "photo"), ("file", "a.png")] :=
      ⟨by decide, _, List.reverse_perm _, .cons ⟨rfl, rfl⟩ (.cons ⟨rfl, rfl⟩ .nil)⟩
    have items : ValueUpTo (Respelled itemSpellings fun _ => Eq) "segments" _ _ :=
      .items (by decide) (.cons (.entries photo) (.cons (.same "b.mp4") .nil))
    exact ⟨by decide, editorRecord.reverse, List.reverse_perm _, .cons ⟨rfl, .same _⟩
      (.cons ⟨rfl, .same _⟩ (.cons ⟨rfl, items⟩ (.cons ⟨rfl, .same _⟩ .nil)))⟩
  have thinned : ThinnedRecord doubledRecord editorRecord := by
    have photo : Thinned itemSpellings (fun _ => Eq)
        [("file", "c.png"), ("Path", "a.png"), ("Kind", "photo")]
        [("Path", "a.png"), ("Kind", "photo")] :=
      .leaveOut (by decide) (.keep rfl (.keep rfl .nil))
    have items : ValueUpTo (Thinned itemSpellings fun _ => Eq) "segments" _ _ :=
      .items (by decide) (.cons (.entries photo) (.cons (.same "b.mp4") .nil))
    exact .leaveOut (by decide) (.keep (.same _) (.leaveOut (by decide) (.keep items
      (.keep (.same _) (.keep (.same _) .nil)))))
  exact ⟨⟨respelled, thinned⟩, (timeline_respelled .empty _ _).1 respelled,
    (timeline_respelled .empty _ _).2 thinned⟩

end Plain

end Reel.Record
