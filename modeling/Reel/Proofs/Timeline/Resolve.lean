import Reel.Proofs.Host.Gives
import Reel.Proofs.Number.Order
import Reel.Timeline.Resolve

/-!
# Resolved timelines

Whatever a probe answers, the duration that is made of it lasts: an answer that is no time
counts as zero, and what does not last is replaced. A limit or a slide that is the not-a-number
does no harm, since the greater of two numbers is then the first. So every segment of a resolved
timeline lasts, and every image and every audio item lasts for half a second.
-/
namespace Reel

/-- The duration is positive, and so no not-a-number. -/
def Lasts (x : Double) : Prop := Seconds.lt Seconds.zero x = true

theorem Lasts.isNaN {x : Double} (h : Lasts x) : x.isNaN = false := (Double.isNaN_of_lt h).2

theorem Lasts.max {x : Double} (h : Lasts x) (y : Double) : Lasts (Seconds.max x y) :=
  Double.lt_max h y

/-- The duration is at least half a second. -/
def LastsHalf (x : Double) : Prop := Seconds.le (Double.finite (1 / 2)) x = true

theorem LastsHalf.lasts {x : Double} (h : LastsHalf x) : Lasts x :=
  Double.lt_of_lt_of_le (by decide +kernel) h

namespace Resolve

theorem oneSecond_lasts : Lasts oneSecond := by
  unfold Lasts
  decide +kernel

theorem max_shortestItem_lastsHalf (x : Double) : LastsHalf (Seconds.max shortestItem x) := by
  have shortest : (shortestItem : Double) = .finite (1 / 2) := by decide +kernel
  rw [shortest]
  exact Double.le_max rfl x

theorem probedDuration_isNaN (v : Value) : (probedDuration v).isNaN = false := by
  unfold probedDuration
  split
  · rfl
  · split
    · rfl
    · next x _ =>
        split
        · rfl
        · next number =>
            simp only [Bool.or_eq_true, not_or, Bool.not_eq_true] at number
            exact number.1.1

theorem clipDuration_lasts (limit : Double) {probed : Double} (h : probed.isNaN = false) :
    Lasts (clipDuration limit probed) := by
  unfold clipDuration
  split
  -- A limit that is the not-a-number loses against one second.
  · exact oneSecond_lasts.max limit
  · next lasts =>
      split
      · next cut =>
          rw [Bool.and_eq_true] at cut
          exact cut.1
      · exact Double.lt_of_not_le rfl h (Bool.eq_false_iff.mpr lasts)

theorem itemDuration_lasts (probed : Double) : Lasts (itemDuration probed) := by
  unfold itemDuration
  split
  · next lasts => exact lasts
  · exact oneSecond_lasts

/-- The answer is of the kind that the job asks for, and a duration lasts. -/
inductive Fits : Job → Answer Double → Prop
  | clip (path : Value) {x : Double} : Lasts x → Fits (.clip path) (.duration x)
  | sound (path : Value) (present : Bool) : Fits (.sound path) (.sound present)
  | item (path : Value) {x : Double} : Lasts x → Fits (.item path) (.duration x)

end Resolve

/-- Whoever is asked answers something. -/
structure Prober.Answers (p : Prober) : Prop where
  duration : ∀ path, (p.durationText path).Gives fun _ => True
  sound : ∀ path, (p.soundText path).Gives fun _ => True

namespace Prober

open Resolve

variable {p : Prober}

theorem duration_gives (h : p.Answers) (path : Value) :
    (p.duration path).Gives fun x => x.isNaN = false :=
  (h.duration path).bind fun v _ => .pure (probedDuration_isNaN v)

/-- A limit that is a number can be read, and what a clip's duration is made of is then one
answer. -/
theorem exists_clipDuration_eq (p : Prober) (limit : Double) :
    ∃ x, ∀ path, p.clipDuration path (.real limit) =
      p.duration path >>= fun d => pure (Resolve.clipDuration x d) := by
  have readable : ∃ x, (Value.real limit).toDoubleOrZero = .ok x := by
    unfold Value.toDoubleOrZero
    split
    · exact ⟨limit, rfl⟩
    · exact ⟨.zero, rfl⟩
  obtain ⟨x, hx⟩ := readable
  refine ⟨x, fun path => ?_⟩
  rw [clipDuration, hx]
  simp only [Run.ofExcept, pure_bind]

theorem perform_gives (h : p.Answers) (limit : Double) (job : Job) :
    (p.perform limit job).Gives (Fits job) := by
  cases job with
  | clip path =>
      obtain ⟨x, cut⟩ := exists_clipDuration_eq p limit
      have clip : (p.clipDuration path (.real limit)).Gives Lasts := by
        rw [cut]
        exact (duration_gives h path).bind fun d hd => .pure (clipDuration_lasts x hd)
      exact clip.bind fun d hd => .pure (.clip path hd)
  | sound path =>
      have sound : (p.hasSound path).Gives fun _ => True :=
        (h.sound path).bind fun v _ => .pure trivial
      exact sound.bind fun present _ => .pure (.sound path present)
  | item path =>
      have item : (p.itemDuration path).Gives Lasts :=
        (duration_gives h path).bind fun d _ => .pure (itemDuration_lasts d)
      exact item.bind fun d hd => .pure (.item path hd)

theorem performAll_gives {related : Job → Answer Double → Prop} {limit : Double}
    (each : ∀ job, (p.perform limit job).Gives (related job)) (jobs : List Job) :
    (p.performAll limit jobs).Gives fun answers => List.Forall₂ related jobs answers := by
  refine (Run.Gives.mapM fun job _ => ?_).bind fun outcomes fit => Run.Gives.collect fit
  refine Run.Gives.tryCatch (Run.Gives.map ?_) _
  exact (each job).mono fun answer fits => ⟨answer, rfl, fits⟩

/-- A prepared timeline is filled with what is answered to its jobs, however many workers ask. -/
theorem resolve_gives_of {related : Job → Answer Double → Prop} {t prepared : Timeline Double}
    (each : ∀ job, (p.perform t.maxClip job).Gives (related job)) (workers : Int)
    (hp : prepare t = .ok prepared) :
    (p.resolve workers t).Gives fun resolved =>
      ∃ answers, List.Forall₂ related (jobs prepared) answers ∧
        resolved = fill prepared answers := by
  refine (Run.Gives.ofExcept hp).bind fun same eq => ?_
  subst eq
  dsimp only
  split
  · have all := Run.Gives.mapM fun job (_ : job ∈ jobs same) => each job
    exact all.bind fun answers fit => .pure ⟨answers, fit, rfl⟩
  · exact (performAll_gives each (jobs same)).bind fun answers fit => .pure ⟨answers, fit, rfl⟩

theorem resolve_gives (h : p.Answers) (workers : Int) {t prepared : Timeline Double}
    (hp : prepare t = .ok prepared) :
    (p.resolve workers t).Gives fun resolved =>
      ∃ answers, List.Forall₂ Fits (jobs prepared) answers ∧ resolved = fill prepared answers :=
  resolve_gives_of (perform_gives h t.maxClip) workers hp

end Prober

namespace Resolve

/-- A segment with its medium as it was and a duration that lasts, for half a second if it is an
image. -/
structure Filled (s filled : Segment Double) : Prop where
  path : filled.path = s.path
  kind : filled.kind = s.kind
  lasts : Lasts filled.duration
  image : filled.isImage = true → LastsHalf filled.duration

section Segments

variable {s : Segment Double} {rest : List (Segment Double)}

theorem fillSegments_image (image : s.isImage = true) (ownSound : Bool)
    (answers : List (Answer Double)) :
    fillSegments ownSound (s :: rest) answers =
      (s :: (fillSegments ownSound rest answers).1, (fillSegments ownSound rest answers).2) := by
  rw [fillSegments.eq_def]
  simp only [image, if_true]

theorem fillSegments_clip (clip : s.isImage = false) (x : Double)
    (answers : List (Answer Double)) :
    fillSegments false (s :: rest) (.duration x :: answers) =
      ({ s with duration := x } :: (fillSegments false rest answers).1,
        (fillSegments false rest answers).2) := by
  rw [fillSegments.eq_def]
  simp only [clip, Bool.false_eq_true, if_false]

theorem fillSegments_sounding (clip : s.isImage = false) (x : Double) (present : Bool)
    (answers : List (Answer Double)) :
    fillSegments true (s :: rest) (.duration x :: .sound present :: answers) =
      ({ s with duration := x, hasAudio := .bool present } ::
        (fillSegments true rest answers).1, (fillSegments true rest answers).2) := by
  rw [fillSegments.eq_def]
  simp only [clip, Bool.false_eq_true, if_false]

end Segments

theorem lasts_of_filled {segments filled : List (Segment Double)}
    (h : List.Forall₂ Filled segments filled) :
    ∀ s ∈ filled, Lasts s.duration ∧ (s.isImage = true → LastsHalf s.duration) := by
  induction h with
  | nil => simp
  | cons first _ ih => exact List.forall_mem_cons.mpr ⟨⟨first.lasts, first.image⟩, ih⟩

/-- Answers that fit the jobs of segments fill all of them and are used up; what is no image lasts
as one of them says. -/
theorem fillSegments_filled (ownSound : Bool) {segments : List (Segment Double)}
    (images : ∀ s ∈ segments, s.isImage = true → LastsHalf s.duration)
    {answers : List (Answer Double)}
    (fit : List.Forall₂ Fits (segments.flatMap (segmentJobs ownSound)) answers)
    (left : List (Answer Double)) :
    ∃ filled, fillSegments ownSound segments (answers ++ left) = (filled, left) ∧
      List.Forall₂ Filled segments filled ∧
      ∀ s ∈ filled, s ∈ segments ∧ s.isImage = true ∨ .duration s.duration ∈ answers := by
  -- Images ask for nothing, other segments for one answer or two: the answers follow the list.
  induction segments generalizing answers with
  | nil =>
      cases fit
      exact ⟨[], rfl, .nil, by simp⟩
  | cons s rest ih =>
      rw [List.forall_mem_cons] at images
      rw [List.flatMap_cons, segmentJobs] at fit
      cases image : s.isImage with
      | true =>
          rw [if_pos image, List.nil_append] at fit
          obtain ⟨filled, hf, all, sources⟩ := ih images.2 fit
          have half := images.1 image
          refine ⟨s :: filled, ?_, .cons ⟨rfl, rfl, half.lasts, fun _ => half⟩ all, ?_⟩
          · rw [fillSegments_image image, hf]
          · refine List.forall_mem_cons.mpr ⟨.inl ⟨List.mem_cons_self .., image⟩, fun f hm => ?_⟩
            exact (sources f hm).imp_left fun given => ⟨List.mem_cons_of_mem _ given.1, given.2⟩
      | false =>
          have clip {x : Double} (lasts : Lasts x) (present : Value) :
              Filled s { s with duration := x, hasAudio := present } := by
            refine ⟨rfl, rfl, lasts, fun still => ?_⟩
            have : s.isImage = true := still
            rw [image] at this
            cases this
          have sourced {x : Double} {present : Value} {answers used : List (Answer Double)}
              {filled : List (Segment Double)} (first : .duration x ∈ used)
              (others : ∀ a ∈ answers, a ∈ used) (sources : ∀ f ∈ filled,
                f ∈ rest ∧ f.isImage = true ∨ .duration f.duration ∈ answers) :
              ∀ f ∈ { s with duration := x, hasAudio := present } :: filled,
                f ∈ s :: rest ∧ f.isImage = true ∨ .duration f.duration ∈ used := by
            refine List.forall_mem_cons.mpr ⟨.inr first, fun f hm => ?_⟩
            exact (sources f hm).imp (fun given => ⟨List.mem_cons_of_mem _ given.1, given.2⟩)
              (others _)
          rw [image] at fit
          cases ownSound with
          | true =>
              cases fit with
              | cons first fit =>
                  cases fit with
                  | cons second fit =>
                      cases first with
                      | clip _ lasts =>
                          cases second with
                          | sound _ present =>
                              obtain ⟨filled, hf, all, sources⟩ := ih images.2 fit
                              refine ⟨_ :: filled, ?_, .cons (clip lasts (.bool present)) all,
                                sourced (by simp) (by simp +contextual) sources⟩
                              rw [List.cons_append, List.cons_append,
                                fillSegments_sounding image, hf]
          | false =>
              cases fit with
              | cons first fit =>
                  cases first with
                  | clip _ lasts =>
                      obtain ⟨filled, hf, all, sources⟩ := ih images.2 fit
                      refine ⟨_ :: filled, ?_, .cons (clip lasts s.hasAudio) all,
                        sourced (by simp) (by simp +contextual) sources⟩
                      rw [List.cons_append, fillSegments_clip image, hf]

theorem fill_segments {t : Timeline Double}
    (images : ∀ s ∈ t.segments, s.isImage = true → LastsHalf s.duration)
    {answers : List (Answer Double)} (fit : List.Forall₂ Fits (jobs t) answers) :
    List.Forall₂ Filled t.segments (fill t answers).segments ∧
      ∀ s ∈ (fill t answers).segments,
        s ∈ t.segments ∧ s.isImage = true ∨ .duration s.duration ∈ answers := by
  let asked := t.segments.flatMap (segmentJobs t.useTrackAudio)
  have own : List.Forall₂ Fits asked (answers.take asked.length) := by
    have taken := List.forall₂_take asked.length fit
    rw [jobs, List.take_left] at taken
    exact taken
  obtain ⟨filled, hf, all, sources⟩ :=
    fillSegments_filled t.useTrackAudio images own (answers.drop asked.length)
  rw [List.take_append_drop] at hf
  have result : (fill t answers).segments = filled := by rw [fill, hf]
  rw [result]
  exact ⟨all, fun s hs => (sources s hs).imp_right List.mem_of_mem_take⟩

theorem fillItems_paths (items : List (AudioItem Double)) (answers : List (Answer Double)) :
    (fillItems items answers).map AudioItem.path = items.map AudioItem.path := by
  induction items generalizing answers with
  | nil => rfl
  | cons item rest ih =>
      unfold fillItems
      split
      · split
        · simp [ih]
        · simp [ih]
      · simp [ih]

theorem fill_audioItems_paths (t : Timeline Double) (answers : List (Answer Double)) :
    (fill t answers).audioItems.map AudioItem.path = t.audioItems.map AudioItem.path := by
  simp only [fill, List.map_map, Function.comp_def]
  split
  · rfl
  · exact fillItems_paths t.audioItems _

theorem fill_audioItems_lastHalf (t : Timeline Double) (answers : List (Answer Double)) :
    ∀ item ∈ (fill t answers).audioItems, LastsHalf item.duration := by
  intro item hi
  obtain ⟨given, -, rfl⟩ := List.mem_map.mp hi
  exact max_shortestItem_lastsHalf given.duration

theorem still_filled (projectType : ProjectType) (slide : Double) (s : Segment Double) :
    (still projectType slide s).path = s.path ∧ (still projectType slide s).kind = s.kind ∧
      ((still projectType slide s).isImage = true →
        LastsHalf (still projectType slide s).duration) := by
  unfold still
  split
  · exact ⟨rfl, rfl, fun _ => max_shortestItem_lastsHalf _⟩
  · next clip => exact ⟨rfl, rfl, fun image => (clip image).elim⟩

theorem still_lastsHalf (t : Timeline Double) :
    ∀ s ∈ t.segments.map (still t.projectType t.slide), s.isImage = true →
      LastsHalf s.duration := by
  rw [List.forall_mem_map]
  exact fun s _ => (still_filled t.projectType t.slide s).2.2

end Resolve

/-- A timeline with the media of another and with durations that last. -/
structure Resolved (t resolved : Timeline Double) : Prop where
  segments : List.Forall₂ Resolve.Filled t.segments resolved.segments
  items : ∀ items, t.audioSequence = .ok items →
    resolved.audioItems.map AudioItem.path = items.map AudioItem.path
  lasting : ∀ item ∈ resolved.audioItems, LastsHalf item.duration
  folded : resolved.audioPath = .null

namespace Resolve

theorem prepare_ok {t : Timeline Double} {items : List (AudioItem Double)}
    (h : t.audioSequence = .ok items) :
    prepare t = .ok { t with
      segments := t.segments.map (still t.projectType t.slide), audioItems := items
      audioPath := .null } := by
  rw [prepare, h]
  rfl

theorem fill_resolved {t : Timeline Double} {items : List (AudioItem Double)}
    (h : t.audioSequence = .ok items) {prepared : Timeline Double} (hp : prepare t = .ok prepared)
    {answers : List (Answer Double)} (fit : List.Forall₂ Fits (jobs prepared) answers) :
    Resolved t (fill prepared answers) := by
  rw [prepare_ok h] at hp
  obtain rfl := Except.ok.inj hp
  refine ⟨?_, fun given hg => ?_, fun item hi => ?_, rfl⟩
  · refine (List.forall₂_map_left_iff.mp (fill_segments (still_lastsHalf t) fit).1).imp fun s f hsf => ?_
    obtain ⟨path, kind, -⟩ := still_filled t.projectType t.slide s
    exact ⟨hsf.path.trans path, hsf.kind.trans kind, hsf.lasts, hsf.image⟩
  · obtain rfl : given = items := Except.ok.inj (hg.symm.trans h)
    exact fill_audioItems_paths _ answers
  · exact fill_audioItems_lastHalf _ answers item hi

end Resolve

end Reel
