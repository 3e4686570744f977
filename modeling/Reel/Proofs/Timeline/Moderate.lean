import Reel.Proofs.Graph.Bounds
import Reel.Proofs.Graph.Defects
import Reel.Proofs.Timeline.Records

/-!
# Timelines of moderate durations

A probe is believed up to a longest duration; the other durations of a timeline are taken as they
are. Where none of them is longer than that either, and where no clip is so short that its
duration is written as zero, resolving gives a timeline whose graph can be built and written.
-/
namespace Reel

open Resolve Timecode

/-- The duration is no longer than a probe is believed. -/
def Double.Believable (x : Double) : Prop := longestProbe.lt x = false

instance (x : Double) : Decidable x.Believable := inferInstanceAs (Decidable (_ = _))

/-- The smallest number of seconds that is written as a number greater than zero. -/
def halfMillionth : Double := Double.round (5 / 10 ^ 7)

/-- A duration that lasts is not written as zero. -/
def Double.Visible (x : Double) : Prop := Lasts x → Seconds.lt x halfMillionth = false

instance (x : Double) : Decidable (Lasts x) := inferInstanceAs (Decidable (_ = _))

instance (x : Double) : Decidable x.Visible := inferInstanceAs (Decidable (_ → _))

/-- Nothing, or what a path may be given as. -/
def Value.namesFile : Value → Bool
  | .null | .text _ | .bytes _ => true
  | _ => false

/-- All durations that are not probed are believable, and clips are not cut to an invisible one.
The rest of the timeline can be taken for what it is meant to be. -/
@[mk_iff]
structure Timeline.Moderate (t : Timeline Double) : Prop where
  images : ∀ s ∈ t.segments, s.isImage = true → s.duration.Believable
  slide : t.slide.Believable
  transition : ∀ T ∈ t.transition, T.Believable
  maxClip : t.maxClip.Believable ∧ t.maxClip.Visible
  items : ∀ item ∈ t.audioItems, item.duration.Believable
  audioDuration : t.audioDuration.Believable
  audioPath : t.audioPath.namesFile = true
  fewSegments : t.segments.length ≤ 2 ^ 41
  fewItems : t.audioItems.length ≤ 2 ^ 41
  picture : t.width.isLegible = true ∧ t.height.isLegible = true ∧ t.fps.isLegible = true

instance (t : Timeline Double) : Decidable t.Moderate :=
  decidable_of_iff _ (Timeline.moderate_iff t).symm

/-- Whoever is asked answers something, and no duration that is invisible. -/
structure Prober.Measures (p : Prober) : Prop where
  duration : ∀ path, (p.durationText path).Gives fun v => (probedDuration v).Visible
  sound : ∀ path, (p.soundText path).Gives fun _ => True

theorem Prober.Measures.answers {p : Prober} (h : p.Measures) : p.Answers :=
  ⟨fun path => (h.duration path).mono fun _ _ => trivial, h.sound⟩

theorem Run.Gives.and {α : Type} {run : Run α} {post more : α → Prop} (h : run.Gives post)
    (k : run.Gives more) : run.Gives fun x => post x ∧ more x := by
  intro host
  obtain ⟨x, after, ends, hx⟩ := h host
  obtain ⟨y, after', ends', hy⟩ := k host
  obtain ⟨same, rfl⟩ := Prod.mk.inj (ends.symm.trans ends')
  obtain rfl := Except.ok.inj same
  exact ⟨x, after, ends, hx, hy⟩

namespace Double

variable {x y limit probed : Double} {a b : ℚ}

theorem AtMost.mono (h : x.AtMost a) (le : a ≤ b) : x.AtMost b := by
  unfold AtMost at *
  rcases x with _ | (_ | _) | _ | v <;> simp [Seconds.lt, Double.lt] at h ⊢ <;> linarith

theorem Believable.atMost (h : x.Believable) : x.AtMost longest := by
  have top : longestProbe = finite 1000000000 := by decide +kernel
  rw [Believable, top] at h
  exact AtMost.mono (a := 1000000000) h (by norm_num [longest])

theorem Within.max_of_atMost (h : x.Within a b) (kept : y.Kept)
    (most : (Seconds.max x y).AtMost b) : (Seconds.max x y).Within a b := by
  unfold Seconds.max at most ⊢
  split at most
  · next lt =>
      have within := h.max kept most
      unfold Seconds.max at within
      rwa [if_pos lt] at within ⊢
  · next ge => rwa [if_neg ge]

theorem max_atMost (hx : x.AtMost a) (hy : y.AtMost a) : (Seconds.max x y).AtMost a := by
  unfold Seconds.max
  split
  · exact hy
  · exact hx

theorem within_of_lasts (kept : x.Kept) (most : x.AtMost longest) (visible : x.Visible)
    (lasts : Lasts x) : x.Within brief longest := by
  obtain ⟨v, hv, -, le⟩ := exists_of_lt (x := Seconds.zero) (v := 0) rfl lasts most
  have half : halfMillionth = finite brief := round_brief
  have long := visible lasts
  rw [half, lt_eq (y := finite brief) hv rfl, decide_eq_false_iff_not, not_lt] at long
  exact ⟨kept, v, hv, long, le⟩

theorem zero_visible : zero.Visible := by
  intro lasts
  revert lasts
  unfold Lasts
  decide +kernel

end Double

namespace Resolve

variable {limit probed x : Double}

theorem oneSecond_within : (oneSecond : Double).Within brief longest := by
  have one : Double.Exact 1 := by
    unfold Double.Exact
    decide +kernel
  exact (Double.round_within one exact_longest (by norm_num) le_rfl (by norm_num [longest])).mono
    (by norm_num [brief]) le_rfl

theorem max_shortestItem_within (kept : x.Kept) (most : x.AtMost longest) :
    (Seconds.max shortestItem x).Within brief longest := by
  have half : Double.Exact (1 / 2) := by
    unfold Double.Exact
    decide +kernel
  have shortest : (shortestItem : Double).Within (1 / 2) longest :=
    Double.round_within half exact_longest (by norm_num) le_rfl (by norm_num [longest])
  exact (shortest.max kept most).mono (by norm_num [brief]) le_rfl

theorem probedDuration_kept (v : Value) : (probedDuration v).Kept := by
  unfold probedDuration
  split
  · exact Double.zero_kept
  · split
    · exact Double.zero_kept
    · next x read =>
        split
        · exact Double.zero_kept
        · exact Double.read?_kept read

theorem probedDuration_believable (v : Value) : (probedDuration v).Believable := by
  have zero : Double.zero.Believable := by
    unfold Double.Believable
    decide +kernel
  unfold probedDuration
  split
  · exact zero
  · split
    · exact zero
    · split
      · exact zero
      · next believed => simp_all [Double.Believable]

theorem clipDuration_within (v : Value) (visible : (probedDuration v).Visible)
    (kept : limit.Kept) (most : limit.AtMost longest) (cut : limit.Visible) :
    (clipDuration limit (probedDuration v)).Within brief longest := by
  unfold clipDuration
  split
  · exact oneSecond_within.max kept most
  · next lasts =>
      split
      · next both =>
          rw [Bool.and_eq_true] at both
          exact Double.within_of_lasts kept most cut both.1
      · exact Double.within_of_lasts (probedDuration_kept v)
          (probedDuration_believable v).atMost visible
          (Double.lt_of_not_le rfl (probedDuration_isNaN v) (Bool.eq_false_iff.mpr lasts))

theorem itemDuration_within (v : Value) (visible : (probedDuration v).Visible) :
    (itemDuration (probedDuration v)).Within brief longest := by
  unfold itemDuration
  split
  · next lasts =>
      exact Double.within_of_lasts (probedDuration_kept v) (probedDuration_believable v).atMost
        visible lasts
  · exact oneSecond_within

/-- A duration that was found out is moderate and visible. -/
def Measures (answer : Answer Double) : Prop :=
  ∀ x, answer = .duration x → x.Within brief longest

theorem duration_gives_visible {p : Prober} (h : p.Measures) (path : Value) :
    (p.duration path).Gives fun x => ∃ v, (probedDuration v).Visible ∧ x = probedDuration v :=
  (h.duration path).bind fun v visible => .pure ⟨v, visible, rfl⟩

theorem perform_measures {p : Prober} (h : p.Measures) (kept : limit.Kept)
    (most : limit.AtMost longest) (cut : limit.Visible) (job : Job) :
    (p.perform limit job).Gives Measures := by
  have found {x : Double} (within : x.Within brief longest) : Measures (.duration x) := by
    rintro y same
    exact Answer.duration.inj same ▸ within
  cases job with
  | clip path =>
      obtain ⟨taken, given, same⟩ := Value.toDoubleOrZero_real limit
      have zero : Double.zero.AtMost longest := (zero_within (by norm_num [longest])).atMost
      have bounds : taken.Kept ∧ taken.AtMost longest ∧ taken.Visible := by
        rcases same with rfl | rfl
        · exact ⟨kept, most, cut⟩
        · exact ⟨Double.zero_kept, zero, Double.zero_visible⟩
      have clip : (p.clipDuration path (.real limit)).Gives fun x => x.Within brief longest := by
        refine (Run.Gives.ofExcept given).bind fun y same => ?_
        subst same
        refine (duration_gives_visible h path).bind fun x read => .pure ?_
        obtain ⟨v, visible, eq⟩ := read
        exact eq ▸ clipDuration_within v visible bounds.1 bounds.2.1 bounds.2.2
      exact clip.bind fun x within => .pure (found within)
  | sound path =>
      have sound : (p.hasSound path).Gives fun _ => True :=
        (h.sound path).bind fun v _ => .pure trivial
      exact sound.bind fun present _ => .pure fun x same => by cases same
  | item path =>
      have item : (p.itemDuration path).Gives fun x => x.Within brief longest := by
        refine (duration_gives_visible h path).bind fun x read => .pure ?_
        obtain ⟨v, visible, eq⟩ := read
        exact eq ▸ itemDuration_within v visible
      exact item.bind fun x within => .pure (found within)

theorem mem_left {ownSound : Bool} {segments : List (Segment Double)}
    {answers : List (Answer Double)} {answer : Answer Double}
    (h : answer ∈ (fillSegments ownSound segments answers).2) : answer ∈ answers := by
  fun_induction fillSegments ownSound segments answers <;> simp_all

theorem mem_fillItems {items : List (AudioItem Double)} {answers : List (Answer Double)} :
    ∀ item ∈ fillItems items answers, item ∈ items ∨ .duration item.duration ∈ answers := by
  induction items generalizing answers with
  | nil => simp [fillItems]
  | cons item rest ih =>
      have kept : ∀ answers, ∀ other ∈ item :: fillItems rest answers,
          other ∈ item :: rest ∨ .duration other.duration ∈ answers := by
        intro answers
        refine List.forall_mem_cons.mpr ⟨.inl (List.mem_cons_self ..), fun other hm => ?_⟩
        exact (ih other hm).imp_left (List.mem_cons_of_mem _)
      unfold fillItems
      split
      · split
        · refine List.forall_mem_cons.mpr ⟨.inr (List.mem_cons_self ..), fun other hm => ?_⟩
          exact (ih other hm).imp (List.mem_cons_of_mem _) (List.mem_cons_of_mem _)
        · exact kept _
      · exact kept _

/-- An image runs as long as it is given or as a slide does. -/
theorem still_within {t : Timeline Double} (recorded : t.Recorded) (h : t.Moderate) :
    ∀ s ∈ t.segments.map (still t.projectType t.slide), s.isImage = true →
      s.duration.Within brief longest := by
  rw [List.forall_mem_map]
  intro s hs
  unfold still
  split
  · next image =>
      intro _
      have slide : (Seconds.max oneSecond t.slide).Kept ∧
          (Seconds.max oneSecond t.slide).AtMost longest :=
        ⟨Double.max_kept oneSecond_within.kept recorded.slide,
          Double.max_atMost oneSecond_within.atMost h.slide.atMost⟩
      have own := (h.images s hs image).atMost
      refine max_shortestItem_within ?_ ?_
      · split
        · exact slide.1
        · exact recorded.segments s hs
      · split
        · exact slide.2
        · exact own
  · next clip => exact fun image => (clip image).elim

/-- The items that a timeline is heard with are those given, or the file of older records. -/
theorem sequence_believable {t : Timeline Double} (recorded : t.Recorded) (h : t.Moderate)
    {items : List (AudioItem Double)} (given : t.audioSequence = .ok items) :
    items.length ≤ 2 ^ 41 ∧
      ∀ item ∈ items, item.duration.Kept ∧ item.duration.AtMost longest := by
  have unsigned : (Seconds.unsigned t.audioDuration).Kept ∧
      (Seconds.unsigned t.audioDuration).AtMost longest := by
    unfold Seconds.unsigned
    split
    · have zero : (Seconds.zero : Double).Within 0 longest := zero_within (by norm_num [longest])
      exact ⟨zero.kept, zero.atMost⟩
    · exact ⟨recorded.audioDuration, h.audioDuration.atMost⟩
  unfold Timeline.audioSequence at given
  split at given
  · split at given
    · obtain rfl := Except.ok.inj given
      simp
    · split at given
      · obtain rfl := Except.ok.inj given
        simp
      · obtain rfl := Except.ok.inj given
        simpa using unsigned
    · obtain rfl := Except.ok.inj given
      simpa using unsigned
    · cases given
  · obtain rfl := Except.ok.inj given
    exact ⟨h.fewItems, fun item hi => ⟨recorded.items item hi, (h.items item hi).atMost⟩⟩

end Resolve

theorem isLegible_evenAtMost {n : Int} (legible : (Value.int n).isLegible = true) :
    (Value.int (Geometry.evenAtMost n)).isLegible = true := by
  rcases lt_or_ge n 2 with small | large
  · have two : Geometry.evenAtMost n = 2 := by
      unfold Geometry.evenAtMost
      split <;> omega
    rw [two]
    exact isLegible_small (by decide)
  · have below : (Geometry.evenAtMost n).natAbs ≤ n.natAbs := by
      unfold Geometry.evenAtMost
      split <;> omega
    rw [Value.isLegible, decide_eq_true_iff] at legible ⊢
    exact below.trans_lt legible

theorem exists_dimension {v : Value} {n : Int} (default : Int) (whole : v = .int n)
    (legible : v.isLegible = true) (small : default.natAbs ≤ 2 ^ 41) :
    ∃ size, Geometry.dimension v default = .ok size ∧ (Value.int size).isLegible = true := by
  subst whole
  refine ⟨_, rfl, isLegible_evenAtMost ?_⟩
  split
  · exact isLegible_small small
  · exact legible

theorem Timeline.Recorded.exists_picture {t : Timeline Double} (recorded : t.Recorded)
    (h : t.Moderate) : ∃ p, Build.pictureOf t = .ok p ∧ p.Legible := by
  obtain ⟨n, width⟩ := recorded.width
  obtain ⟨m, height⟩ := recorded.height
  obtain ⟨rate, fps⟩ := recorded.fps
  obtain ⟨wide, tall, rated⟩ := h.picture
  obtain ⟨x, hx, hx'⟩ := exists_dimension Geometry.defaultWidth width wide (by decide)
  obtain ⟨y, hy, hy'⟩ := exists_dimension Geometry.defaultHeight height tall (by decide)
  refine ⟨{ width := x, height := y, fps := t.fps }, ?_, ?_⟩
  · rw [Build.pictureOf, hx, hy]
    rfl
  · refine ⟨Argument.writable_number hx', Argument.writable_number hy', ?_⟩
    rw [fps] at rated ⊢
    exact Argument.writable_number rated

namespace Resolve

variable {t prepared : Timeline Double} {answers : List (Answer Double)}

/-- A moderate timeline of a record is resolved into one whose graph can be written. -/
theorem fill_measured (recorded : t.Recorded) (h : t.Moderate) (nonempty : t.segments ≠ [])
    {items : List (AudioItem Double)} (given : t.audioSequence = .ok items)
    (hp : prepare t = .ok prepared)
    (fit : List.Forall₂ (fun job answer => Fits job answer ∧ Measures answer) (jobs prepared)
      answers) : (fill prepared answers).Measured := by
  have measured : ∀ answer ∈ answers, Measures answer := by
    generalize jobs prepared = asked at fit
    induction fit with
    | nil => simp
    | cons first _ ih => exact List.forall_mem_cons.mpr ⟨first.2, ih⟩
  have fits := fit.imp fun _ _ both => both.1
  have resolved := fill_resolved given hp fits
  rw [prepare_ok given] at hp
  obtain rfl := Except.ok.inj hp
  obtain ⟨few, believable⟩ := sequence_believable recorded h given
  obtain ⟨T, kept, transition⟩ := recorded.transition
  have shortest : shortestTransition.Within brief longest :=
    Double.round_within exact_brief exact_longest (by norm_num [brief]) (by norm_num [brief])
      (by norm_num [longest])
  exact {
    nonempty := by
      have count := resolved.segments.length_eq
      exact List.length_pos_iff.mp (count ▸ List.length_pos_iff.mpr nonempty)
    segments := fun s hs => by
      rcases (fill_segments (still_lastsHalf t) fits).2 s hs with ⟨image, is⟩ | answered
      · exact still_within recorded h s image is
      · exact measured _ answered s.duration rfl
    items := fun _ item hi => by
      obtain ⟨filled, hf, rfl⟩ := List.mem_map.mp hi
      have bounds : filled.duration.Kept ∧ filled.duration.AtMost longest := by
        have source : filled ∈ items ∨ .duration filled.duration ∈ answers := by
          split at hf
          · exact .inl hf
          · exact (mem_fillItems filled hf).imp_right mem_left
        rcases source with one | answered
        · exact believable filled one
        · have within := measured _ answered filled.duration rfl
          exact ⟨within.kept, within.atMost⟩
      exact max_shortestItem_within bounds.1 bounds.2
    folded := resolved.folded
    fewSegments := resolved.segments.length_eq ▸ h.fewSegments
    fewItems := fun _ => by
      have same := congrArg List.length (resolved.items items given)
      rw [List.length_map, List.length_map] at same
      exact same ▸ few
    transition := ⟨_, transition, shortest.max_of_atMost kept (h.transition _ transition).atMost⟩
    picture := recorded.exists_picture h
    rate := recorded.fps }

end Resolve

/-- A moderate timeline of a record is resolved into one whose graph can be written, whoever is
asked, if only the answers are visible. -/
theorem Prober.resolve_measured {p : Prober} (measures : p.Measures) (workers : Int)
    {t : Timeline Double} (recorded : t.Recorded) (h : t.Moderate) (nonempty : t.segments ≠ []) :
    (p.resolve workers t).Gives Timeline.Measured := by
  have items : ∃ items, t.audioSequence = .ok items := by
    have names := h.audioPath
    unfold Value.namesFile at names
    split at names
    · next none => exact exists_audioSequence (.inl none)
    · next path text => exact exists_audioSequence (.inr ⟨path, text⟩)
    · next content bytes =>
        rw [Timeline.audioSequence, bytes]
        split <;> exact ⟨_, rfl⟩
    · cases names
  obtain ⟨items, given⟩ := items
  obtain ⟨x, kept, cut⟩ := recorded.maxClip
  have limit : t.maxClip.Kept := cut ▸ Double.max_kept Double.zero_kept kept
  have each := fun job => (perform_gives measures.answers t.maxClip job).and
    (Resolve.perform_measures measures limit h.maxClip.1.atMost h.maxClip.2 job)
  refine (resolve_gives_of each workers (Resolve.prepare_ok given)).mono
    fun resolved ⟨answers, fit, same⟩ => ?_
  rw [same]
  exact Resolve.fill_measured recorded h nonempty given (Resolve.prepare_ok given) fit

end Reel
