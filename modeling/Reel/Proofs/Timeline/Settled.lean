import Reel.Proofs.Graph.Defects
import Reel.Proofs.Timeline.Pool

/-!
# Resolving again

A timeline is settled if nothing is left to be filled in: clips run and sound as was found,
images and audio items last for half a second, and no single audio file waits to become an item.
What findings make of a timeline is settled, and they make nothing else of a settled one. So a
resolved timeline that is resolved again stays as it is, by any number of workers, although its
slides and audio items now go the way of those that have a duration.
-/
namespace Reel

open Resolve

theorem LastsHalf.max_shortestItem {x : Double} (h : LastsHalf x) :
    Seconds.max shortestItem x = x := by
  have shortest : (shortestItem : Double) = .finite (1 / 2) := by decide +kernel
  obtain ⟨a, b, half, place, le⟩ := Double.le_iff.mp h
  obtain rfl := Option.some.inj half
  rw [shortest, Seconds.max]
  split
  · rfl
  · next not_lt =>
      -- Half a second is the only number in its place.
      have here : b = toLex (0, 1 / 2) := by
        by_contra other
        exact not_lt (Double.lt_iff.mpr ⟨_, b, half, place, lt_of_le_of_ne le (Ne.symm other)⟩)
      subst here
      rcases x with _ | (_ | _) | _ | v
      · cases place
      · simp [Double.place?] at place
      · simp [Double.place?] at place
      · simp [Double.place?] at place
      · simpa [Double.place?, eq_comm] using place

/-- Nothing is left to be filled in by the findings. -/
structure Timeline.Settled (f : Findings) (t : Timeline Double) : Prop where
  clips : ∀ s ∈ t.segments, s.isImage = false → s.duration = f.clip s.path ∧
    (t.useTrackAudio = true → s.hasAudio = .bool (f.sound s.path))
  images : ∀ s ∈ t.segments, s.isImage = true → LastsHalf s.duration ∧ s.hasAudio = .bool false
  items : ∀ item ∈ t.audioItems, LastsHalf item.duration
  folded : t.audioPath = .null

namespace Findings

variable {f : Findings} {t resolved : Timeline Double} {s : Segment Double}

theorem isImage_segment (f : Findings) (t : Timeline Double) (s : Segment Double) :
    (f.segment t s).isImage = s.isImage := by
  unfold segment
  split
  · rfl
  · rfl

theorem segment_image (image : s.isImage = true) :
    LastsHalf (f.segment t s).duration ∧ (f.segment t s).hasAudio = .bool false := by
  simp only [segment, image, if_true, and_true]
  exact max_shortestItem_lastsHalf _

theorem segment_clip (clip : s.isImage = false) :
    (f.segment t s).duration = f.clip (f.segment t s).path ∧
      (t.useTrackAudio = true →
        (f.segment t s).hasAudio = .bool (f.sound (f.segment t s).path)) := by
  simp only [segment, clip, Bool.false_eq_true, if_false, true_and]
  exact fun own => if_pos own

theorem audioItem_lastsHalf (f : Findings) (t : Timeline Double) (item : AudioItem Double) :
    LastsHalf (f.audioItem t item).duration :=
  max_shortestItem_lastsHalf _

theorem settled_of_resolve (h : f.resolve t = .ok resolved) : resolved.Settled f := by
  obtain ⟨items, -, h⟩ := exists_of_bind_ok h
  obtain rfl := Except.ok.inj h
  constructor
  · rw [List.forall_mem_map]
    exact fun s _ clip => segment_clip ((f.isImage_segment t s).symm.trans clip)
  · rw [List.forall_mem_map]
    exact fun s _ image => segment_image ((f.isImage_segment t s).symm.trans image)
  · rw [List.forall_mem_map]
    exact fun item _ => f.audioItem_lastsHalf t item
  · rfl

/-- The longest clip stays what it was, so that the findings are those about the result too. -/
theorem maxClip_of_resolve (h : f.resolve t = .ok resolved) : resolved.maxClip = t.maxClip := by
  obtain ⟨items, -, h⟩ := exists_of_bind_ok h
  rw [← Except.ok.inj h]

end Findings

namespace Timeline.Settled

variable {f : Findings} {t : Timeline Double}

theorem segment_eq (h : t.Settled f) {s : Segment Double} (hs : s ∈ t.segments) :
    f.segment t s = s := by
  cases image : s.isImage with
  | true =>
      obtain ⟨half, mute⟩ := h.images s hs image
      have long : Seconds.le s.duration Seconds.zero = false := Double.not_le_of_lt half.lasts
      simp only [Findings.segment, image, if_true, long, Bool.false_eq_true, and_false, if_false,
        half.max_shortestItem, ← mute]
  | false =>
      obtain ⟨runs, sounds⟩ := h.clips s hs image
      simp only [Findings.segment, image, Bool.false_eq_true, if_false, ← runs]
      split
      · next own => rw [← sounds own]
      · rfl

theorem audioItem_eq (h : t.Settled f) {item : AudioItem Double} (hi : item ∈ t.audioItems) :
    f.audioItem t item = item := by
  have half := h.items item hi
  have dated : Seconds.lt Seconds.zero item.duration = true := half.lasts
  simp only [Findings.audioItem, dated, Bool.or_true, if_true, half.max_shortestItem]

theorem audioSequence_eq (h : t.Settled f) : t.audioSequence = .ok t.audioItems := by
  unfold audioSequence
  rw [h.folded]
  split
  · next empty => rw [List.isEmpty_iff.mp empty]
  · rfl

theorem resolve_eq (h : t.Settled f) : f.resolve t = .ok t := by
  have segments : t.segments.map (f.segment t) = t.segments :=
    (List.map_congr_left fun _ hs => h.segment_eq hs).trans (List.map_id _)
  have items : t.audioItems.map (f.audioItem t) = t.audioItems :=
    (List.map_congr_left fun _ hi => h.audioItem_eq hi).trans (List.map_id _)
  rw [Findings.resolve, h.audioSequence_eq]
  simp only [bind, Except.bind, segments, items, ← h.folded]
  rfl

end Timeline.Settled

/-- Whoever resolves the timeline on a steady machine, some workers in turn or a pool of them by
any schedule, comes to this result. -/
structure Prober.Resolves (p : Prober) (steady : Host → Prop) (t resolved : Timeline Double) :
    Prop where
  inTurn : ∀ workers host, steady host → ((p.resolve workers t).on host).1 = .ok resolved
  inPool : ∀ workers host last result, steady host → p.ResolvesInPool workers t host last result →
    result = .ok resolved

theorem Prober.Finds.resolves {p : Prober} {steady : Host → Prop} {f : Findings}
    {t resolved : Timeline Double} (finds : p.Finds steady t.maxClip f)
    (h : f.resolve t = .ok resolved) : p.Resolves steady t resolved where
  inTurn workers host hs := by rw [Prober.resolve_on finds workers hs, h]
  inPool _ _ _ _ hs run := (run.eq finds hs).1.trans h

/-- If the answers about media hang on paths alone, a timeline is resolved into one that resolving
leaves as it is: field by field, not-a-numbers included, and whatever the number of workers is the
first time and the second. -/
theorem resolve_idempotent {p : Prober} {steady : Host → Prop} (h : p.AnswersByPath steady)
    {t : Timeline Double} (audio : t.audioPath = .null ∨ ∃ path, t.audioPath = .text path) :
    ∃ resolved, p.Resolves steady t resolved ∧ p.Resolves steady resolved resolved := by
  obtain ⟨f, finds⟩ := Prober.exists_finds h t.maxClip
  obtain ⟨items, sequence⟩ := exists_audioSequence audio
  obtain ⟨resolved, once⟩ : ∃ resolved, f.resolve t = .ok resolved := by
    rw [Findings.resolve, sequence]
    exact ⟨_, rfl⟩
  have again : f.resolve resolved = .ok resolved := (Findings.settled_of_resolve once).resolve_eq
  exact ⟨resolved, finds.resolves once, (Findings.maxClip_of_resolve once ▸ finds).resolves again⟩

/-- A slide show whose clip, slide and song of an older record have no durations that are numbers,
but for a clip that is said to end before it begins. -/
def restless : Timeline Double :=
  { Timeline.plain [{ path := "walk.mp4", duration := .finite (-3) },
      { path := "map.png", kind := .image, duration := .nan },
      { path := "peak.png", kind := .image, duration := .zero }] .crossfade false (.round 1) with
    audioPath := "summit.mp4", audioDuration := .nan, slide := .nan }

theorem resolve_idempotent_restless :
    (∀ words, (clipProbes words).fault ≠ some .refused) ∧
    ∃ resolved, (((Prober.ofProgram "ffprobe").resolve 4 restless).on { probes := clipProbes }).1 =
        .ok resolved ∧
      resolved.segments.map Segment.duration = [.finite (5 / 2), .finite (1 / 2), .finite 1] ∧
      resolved.audioItems.map AudioItem.duration = [.finite 7] ∧
      (((Prober.ofProgram "ffprobe").resolve 1 resolved).on { probes := clipProbes }).1 =
        .ok resolved := by
  obtain ⟨resolved, once, again⟩ := resolve_idempotent
    (Prober.ofProgram_answersByPath "ffprobe" clipProbes_startable) (t := restless) (.inr ⟨_, rfl⟩)
  have result := once.inTurn 4 { probes := clipProbes } rfl
  have durations : (((Prober.ofProgram "ffprobe").resolve 4 restless).on
      { probes := clipProbes }).1.map (fun t =>
        (t.segments.map Segment.duration, t.audioItems.map AudioItem.duration)) =
      .ok ([.finite (5 / 2), .finite (1 / 2), .finite 1], [.finite 7]) := by
    decide +kernel
  rw [result] at durations
  obtain ⟨segments, items⟩ := Prod.mk.inj (Except.ok.inj durations)
  exact ⟨clipProbes_startable, resolved, result, segments, items, again.inTurn 1 _ rfl⟩

end Reel
