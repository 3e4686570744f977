import Reel.Proofs.Graph.Assembly
import Reel.Proofs.Timeline.Resolve

/-!
# Defects stay out of reach

The construction of graphs counts on two things: that durations last, and that it never asks for
a label that cannot be issued. The second holds for every timeline. The first is what resolving
sees to, whatever timeline it is given and whatever a probe answers.
-/
namespace Reel

variable {t : Timeline Double}

/-- A number of seconds that cannot be written is neither a defect nor a rejection. -/
theorem isPlain_of_format {x : Double} {e : Error} (h : Seconds.format x = .error e) :
    e.IsPlain :=
  (format_yields (.real x)).of_error h

/-- The compilation meets no defect but a duration that does not last. -/
theorem exists_of_build_defect {cause : Defect} (h : Graph.build t = .error (.defect cause)) :
    (∃ path, cause = .durationUnresolved path ∧
      ∃ s ∈ t.segments, Seconds.le s.duration Seconds.zero = true) ∨
    ∃ path items, cause = .audioDurationUnresolved path ∧ t.audioSequence = .ok items ∧
      ∃ item ∈ items, Seconds.le item.duration Seconds.zero = true := by
  cases (build_yields t).of_error h with
  | plain plain => exact (plain.ne_defect cause rfl).elim
  | format x written => exact ((isPlain_of_format written).ne_defect cause rfl).elim
  | segment path hs le => exact .inl ⟨path, rfl, _, hs, le⟩
  | item path items hi le => exact .inr ⟨path, _, rfl, items, _, hi, le⟩

theorem Lasts.not_le {x : Double} (h : Lasts x) : Seconds.le x Seconds.zero = false :=
  Double.not_le_of_lt h

/-- A resolved timeline leaves the construction of its graph nothing to complain of. -/
theorem Resolved.build_ne_defect {resolved : Timeline Double} (h : Resolved t resolved)
    (cause : Defect) : Graph.build resolved ≠ .error (.defect cause) := by
  intro stopped
  rcases exists_of_build_defect stopped with ⟨_, -, s, hs, le⟩ | ⟨_, items, -, hi, item, hm, le⟩
  · rw [(Resolve.lasts_of_filled h.segments s hs).1.not_le] at le
    cases le
  · have known : items = resolved.audioItems := by
      unfold Timeline.audioSequence at hi
      rw [h.folded] at hi
      split at hi
      · next none =>
          rw [List.isEmpty_iff.mp none]
          exact (Except.ok.inj hi).symm
      · exact (Except.ok.inj hi).symm
    rw [known] at hm
    rw [(h.lasting item hm).lasts.not_le] at le
    cases le

theorem exists_audioSequence (h : t.audioPath = .null ∨ ∃ path, t.audioPath = .text path) :
    ∃ items, t.audioSequence = .ok items := by
  unfold Timeline.audioSequence
  rcases h with none | ⟨path, text⟩
  · rw [none]
    split
    · exact ⟨[], rfl⟩
    · exact ⟨t.audioItems, rfl⟩
  · rw [text]
    dsimp only
    split
    · split
      · exact ⟨[], rfl⟩
      · exact ⟨_, rfl⟩
    · exact ⟨t.audioItems, rfl⟩

/-- Whatever a probe answers, a timeline is resolved into one with the same media in which every
segment lasts, every image and audio item lasts for half a second, and whose graph meets no
defect. And no timeline at all, resolved or not, asks for a label that cannot be issued: the only
defects are durations. -/
theorem resolve_build_no_defect {p : Prober} (answers : p.Answers) (workers : Int)
    {t : Timeline Double} (audio : t.audioPath = .null ∨ ∃ path, t.audioPath = .text path)
    (host : Host) :
    (∃ resolved after, (p.resolve workers t).on host = (.ok resolved, after) ∧
      Resolved t resolved ∧
      (∀ s ∈ resolved.segments, Lasts s.duration ∧ s.duration.isNaN = false ∧
        (s.isImage = true → LastsHalf s.duration)) ∧
      (∀ item ∈ resolved.audioItems, LastsHalf item.duration) ∧
      ∀ cause, Graph.build resolved ≠ .error (.defect cause)) ∧
    ∀ (any : Timeline Double) (cause : Defect), Graph.build any = .error (.defect cause) →
      ∃ path, cause = .durationUnresolved path ∨ cause = .audioDurationUnresolved path := by
  constructor
  · obtain ⟨items, sequence⟩ := exists_audioSequence audio
    obtain ⟨resolved, after, ends, found, fit, rfl⟩ :=
      Prober.resolve_gives answers workers (Resolve.prepare_ok sequence) host
    have good := Resolve.fill_resolved sequence (Resolve.prepare_ok sequence) fit
    refine ⟨_, after, ends, good, fun s hs => ?_, good.lasting, good.build_ne_defect⟩
    obtain ⟨lasts, image⟩ := Resolve.lasts_of_filled good.segments s hs
    exact ⟨lasts, lasts.isNaN, image⟩
  · intro any cause stopped
    rcases exists_of_build_defect stopped with ⟨path, rfl, -⟩ | ⟨path, _, rfl, -⟩
    · exact ⟨path, .inl rfl⟩
    · exact ⟨path, .inr rfl⟩

/-- A prober that answers the same about every medium. -/
def Prober.constant (duration sound : Value) : Prober where
  durationText _ := pure duration
  soundText _ := pure sound

theorem Prober.constant_answers (duration sound : Value) :
    (Prober.constant duration sound).Answers :=
  ⟨fun _ => .pure trivial, fun _ => .pure trivial⟩

/-- A clip and a still image whose durations are no numbers. -/
def unmeasured : Timeline Double :=
  .plain [{ path := "walk.mp4", duration := .nan },
    { path := "map.png", kind := .image, duration := .nan }] .crossfade true .nan

theorem resolve_build_unmeasured :
    ∃ resolved after, ((Prober.constant "nan" "").resolve 4 unmeasured).on default =
        (.ok resolved, after) ∧ Resolved unmeasured resolved ∧
      ∀ cause, Graph.build resolved ≠ .error (.defect cause) := by
  obtain ⟨⟨resolved, after, ends, good, -, -, none⟩, -⟩ :=
    resolve_build_no_defect (Prober.constant_answers "nan" "") 4 (t := unmeasured) (.inl rfl)
      default
  exact ⟨resolved, after, ends, good, none⟩

end Reel
