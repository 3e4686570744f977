import Reel.Proofs.Graph.Lanes
import Reel.Proofs.Graph.Overlap

/-!
# How long the sound lasts

A render ends with the shorter of its two lanes, so a sound that ends early cuts the picture. The
sounds of the segments run as long as the picture, which is at least the composed duration, and
generated silence runs as long as that. Audio items run as long as all of them together, whatever
the picture does: a soundtrack that is shorter than the picture is neither padded nor repeated.
-/
namespace Reel

open Build Label

variable {lengths : Label → Length}

/-- What fades give ends no earlier than the durations laid end to end, less one transition. -/
theorem le_fadedLength (T total d : Rat) (running : Length) {rest : List Rat}
    (nonempty : rest ≠ []) (positive : ∀ x ∈ rest, 0 < x) :
    ∃ x, fadedLength running ((rest.map some).zip (offsetsFrom T total (d :: rest))) = some x ∧
      total + (d + rest.sum) - T ≤ x ∧ 0 ≤ x := by
  induction rest generalizing total d running with
  | nil => exact (nonempty rfl).elim
  | cons e rest ih =>
      obtain ⟨hd, others⟩ := List.forall_mem_cons.mp positive
      have step : offsetsFrom T total (d :: e :: rest) =
          max 0 (total + d - T) :: offsetsFrom T (total + d) (e :: rest) := by
        rw [offsetsFrom]
        · simp
        · simp
      rw [step, List.map_cons, List.zip_cons_cons, fadedLength, Option.map_some]
      cases rest with
      | nil =>
          refine ⟨max 0 (total + d - T) + e, rfl, ?_, ?_⟩
          · have := le_max_right 0 (total + d - T)
            simp only [List.sum_cons, List.sum_nil]
            linarith
          · have := le_max_left 0 (total + d - T)
            linarith
      | cons f rest =>
          obtain ⟨x, faded, long, nonneg⟩ :=
            ih (total + d) e (some (max 0 (total + d - T) + e)) (by simp) others
          refine ⟨x, faded, ?_, nonneg⟩
          rw [List.sum_cons]
          linarith

/-- What is joined runs at least as long as the composed duration says, since that takes a
transition off for each fade and not for the first alone. -/
theorem composedDuration_le_joinedLength (mode : JoinMode) {T : Rat} {durations : List Rat}
    (nonempty : durations ≠ []) (nonneg : 2 ≤ durations.length → 0 ≤ T)
    (positive : ∀ d ∈ durations, 0 < d) :
    ∃ x, joinedLength mode (crossfadeOffsets durations T) (durations.map some) = some x ∧
      composedDuration mode T durations ≤ x := by
  match durations, mode with
  | [], _ => exact (nonempty rfl).elim
  | [only], mode =>
      refine ⟨only, rfl, ?_⟩
      simp [composedDuration]
  | first :: second :: rest, .concat =>
      refine ⟨_, total_map_some (first :: second :: rest), ?_⟩
      simp [composedDuration]
  | first :: second :: rest, .crossfade =>
      have sign := nonneg (by simp)
      obtain ⟨x, faded, long, zero⟩ := le_fadedLength T 0 first (some first)
        (List.cons_ne_nil second rest) (List.forall_mem_cons.mp positive).2
      refine ⟨x, faded, ?_⟩
      have fades : T ≤ ((rest.length + 1 : Nat) : Rat) * T :=
        le_mul_of_one_le_left sign (by simp)
      have several : ¬ (JoinMode.crossfade ≠ .crossfade ∨
          (first :: second :: rest).length < 2) := by simp
      rw [composedDuration, if_neg several, Seconds.max_rat, Seconds.sub_rat, Seconds.times_rat,
        Seconds.sum_rat, Seconds.zero_rat]
      apply max_le zero
      rw [List.sum_cons]
      simp only [List.length_cons, Nat.add_sub_cancel]
      linarith

theorem ItemOf.length {transition : Option Rat} {i input : Nat} {item : AudioItem Rat}
    {b : Binding} {n : Node Rat} (h : ItemOf transition i input item b n) :
    n.length lengths = some item.duration := by
  obtain ⟨T, k, -, rfl⟩ := h.node
  rfl

theorem Items.measured {transition : Option Rat} {i input : Nat} {items : List (AudioItem Rat)}
    {bs : List Binding} {ns : List (Node Rat)} {labels : List Label}
    (h : Items transition i input items bs ns labels) (measures : Measures lengths ns) :
    labels.map lengths = (items.map AudioItem.duration).map some := by
  induction h with
  | nil => rfl
  | @cons i input item b n rest bs ns labels hi _ ih =>
      obtain ⟨first, others⟩ := List.forall_mem_cons.mp measures
      rw [List.map_cons, List.map_cons, List.map_cons, ih others, first, hi.length]

theorem Sequence.length {labels : List Label} {ns : List (Node Rat)} {l : Label}
    (h : Sequence labels ns l) (measures : Measures lengths ns) {durations : List Rat}
    (hd : labels.map lengths = durations.map some) : lengths l = some durations.sum := by
  cases h with
  | only =>
      obtain ⟨d, rfl, alone⟩ := List.map_eq_singleton_iff.mp hd.symm
      rw [List.sum_singleton, alone]
  | several k many =>
      have joined := measures _ (List.mem_singleton_self _)
      rw [concatNode_length, hd, total_map_some] at joined
      exact joined

/-- How long the sound of a graph lasts, by the plan for the soundtrack. -/
structure Graph.SoundLasts (g : Graph Rat) (t : Timeline Rat) (x : Rat) : Prop where
  own : t.useTrackAudio = true → g.length g.video = some x ∧ g.duration ≤ x
  items : t.useTrackAudio = false → ∀ items, t.audioSequence = .ok items → items ≠ [] →
    x = (items.map AudioItem.duration).sum
  silence : t.useTrackAudio = false → t.audioSequence = .ok [] → x = max (1 / 2) g.duration

/-- Audio items, where the sound is made of them, run for a time together. -/
def Timeline.ItemsCover (t : Timeline Rat) (time : Rat) : Prop :=
  t.useTrackAudio = false → ∀ items, t.audioSequence = .ok items → items ≠ [] →
    time ≤ (items.map AudioItem.duration).sum

/-- Where segments do not bring their sound, it lasts as long as all audio items, or as the silence
in their place. -/
theorem Soundtrack.lasts {t : Timeline Rat} {T : Rat} {offsets : List Rat} {input : Nat}
    {sounds : List Label} {duration : Rat} {bs : List Binding} {ns : List (Node Rat)} {l : Label}
    (h : Soundtrack t T offsets input sounds duration bs ns l) (measures : Measures lengths ns)
    (policy : t.useTrackAudio = false) :
    ∃ x, lengths l = some x ∧ (∀ items, t.audioSequence = .ok items → items ≠ [] →
        x = (items.map AudioItem.duration).sum) ∧
      (t.audioSequence = .ok [] → x = max (1 / 2) duration) := by
  cases h with
  | own own => rw [policy] at own; cases own
  | @items items bs ns ms labels l _ given nonempty hi hs =>
      rw [Measures.append] at measures
      refine ⟨_, hs.length measures.2 (hi.measured measures.1), fun other h _ => ?_, fun h => ?_⟩
      · obtain rfl := Except.ok.inj (given.symm.trans h)
        rfl
      · exact (nonempty (Except.ok.inj (given.symm.trans h))).elim
  | silence k _ none hb =>
      have silent := measures _ (List.mem_singleton_self _)
      refine ⟨max (1 / 2) duration, ?_, fun items h some => ?_, fun _ => rfl⟩
      · rw [silent, ← Seconds.max_rat]
        rfl
      · exact (some (Except.ok.inj (h.symm.trans none))).elim

theorem Soundtrack.audioSequence {t : Timeline Rat} {T : Rat} {offsets : List Rat} {input : Nat}
    {sounds : List Label} {duration : Rat} {bs : List Binding} {ns : List (Node Rat)} {l : Label}
    (h : Soundtrack t T offsets input sounds duration bs ns l) :
    ∃ items, t.useTrackAudio = false → t.audioSequence = .ok items := by
  cases h with
  | own policy => exact ⟨[], by simp [policy]⟩
  | items _ given => exact ⟨_, fun _ => given⟩
  | silence _ _ given => exact ⟨[], fun _ => given⟩

namespace Assembly

variable {t : Timeline Rat} {g : Graph Rat}

theorem own_sound_lasts (a : Assembly t g) (own : t.useTrackAudio = true)
    (nonneg : 2 ≤ t.segments.length → 0 ≤ a.T) :
    ∃ x, g.length a.sound = some x ∧ g.length g.video = some x ∧ g.duration ≤ x := by
  obtain ⟨segments, -, sounds, -⟩ := a.measures_parts
  obtain ⟨y, video, sound⟩ := a.lanes_length own
  have joined := (a.soundtrack.joined own).length sounds
  rw [(a.segments.measured segments).2 own, sound] at joined
  have sign : 2 ≤ (t.segments.map Segment.duration).length → 0 ≤ a.T := by simpa using nonneg
  obtain ⟨x, hx, long⟩ := composedDuration_le_joinedLength t.joinMode
    (by simpa using a.nonempty) sign a.positive
  obtain rfl := Option.some.inj (joined.trans hx)
  exact ⟨y, sound, video, a.duration_eq ▸ long⟩

theorem sound_lasts (a : Assembly t g) (nonneg : 2 ≤ t.segments.length → 0 ≤ a.T) :
    ∃ x, g.length a.sound = some x ∧ g.SoundLasts t x := by
  obtain ⟨-, -, sounds, -⟩ := a.measures_parts
  cases policy : t.useTrackAudio with
  | true =>
      obtain ⟨x, sound, video, long⟩ := a.own_sound_lasts policy nonneg
      refine ⟨x, sound, fun _ => ⟨video, long⟩, ?_, ?_⟩
      · simp [policy]
      · simp [policy]
  | false =>
      obtain ⟨x, sound, items, silence⟩ := a.soundtrack.lasts sounds policy
      rw [← a.duration_eq] at silence
      exact ⟨x, sound, by simp [policy], fun _ => items, fun _ => silence⟩

end Assembly

namespace Graph

variable {t : Timeline Rat} {g : Graph Rat} {x : Rat}

theorem SoundLasts.covers_iff (h : g.SoundLasts t x) {items : List (AudioItem Rat)}
    (given : t.useTrackAudio = false → t.audioSequence = .ok items) :
    g.duration ≤ x ↔ t.ItemsCover g.duration := by
  unfold Timeline.ItemsCover
  cases policy : t.useTrackAudio with
  | true => simpa using (h.own policy).2
  | false =>
      constructor
      · intro long _ items given some
        exact h.items policy items given some ▸ long
      · intro covers
        rcases eq_or_ne items [] with rfl | some
        · rw [h.silence policy (given policy)]
          exact le_max_right _ _
        · rw [h.items policy items (given policy) some]
          exact covers rfl items (given policy) some

end Graph

/-- How long the sound of a compiled graph lasts: as long as the picture if segments bring their
own, as long as all audio items if there are any, and otherwise as long as the composed duration
or half a second. It lasts for the composed duration, so that ending with the shorter lane cuts
nothing off, exactly if audio items do where there are any. -/
theorem build_sound_lasts {t : Timeline Rat} {g : Graph Rat} (h : Graph.build t = .ok g)
    (nonneg : ∀ T, t.transition = some T → 0 ≤ T) :
    ∃ sound x, g.audio = some sound ∧ g.length sound = some x ∧ g.SoundLasts t x ∧
      (g.duration ≤ x ↔ t.ItemsCover g.duration) := by
  obtain ⟨a⟩ := assembly_of_build h
  obtain ⟨x, sound, lasts⟩ := a.sound_lasts fun several => nonneg _ (a.transition_eq several)
  obtain ⟨items, given⟩ := a.soundtrack.audioSequence
  exact ⟨a.sound, x, a.audio_eq, sound, lasts, lasts.covers_iff given⟩

def walkWithSong (clip song : Rat) : Timeline Rat :=
  { Timeline.plain [{ path := "walk.mp4", duration := clip }] .concat false 1 with
    audioItems := [{ path := "song.mp3", duration := song }] }

theorem long_song_lasts :
    ∃ g sound, Graph.build (walkWithSong 10 12) = .ok g ∧ g.audio = some sound ∧
      g.length sound = some 12 ∧ g.duration ≤ 12 := by
  obtain ⟨g, h⟩ := exists_of_isOk (r := Graph.build (walkWithSong 10 12)) (by decide +kernel)
  have nonneg : ∀ T, (walkWithSong 10 12).transition = some T → 0 ≤ T := by
    rintro T hT
    obtain rfl : 1 = T := Option.some.inj hT
    norm_num
  obtain ⟨sound, x, audio, length, lasts, covers⟩ := build_sound_lasts h nonneg
  have stated : (Graph.build (walkWithSong 10 12)).toOption.map Graph.duration = some 10 := by
    decide +kernel
  rw [h] at stated
  have ten : g.duration = 10 := Option.some.inj stated
  have twelve : x = 12 := by
    rw [lasts.items rfl [{ path := "song.mp3", duration := 12 }] rfl (by simp)]
    simp
  subst twelve
  refine ⟨g, sound, h, audio, length, covers.mpr fun _ items given _ => ?_⟩
  obtain rfl : [{ path := "song.mp3", duration := 12 }] = items := Except.ok.inj given
  rw [ten]
  norm_num

/-- A song of three seconds is all there is to hear with a picture of ten. -/
theorem short_song_cuts :
    ∃ g sound, Graph.build (walkWithSong 10 3) = .ok g ∧ g.audio = some sound ∧
      g.length sound = some 3 ∧ g.duration = 10 ∧ ¬ g.duration ≤ 3 := by
  obtain ⟨g, h⟩ := exists_of_isOk (r := Graph.build (walkWithSong 10 3)) (by decide +kernel)
  have values : (Graph.build (walkWithSong 10 3)).toOption.map (fun g =>
      (g.duration, g.audio.map g.length)) = some (10, some (some 3)) := by decide +kernel
  rw [h] at values
  obtain ⟨stated, length⟩ : g.duration = 10 ∧ g.audio.map g.length = some (some 3) := by
    simpa [Except.toOption] using values
  obtain ⟨sound, audio, three⟩ := Option.map_eq_some_iff.mp length
  refine ⟨g, sound, h, audio, three, stated, ?_⟩
  rw [stated]
  norm_num

end Reel
