import Reel.Proofs.Graph.Fades
import Reel.Proofs.Graph.Offsets

/-!
# How far faded segments overlap

Segments that are faded into each other are to overlap by one transition each, and the duration
of a graph counts one overlap for each fade. A fade, however, starts one transition before the
end of the segments before it laid end to end, as if none of them overlapped. The second fade
therefore starts where the picture before it has ended already, and the picture runs longer than
the graph says, by one transition for each fade but the first.
-/
namespace Reel

open Build Label

namespace Graph

/-- Where the fade into a segment starts. -/
def fadeStart (g : Graph Rat) (i : Nat) : Option Rat :=
  (g.node? ("xv" ++ toString i)).bind Node.offset

/-- How long the picture runs with the segments up to one. A fade runs from its start for as
long as the segment that it brings in. -/
def runningLength (g : Graph Rat) (durations : List Rat) : Nat → Option Rat
  | 0 => durations[0]?
  | i + 1 => do return (← g.fadeStart (i + 1)) + (← durations[i + 1]?)

/-- The fade into a segment starts one transition before the end of what runs before it. -/
def OverlapsAt (g : Graph Rat) (durations : List Rat) (T : Rat) (i : Nat) : Prop :=
  ∃ start length, g.fadeStart i = some start ∧
    g.runningLength durations (i - 1) = some length ∧ start = length - T

/-- Consecutive segments overlap by one transition each, and the picture runs as long as the
graph says. -/
structure Overlaps (g : Graph Rat) (durations : List Rat) (T : Rat) : Prop where
  each : ∀ i, 1 ≤ i → i < durations.length → g.OverlapsAt durations T i
  whole : g.runningLength durations (durations.length - 1) = some g.duration
  composed : g.duration = durations.sum - (durations.length - 1) * T

end Graph

namespace Assembly

variable {t : Timeline Rat} {g : Graph Rat}

theorem positive (a : Assembly t g) : ∀ d ∈ t.segments.map Segment.duration, 0 < d := by
  intro d hd
  obtain ⟨s, hs, rfl⟩ := List.mem_map.mp hd
  simpa using a.resolved s hs

theorem pictureFade_eq (a : Assembly t g) (mode : t.joinMode = .crossfade) {i : Nat}
    (hi : i + 1 < t.segments.length) :
    ∃ n, g.node? ("xv" ++ toString (i + 1)) = some n ∧
      n.filters =
        [pictureFade a.T (max 0 (((t.segments.map Segment.duration).take (i + 1)).sum - a.T))] ∧
      n.offset = some (max 0 (((t.segments.map Segment.duration).take (i + 1)).sum - a.T)) := by
  have join := a.join
  rw [mode] at join
  have count := a.segments.length.2.1
  have label : a.pictures[i + 1]? = some a.pictures[i + 1] := List.getElem?_eq_getElem (by omega)
  have offset := getElem?_crossfadeOffsets a.T (t.segments.map Segment.duration) i (by simpa)
  obtain ⟨running, l, ms, fade, sub⟩ := join.fade label offset
  cases fade with
  | picture k =>
      have member := a.mem_nodes_of_picture (sub _ (List.mem_singleton_self _))
      exact ⟨_, a.node?_eq member, rfl, rfl⟩

end Assembly

section Long

variable {t : Timeline Rat} {g : Graph Rat} (a : Assembly t g) (mode : t.joinMode = .crossfade)
  (long : ∀ d ∈ t.segments.map Segment.duration, a.T ≤ d)

include mode long in
/-- No offset is cut off at zero if segments are long enough. -/
theorem Assembly.pictureFade_exact {i : Nat} (first : 1 ≤ i) (last : i < t.segments.length) :
    ∃ n, g.node? ("xv" ++ toString i) = some n ∧
      n.filters = [pictureFade a.T (((t.segments.map Segment.duration).take i).sum - a.T)] ∧
      n.offset = some (((t.segments.map Segment.duration).take i).sum - a.T) := by
  obtain ⟨i, rfl⟩ : ∃ j, i = j + 1 := ⟨i - 1, by omega⟩
  have fade := a.pictureFade_eq mode last
  have enough := le_sum_take a.positive long first (by simpa using last.le)
  rw [max_eq_right (by linarith)] at fade
  exact fade

include mode long in
theorem Assembly.fadeStart_eq {i : Nat} (first : 1 ≤ i) (last : i < t.segments.length) :
    g.fadeStart i = some (((t.segments.map Segment.duration).take i).sum - a.T) := by
  obtain ⟨n, hn, -, offset⟩ := a.pictureFade_exact mode long first last
  rw [Graph.fadeStart, hn, Option.bind_some, offset]

include mode long in
theorem Assembly.runningLength_eq {i : Nat} (first : 1 ≤ i) (last : i < t.segments.length) :
    g.runningLength (t.segments.map Segment.duration) i =
      some (((t.segments.map Segment.duration).take (i + 1)).sum - a.T) := by
  have start := a.fadeStart_eq mode long first last
  obtain ⟨i, rfl⟩ : ∃ j, i = j + 1 := ⟨i - 1, by omega⟩
  have bound : i + 1 < (t.segments.map Segment.duration).length := by simpa using last
  rw [Graph.runningLength, start, List.getElem?_eq_getElem bound,
    List.take_succ_eq_append_getElem bound, List.sum_append, List.sum_singleton]
  simp only [Option.bind_eq_bind, Option.bind_some, Option.pure_def, Option.some.injEq]
  ring

include mode long in
theorem Assembly.duration_exact (several : 2 ≤ t.segments.length) :
    g.duration = (t.segments.map Segment.duration).sum - (t.segments.length - 1) * a.T := by
  have total : (t.segments.length : Rat) * a.T ≤ (t.segments.map Segment.duration).sum := by
    simpa using List.card_nsmul_le_sum (t.segments.map Segment.duration) a.T long
  have positive : 0 ≤ (t.segments.map Segment.duration).sum :=
    List.sum_nonneg fun d hd => (a.positive d hd).le
  have many : (2 : Rat) ≤ t.segments.length := by exact_mod_cast several
  have enough : 0 ≤ (t.segments.map Segment.duration).sum - (t.segments.length - 1) * a.T := by
    rcases le_total 0 a.T with sign | sign
    · linarith
    · have fades : (0 : Rat) ≤ t.segments.length - 1 := by linarith
      have := mul_nonpos_of_nonneg_of_nonpos fades sign
      linarith
  have faded : ¬ (JoinMode.crossfade ≠ .crossfade ∨
      (t.segments.map Segment.duration).length < 2) := by
    rw [List.length_map]
    simp only [ne_eq, not_true_eq_false, false_or, not_lt]
    exact several
  rw [a.duration_eq, composedDuration, mode, if_neg faded]
  rw [Seconds.max_rat, Seconds.sum_rat, Seconds.sub_rat, Seconds.times_rat, Seconds.zero_rat,
    List.length_map, Nat.cast_sub (by omega), Nat.cast_one, max_eq_right enough]

include mode long in
theorem Assembly.overlapsAt_iff {i : Nat} (first : 1 ≤ i) (last : i < t.segments.length) :
    g.OverlapsAt (t.segments.map Segment.duration) a.T i ↔ i = 1 ∨ a.T = 0 := by
  have start := a.fadeStart_eq mode long first last
  unfold Graph.OverlapsAt
  rw [start]
  -- From the second fade on, what runs before it ends where the fade starts.
  rcases Nat.lt_or_ge 1 i with later | only
  · have before := a.runningLength_eq mode long (i := i - 1) (by omega) (by omega)
    rw [Nat.sub_add_cancel first] at before
    rw [before]
    constructor
    · rintro ⟨x, y, hx, hy, eq⟩
      rw [← Option.some.inj hx, ← Option.some.inj hy] at eq
      exact .inr (by linarith)
    · rintro (one | none)
      · omega
      · exact ⟨_, _, rfl, rfl, by rw [none]; ring⟩
  · obtain rfl : i = 1 := by omega
    have bound : 0 < (t.segments.map Segment.duration).length := by simp; omega
    refine ⟨fun _ => .inl rfl, fun _ => ⟨_, _, rfl, List.getElem?_eq_getElem bound, ?_⟩⟩
    rw [List.take_succ_eq_append_getElem bound]
    simp

include mode long in
/-- The picture runs longer than stated by a transition for each fade but the first. -/
theorem Assembly.runningLength_last (several : 2 ≤ t.segments.length) :
    g.runningLength (t.segments.map Segment.duration) (t.segments.length - 1) =
      some (g.duration + (t.segments.length - 2) * a.T) := by
  have last := a.runningLength_eq mode long (i := t.segments.length - 1) (by omega) (by omega)
  rw [Nat.sub_add_cancel (by omega), List.take_of_length_le (by simp)] at last
  rw [last, a.duration_exact mode long several]
  congr 1
  ring

include mode long in
theorem Assembly.overlaps_iff (several : 2 ≤ t.segments.length) :
    g.Overlaps (t.segments.map Segment.duration) a.T ↔ t.segments.length = 2 ∨ a.T = 0 := by
  have last := a.runningLength_last mode long several
  constructor
  · rintro ⟨-, whole, -⟩
    rw [List.length_map, last] at whole
    have none : ((t.segments.length : Rat) - 2) * a.T = 0 := by
      have := Option.some.inj whole
      linarith
    rcases mul_eq_zero.mp none with two | zero
    · exact .inl (by exact_mod_cast sub_eq_zero.mp two)
    · exact .inr zero
  · intro few
    refine ⟨fun i first bound => ?_, ?_, ?_⟩
    · rw [List.length_map] at bound
      refine (a.overlapsAt_iff mode long first bound).mpr ?_
      exact few.imp (fun two => by omega) id
    · rw [List.length_map, last]
      rcases few with two | zero
      · simp [two]
      · simp [zero]
    · rw [List.length_map]
      exact a.duration_exact mode long several

end Long

/-- Where each fade starts and how long the picture runs, if no segment is shorter than the
transition. Consecutive segments overlap by a transition each, and the picture runs as long as
the graph says, exactly if there is one fade only or the transition takes no time. -/
theorem build_overlaps_iff {t : Timeline Rat} {g : Graph Rat} {T : Rat}
    (h : Graph.build t = .ok g) (mode : t.joinMode = .crossfade)
    (several : 2 ≤ t.segments.length) (transition : t.transition = some T)
    (long : ∀ d ∈ t.segments.map Segment.duration, T ≤ d) :
    (∀ i, 1 ≤ i → i < t.segments.length →
      (∃ n, g.node? ("xv" ++ toString i) = some n ∧
        n.filters = [pictureFade T (((t.segments.map Segment.duration).take i).sum - T)] ∧
        n.offset = some (((t.segments.map Segment.duration).take i).sum - T)) ∧
        (g.OverlapsAt (t.segments.map Segment.duration) T i ↔ i = 1 ∨ T = 0)) ∧
      g.duration = (t.segments.map Segment.duration).sum - (t.segments.length - 1) * T ∧
      g.runningLength (t.segments.map Segment.duration) (t.segments.length - 1) =
        some (g.duration + (t.segments.length - 2) * T) ∧
      (g.Overlaps (t.segments.map Segment.duration) T ↔ t.segments.length = 2 ∨ T = 0) := by
  obtain ⟨a⟩ := assembly_of_build h
  obtain rfl : a.T = T := Option.some.inj ((a.transition_eq several).symm.trans transition)
  refine ⟨fun i first last => ⟨a.pictureFade_exact mode long first last,
    a.overlapsAt_iff mode long first last⟩, a.duration_exact mode long several,
    a.runningLength_last mode long several, a.overlaps_iff mode long several⟩

/-- Some slides of three seconds, faded into each other for one second. -/
def slides (count : Nat) : Timeline Rat :=
  .plain (List.replicate count { path := "slide.png", kind := .image, duration := 3 })
    .crossfade false 1

theorem overlaps_two_slides :
    ∃ g, Graph.build (slides 2) = .ok g ∧ g.Overlaps [3, 3] 1 := by
  obtain ⟨g, h⟩ := exists_of_isOk (r := Graph.build (slides 2)) (by decide +kernel)
  have law := build_overlaps_iff h rfl (by decide) rfl (by simp [slides, Timeline.plain])
  exact ⟨g, h, law.2.2.2.mpr (.inl rfl)⟩

/-- The second of two fades starts at five seconds, where the picture before it ends; the
picture runs for eight seconds where the graph says seven. -/
theorem not_overlaps_three_slides :
    ∃ g, Graph.build (slides 3) = .ok g ∧ g.fadeStart 2 = some 5 ∧
      g.runningLength [3, 3, 3] 1 = some 5 ∧ g.runningLength [3, 3, 3] 2 = some 8 ∧
      g.duration = 7 ∧ ¬ g.Overlaps [3, 3, 3] 1 := by
  obtain ⟨g, h⟩ := exists_of_isOk (r := Graph.build (slides 3)) (by decide +kernel)
  have values : (Graph.build (slides 3)).toOption.map (fun g => (g.fadeStart 2,
      g.runningLength [3, 3, 3] 1, g.runningLength [3, 3, 3] 2, g.duration)) =
      some (some 5, some 5, some 8, 7) := by decide +kernel
  rw [h] at values
  obtain ⟨start, before, whole, stated⟩ : g.fadeStart 2 = some 5 ∧
      g.runningLength [3, 3, 3] 1 = some 5 ∧ g.runningLength [3, 3, 3] 2 = some 8 ∧
      g.duration = 7 := by simpa [Except.toOption] using values
  refine ⟨g, h, start, before, whole, stated, fun overlaps => ?_⟩
  have longer := overlaps.whole
  rw [stated] at longer
  have : (8 : Rat) = 7 := Option.some.inj (whole.symm.trans longer)
  norm_num at this

end Reel
