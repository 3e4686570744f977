import Reel.Graph.Build
import Reel.Proofs.Number.Format

/-!
# The numbers of a graph

Where no duration is longer than a probe is believed, and there are not more than two to the 41st,
all that the construction of a graph makes of them is of moderate size: totals, offsets, fades and
silences are below ten to the 22nd, and what is cut is cut behind half a millionth of a second.
-/
namespace Reel

open Build Timecode

variable {x y T : Double} {durations : List Double} {k : Nat}

/-- No number that a graph is built from is longer. -/
def longest : ℚ := 2 ^ 30

/-- A number up to that of as many of the longest durations as there may be. -/
abbrev Double.Moderate (x : Double) : Prop := x.Within 0 (2 ^ 71)

abbrev Double.Writable (x : Double) : Prop := x.Within brief (2 ^ 72)

theorem exact_brief : Double.Exact brief := by
  unfold Double.Exact
  decide +kernel

theorem exact_longests {k : Nat} (few : k ≤ 2 ^ 41) : Double.Exact (k * longest) := by
  simpa [longest] using Double.exact_nat (m := k) (e := 30) (by omega) (by omega)

theorem exact_longest : Double.Exact longest := by
  simpa using exact_longests (k := 1) (by omega)

theorem moderate_exact : Double.Exact (2 ^ 71) := by
  have := exact_longests (k := 2 ^ 41) le_rfl
  norm_num [longest] at this
  norm_num
  exact this

theorem mul_longest_le {k : Nat} (few : k ≤ 2 ^ 41) : k * longest ≤ 2 ^ 71 := by
  have count : (k : ℚ) ≤ 2 ^ 41 := by exact_mod_cast few
  calc k * longest ≤ 2 ^ 41 * longest := mul_le_mul_of_nonneg_right count (by norm_num [longest])
    _ = 2 ^ 71 := by norm_num [longest]

theorem zero_within {high : ℚ} (nonneg : 0 ≤ high) :
    (Seconds.zero : Double).Within 0 high := Double.signedZero_within false nonneg

/-- What is left above zero of a moderate number is moderate. -/
theorem left_moderate {high d : ℚ} (h : x.Within 0 high) (less : y.Within 0 d)
    (exact' : Double.Exact high) (nonneg : 0 ≤ high) :
    (Seconds.max Seconds.zero (Seconds.sub x y)).Within 0 high := by
  obtain ⟨kept, most⟩ := h.sub less exact'
  exact (zero_within nonneg).max kept most

/-- A running total grows by one of the longest durations at most. -/
theorem add_within (h : x.Within 0 (k * longest)) (more : y.Within 0 longest) (few : k < 2 ^ 41) :
    (Seconds.add x y).Within 0 ((k + 1 : ℕ) * longest) := by
  refine h.add more Double.exact_zero (exact_longests few) le_rfl (by norm_num) ?_
  push_cast
  linarith

theorem sum_within (each : ∀ d ∈ durations, d.Within 0 longest) (h : x.Within 0 (k * longest))
    (few : k + durations.length ≤ 2 ^ 41) : (durations.foldl Seconds.add x).Moderate := by
  induction durations generalizing x k with
  | nil => exact h.mono le_rfl (mul_longest_le (by simpa using few))
  | cons d rest ih =>
      rw [List.forall_mem_cons] at each
      rw [List.length_cons] at few
      exact ih each.2 (add_within h each.1 (by omega)) (by omega)

theorem offsetsFrom_within (each : ∀ d ∈ durations, d.Within 0 longest)
    (transition : T.Within 0 longest) (h : x.Within 0 (k * longest))
    (few : k + durations.length ≤ 2 ^ 41) :
    ∀ offset ∈ offsetsFrom T x durations, offset.Moderate := by
  induction durations generalizing x k with
  | nil => simp [offsetsFrom]
  | cons d rest ih =>
      rw [List.forall_mem_cons] at each
      rw [List.length_cons] at few
      have total := add_within h each.1 (by omega)
      cases rest with
      | nil => simp [offsetsFrom]
      | cons e rest =>
          rw [offsetsFrom, List.forall_mem_cons]
          · refine ⟨?_, ih each.2 total (by omega)⟩
            have bound := mul_longest_le (k := k + 1) (by omega)
            have nonneg : (0 : ℚ) ≤ (k + 1 : ℕ) * longest := by
              unfold longest
              positivity
            exact (left_moderate total transition (exact_longests (by omega)) nonneg).mono le_rfl
              bound
          · simp

theorem crossfadeOffsets_moderate (each : ∀ d ∈ durations, d.Within 0 longest)
    (transition : T.Within 0 longest) (few : durations.length ≤ 2 ^ 41) :
    ∀ offset ∈ crossfadeOffsets durations T, offset.Moderate := by
  refine offsetsFrom_within each transition (k := 0) ?_ (by omega)
  simpa using zero_within le_rfl

theorem composedDuration_moderate (mode : JoinMode) (each : ∀ d ∈ durations, d.Within 0 longest)
    (transition : T.Within 0 longest) (few : durations.length ≤ 2 ^ 41) :
    (composedDuration mode T durations).Moderate := by
  have total : (Seconds.sum durations).Moderate := by
    refine sum_within each (k := 0) ?_ (by omega)
    simpa using zero_within le_rfl
  unfold composedDuration
  split
  · exact total
  · have count : (Double.ofNat (durations.length - 1)).Within 0 (2 ^ 41) := by
      have high := Double.exact_nat (m := 1) (e := 41) (by omega) (by omega)
      refine Double.round_within Double.exact_zero (by simpa using high) le_rfl (by positivity) ?_
      exact_mod_cast (Nat.sub_le ..).trans few
    have overlap : (Seconds.times (durations.length - 1) T).Moderate :=
      count.mul transition moderate_exact (by norm_num [longest])
    exact left_moderate total overlap moderate_exact (by positivity)

theorem add_writable (offset : x.Moderate) (transition : T.Within brief longest) :
    (Seconds.add x T).Writable := by
  have high := Double.exact_nat (m := 1) (e := 72) (by omega) (by omega)
  refine offset.add transition exact_brief (by simpa using high) ?_ ?_ ?_ <;>
    norm_num [brief, longest]

theorem silence_writable (h : x.Moderate) :
    (Seconds.max (shortestSilence : Double) x).Writable := by
  have half : Double.Exact (1 / 2) := by
    unfold Double.Exact
    decide +kernel
  have shortest : (shortestSilence : Double).Within (1 / 2) (2 ^ 71) :=
    Double.round_within half moderate_exact (by norm_num) le_rfl (by norm_num)
  exact (shortest.max h.kept h.atMost).mono (by norm_num [brief]) (by norm_num)

theorem fade_within (transition : T.Within 0 longest) (h : x.Within 0 longest) :
    (Seconds.min T (Seconds.half x)).Within 0 longest := by
  have half : (Double.finite (1 / 2)).Within 0 1 := by
    refine ⟨fun v hv _ => ?_, 1 / 2, rfl, by norm_num, by norm_num⟩
    obtain rfl := Double.finite.inj hv
    unfold Double.Exact
    decide +kernel
  exact transition.min (h.mul half exact_longest (by norm_num))

end Reel
