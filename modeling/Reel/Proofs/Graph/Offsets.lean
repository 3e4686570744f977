import Mathlib
import Reel.Graph.Build

/-!
# Exact times

Over the rationals the operations on times are those of the field, so the starts of fades and
the composed duration have closed forms: sums of the durations before a fade, less one
transition, and the sum of all durations, less one transition for each fade.
-/
namespace Reel

namespace Seconds

@[simp] theorem add_rat (x y : Rat) : Seconds.add x y = x + y := rfl

@[simp] theorem sub_rat (x y : Rat) : Seconds.sub x y = x - y := rfl

@[simp] theorem times_rat (n : Nat) (x : Rat) : Seconds.times n x = n * x := rfl

@[simp] theorem zero_rat : (Seconds.zero : Rat) = 0 := rfl

@[simp] theorem le_rat (x y : Rat) : Seconds.le x y = decide (x ≤ y) := rfl

@[simp] theorem max_rat (x y : Rat) : Seconds.max x y = Max.max x y := by
  rw [max_def_lt]
  simp [Seconds.max, Seconds.lt]

@[simp] theorem sum_rat (xs : List Rat) : Seconds.sum xs = xs.sum := by
  unfold Seconds.sum
  rw [List.sum_eq_foldl]
  rfl

end Seconds

/-- A fade starts one transition before the end of what precedes it, were it laid end to end. -/
theorem getElem?_offsetsFrom (T total : Rat) (durations : List Rat) (i : Nat)
    (h : i + 1 < durations.length) :
    (offsetsFrom T total durations)[i]? =
      some (max 0 (total + (durations.take (i + 1)).sum - T)) := by
  induction durations generalizing total i with
  | nil => simp at h
  | cons d rest ih =>
      cases rest with
      | nil => simp at h
      | cons e rest =>
          have step : offsetsFrom T total (d :: e :: rest) =
              max 0 (total + d - T) :: offsetsFrom T (total + d) (e :: rest) := by
            rw [offsetsFrom]
            · simp
            · simp
          rw [step]
          cases i with
          | zero => simp
          | succ i =>
              rw [List.getElem?_cons_succ, ih (total + d) i (by simpa using h)]
              rw [List.take_succ_cons (a := d), List.sum_cons, add_assoc total d]

theorem getElem?_crossfadeOffsets (T : Rat) (durations : List Rat) (i : Nat)
    (h : i + 1 < durations.length) :
    (crossfadeOffsets durations T)[i]? = some (max 0 ((durations.take (i + 1)).sum - T)) := by
  rw [crossfadeOffsets, getElem?_offsetsFrom T _ durations i h, Seconds.zero_rat, zero_add]

section Long

variable {T : Rat} {durations : List Rat} (positive : ∀ d ∈ durations, 0 < d)
  (long : ∀ d ∈ durations, T ≤ d)

include positive in
theorem sum_take_nonneg (i : Nat) : 0 ≤ (durations.take i).sum :=
  List.sum_nonneg fun d hd => (positive d (List.mem_of_mem_take hd)).le

include positive long in
/-- Durations that are no shorter than a transition sum up to no less, leaving out any number
of transitions but one. -/
theorem le_sum_take {i : Nat} (first : 0 < i) (last : i ≤ durations.length) :
    T ≤ (durations.take i).sum := by
  cases durations with
  | nil => simp at last; omega
  | cons d rest =>
      obtain ⟨i, rfl⟩ : ∃ j, i = j + 1 := ⟨i - 1, by omega⟩
      rw [List.take_succ_cons, List.sum_cons]
      have head := long d (by simp)
      have tail := sum_take_nonneg (fun x hx => positive x (List.mem_cons_of_mem _ hx)) i
      linarith

end Long

end Reel
