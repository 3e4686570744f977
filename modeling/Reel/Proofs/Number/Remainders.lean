import Reel.Proofs.Number.Signed

/-!
# Differences and quotients that are exact

A double is a number of 53 bits at some place. So what is left of one above a whole number is exact
as long as it is small, large doubles are whole, and a whole sixtieth of a double is a double. With
these, whole minutes are taken off a number of seconds without an error.
-/
namespace Reel.Double

variable {v w : ℚ} {n : ℕ}

theorem exact_bits {m : ℕ} {e : ℤ} (bits : m ≤ 2 ^ 53) (low : -1074 ≤ e)
    (below : (m : ℚ) * 2 ^ e < ceiling) : Exact (m * 2 ^ e) := by
  rcases Nat.eq_zero_or_pos m with rfl | positive
  · rw [Nat.cast_zero, zero_mul]
    exact exact_zero
  · exact (round_eq_finite_iff (by positivity)).mpr ⟨rounded_bits positive bits low, below⟩

theorem Exact.exists_bits (h : Exact v) (nonneg : 0 ≤ v) :
    v < ceiling ∧ ∃ (m : ℕ) (e : ℤ), m ≤ 2 ^ 53 ∧ -1074 ≤ e ∧ v = m * 2 ^ e := by
  rcases nonneg.eq_or_lt with rfl | positive
  · have some : 0 < ceiling := (pow_lt_ceiling (k := 0) (by omega)).trans' (by omega)
    exact ⟨by exact_mod_cast some, 0, 0, by omega, by omega, by simp⟩
  · obtain ⟨same, below⟩ := (round_eq_finite_iff positive).mp h
    exact ⟨below, units v, place v, units_le_bits positive, le_max_right _ _, same.symm⟩

theorem pow_le_ceiling : ((2 ^ 53 : ℕ) : ℚ) < ceiling := by
  exact_mod_cast pow_lt_ceiling (show 53 < 1024 by omega)

theorem exact_whole (small : n ≤ 2 ^ 53) : Exact n := by
  have below : ((n : ℕ) : ℚ) < ceiling :=
    (show ((n : ℕ) : ℚ) ≤ (2 ^ 53 : ℕ) by exact_mod_cast small).trans_lt pow_le_ceiling
  simpa using exact_bits (e := 0) small (by omega) (by simpa using below)

/-- A double is whole, or has places behind the point and few bits before it. -/
theorem Exact.whole_or (h : Exact v) (nonneg : 0 ≤ v) :
    (∃ n : ℕ, v = n) ∨ v < 2 ^ 53 ∧ ∃ m k : ℕ, m ≤ 2 ^ 53 ∧ k ≤ 1074 ∧ v = m / 2 ^ k := by
  obtain ⟨-, m, e, bits, low, rfl⟩ := h.exists_bits nonneg
  rcases le_or_gt 0 e with whole | fraction
  · obtain ⟨k, rfl⟩ := Int.eq_ofNat_of_zero_le whole
    exact .inl ⟨m * 2 ^ k, by push_cast; rw [zpow_natCast]⟩
  · obtain ⟨k, rfl⟩ : ∃ k : ℕ, e = -((k + 1 : ℕ) : ℤ) := ⟨(-e).toNat - 1, by omega⟩
    have value : (m : ℚ) * 2 ^ (-((k + 1 : ℕ) : ℤ)) = m / 2 ^ (k + 1) := by
      rw [zpow_neg, zpow_natCast, div_eq_mul_inv]
    refine .inr ⟨?_, m, k + 1, bits, by omega, value⟩
    have half : (2 : ℚ) ≤ 2 ^ (k + 1) := by
      simpa using pow_le_pow_right₀ (show (1 : ℚ) ≤ 2 by norm_num) (show 1 ≤ k + 1 by omega)
    rw [value, div_lt_iff₀ (by positivity)]
    calc (m : ℚ) ≤ 2 ^ 53 := by exact_mod_cast bits
      _ < 2 ^ 53 * 2 := by norm_num
      _ ≤ 2 ^ 53 * 2 ^ (k + 1) := mul_le_mul_of_nonneg_left half (by positivity)

theorem Exact.whole (h : Exact v) (large : 2 ^ 53 ≤ v) : ∃ n : ℕ, v = n := by
  rcases h.whole_or (large.trans' (by positivity)) with whole | ⟨below, -⟩
  · exact whole
  · exact absurd large below.not_ge

/-- What is not negative is rounded to a number that is not, or to infinity. -/
theorem round_of_nonneg (nonneg : 0 ≤ v) :
    round v = .infinite false ∨ ∃ w, 0 ≤ w ∧ round v = .finite w := by
  rcases nonneg.eq_or_lt with rfl | positive
  · exact .inr ⟨0, le_rfl, exact_zero⟩
  · rw [round_of_pos positive]
    split
    · exact .inl rfl
    · exact .inr ⟨_, by unfold rounded; positivity, rfl⟩

theorem sub_finite (h : Exact v) (w : ℚ) : (finite v).sub (finite w) = round (v - w) := by
  rcases eq_or_ne w 0 with rfl | some
  · rw [sub_zero, h]
    rfl
  · rw [sub, neg, if_neg some, sub_eq_add_neg]
    rfl

/-- What is left of a double above a whole number is a double, if it is small. -/
theorem Exact.sub_whole (h : Exact v) (le : (n : ℚ) ≤ v) (small : v - n ≤ 2 ^ 53) :
    Exact (v - n) := by
  rcases h.whole_or ((Nat.cast_nonneg n).trans le) with
    ⟨k, rfl⟩ | ⟨-, m, k, bits, places, rfl⟩
  · have le : n ≤ k := by exact_mod_cast le
    rw [← Nat.cast_sub le] at small ⊢
    exact exact_whole (by exact_mod_cast small)
  · have power : (0 : ℚ) < 2 ^ k := by positivity
    have le : n * 2 ^ k ≤ m := by
      rw [le_div_iff₀ power] at le
      exact_mod_cast le
    have value : (m : ℚ) / 2 ^ k - n = (m - n * 2 ^ k : ℕ) * 2 ^ (-(k : ℤ)) := by
      rw [Nat.cast_sub le, zpow_neg, zpow_natCast, ← div_eq_mul_inv, sub_div]
      push_cast
      rw [mul_div_cancel_right₀ _ power.ne']
    have most : (m : ℚ) / 2 ^ k - n < ceiling :=
      small.trans_lt (by exact_mod_cast pow_lt_ceiling (show 53 < 1024 by omega))
    rw [value] at most ⊢
    exact exact_bits ((Nat.sub_le ..).trans bits) (by omega) most

theorem div_finite (hv : v ≠ 0) (hw : w ≠ 0) :
    (finite v).div (finite w) = round (v / w) := by
  simp [div, toRat?, hv, hw]

theorem Exact.exists_multiple (h : Exact v) : ∃ k : ℤ, v = k * 2 ^ (-1074 : ℤ) := by
  have positive {v : ℚ} (h : Exact v) (nonneg : 0 ≤ v) : ∃ k : ℤ, v = k * 2 ^ (-1074 : ℤ) := by
    obtain ⟨-, m, e, -, low, rfl⟩ := h.exists_bits nonneg
    obtain ⟨j, rfl⟩ : ∃ j : ℕ, e = j + -1074 := ⟨(e + 1074).toNat, by omega⟩
    refine ⟨m * 2 ^ j, ?_⟩
    rw [zpow_add₀ (by norm_num), zpow_natCast, ← mul_assoc, Int.cast_mul, Int.cast_natCast,
      Int.cast_pow, Int.cast_ofNat]
  rcases le_or_gt 0 v with nonneg | below
  · exact positive h nonneg
  · have turned : Exact (-v) := genuine_neg below.ne h
    obtain ⟨k, same⟩ := positive turned (by linarith)
    exact ⟨-k, by rw [Int.cast_neg, neg_mul, ← same, neg_neg]⟩

theorem round_of_pos_multiple {m : ℕ} (some : 0 < m) :
    round (m * 2 ^ (-1074 : ℤ)) = .infinite false ∨
      ∃ w, 0 < w ∧ round (m * 2 ^ (-1074 : ℤ)) = .finite w := by
  have least : rounded (((1 : ℕ) : ℚ) * 2 ^ (-1074 : ℤ)) = ((1 : ℕ) : ℚ) * 2 ^ (-1074 : ℤ) :=
    rounded_bits (by omega) (by norm_num) (by omega)
  rw [round_of_pos (by positivity)]
  split
  · exact .inl rfl
  · refine .inr ⟨_, ?_, rfl⟩
    have order := rounded_mono (x := ((1 : ℕ) : ℚ) * 2 ^ (-1074 : ℤ)) (by positivity)
      (mul_le_mul_of_nonneg_right (Nat.cast_le.mpr some) (by positivity))
    rw [least] at order
    exact order.trans_lt' (by positivity)

theorem round_multiple {k : ℤ} (some : k ≠ 0) :
    (round (k * 2 ^ (-1074 : ℤ))).toRat? ≠ .some 0 := by
  rcases Int.lt_or_gt_of_ne some with below | above
  · obtain ⟨m, rfl⟩ : ∃ m : ℕ, k = -(m : ℤ) := ⟨k.natAbs, by omega⟩
    have nonzero : (m : ℚ) * 2 ^ (-1074 : ℤ) ≠ 0 := by
      have : (0 : ℚ) < m := by exact_mod_cast (by omega : 0 < m)
      positivity
    rw [Int.cast_neg, Int.cast_natCast, neg_mul, round_neg nonzero]
    rcases round_of_pos_multiple (m := m) (by omega) with large | ⟨w, size, small⟩
    · rw [large]
      exact (Option.some_ne_none 0).symm
    · rw [small, neg, if_neg size.ne']
      simpa [toRat?] using size.ne'
  · obtain ⟨m, rfl⟩ := Int.eq_ofNat_of_zero_le above.le
    rw [Int.cast_natCast]
    rcases round_of_pos_multiple (m := m) (by omega) with large | ⟨w, size, small⟩
    · rw [large]
      exact (Option.some_ne_none 0).symm
    · rw [small]
      simpa [toRat?] using size.ne'

theorem toRat?_sub_eq_zero_iff (hv : Exact v) (hw : Exact w) :
    ((finite v).sub (finite w)).toRat? = some 0 ↔ v = w := by
  rw [sub_finite hv]
  constructor
  · intro zero
    obtain ⟨j, same⟩ := hv.exists_multiple
    obtain ⟨k, same'⟩ := hw.exists_multiple
    have whole : v - w = (j - k : ℤ) * 2 ^ (-1074 : ℤ) := by
      rw [same, same', Int.cast_sub, sub_mul]
    by_contra differ
    rw [whole] at zero
    refine round_multiple (fun none => differ ?_) zero
    rwa [none, Int.cast_zero, zero_mul, sub_eq_zero] at whole
  · rintro rfl
    rw [sub_self, exact_zero]
    rfl

theorem exact_of_sixty (h : Exact (60 * n : ℕ)) : Exact n := by
  rcases le_or_gt n (2 ^ 53) with small | large
  · exact exact_whole small
  obtain ⟨below, m, e, bits, -, value⟩ := h.exists_bits (Nat.cast_nonneg _)
  have six : (6 : ℤ) ≤ e := by
    by_contra less
    have power : (2 : ℚ) ^ e ≤ 2 ^ (5 : ℤ) := zpow_le_zpow_right₀ (by norm_num) (by omega)
    have most : (m : ℚ) * 2 ^ e ≤ 2 ^ 53 * 2 ^ (5 : ℤ) :=
      mul_le_mul (by exact_mod_cast bits) power (by positivity) (by positivity)
    have least : (60 * 2 ^ 53 : ℚ) < (60 * n : ℕ) := by
      exact_mod_cast Nat.mul_lt_mul_of_pos_left large (show 0 < 60 by omega)
    rw [value] at least
    norm_num at most least
    linarith
  obtain ⟨k, rfl⟩ : ∃ k : ℕ, e = ((k + 2 : ℕ) : ℤ) := ⟨(e - 2).toNat, by omega⟩
  rw [zpow_natCast] at value
  have fifteen : 15 * n = m * 2 ^ k := by
    have whole : 60 * n = m * 2 ^ (k + 2) := by exact_mod_cast value
    have four : 60 * n = m * 2 ^ k * 4 := by
      rw [whole, pow_add]
      ring
    omega
  obtain ⟨c, rfl⟩ : 15 ∣ m :=
    (Nat.Coprime.pow_right k (by decide : Nat.Coprime 15 2)).dvd_of_dvd_mul_right
      ⟨n, fifteen.symm⟩
  have same : n = c * 2 ^ k := by
    rw [Nat.mul_assoc] at fifteen
    exact Nat.eq_of_mul_eq_mul_left (by omega) fifteen
  have less : (n : ℚ) < ceiling := by
    refine lt_of_le_of_lt ?_ below
    exact_mod_cast Nat.le_mul_of_pos_left n (show 0 < 60 by omega)
  rw [same] at less ⊢
  have kept := exact_bits (m := c) (e := k) (by omega) (by omega)
    (by rw [zpow_natCast]; exact_mod_cast less)
  rw [zpow_natCast] at kept
  exact_mod_cast kept

theorem le_of_round (large : 2 ^ 53 < n) (h : round n = .finite w) : 2 ^ 53 ≤ w := by
  have positive : (0 : ℚ) < n := by exact_mod_cast (Nat.zero_le _).trans_lt large
  have kept : rounded ((2 ^ 53 : ℕ) : ℚ) = (2 ^ 53 : ℕ) :=
    ((round_eq_finite_iff (by positivity)).mp (exact_whole le_rfl)).1
  have least : ((2 ^ 53 : ℕ) : ℚ) ≤ w := by
    rw [← (rounded_of_round positive h).1, ← kept]
    exact rounded_mono (by positivity) (by exact_mod_cast large.le)
  exact_mod_cast least

theorem whole_of_round (h : round n = .finite w) : ∃ k : ℕ, w = k := by
  rcases le_or_gt n (2 ^ 53) with small | large
  · rw [exact_whole small] at h
    exact ⟨n, (finite.inj h).symm⟩
  · have least := le_of_round large h
    exact (round_kept _ _ h (least.trans_lt' (by positivity))).whole least

/-- A whole number that is rounded to a small number is that number. -/
theorem eq_of_round_lt (h : round n = .finite w) (few : w < 2 ^ 53) : w = n := by
  rcases le_or_gt n (2 ^ 53) with small | large
  · rw [exact_whole small] at h
    exact (finite.inj h).symm
  · exact absurd (le_of_round large h) few.not_ge

/-- A whole number that is not above a double is rounded to a number. -/
theorem exists_round_of_le (h : Exact v) (le : (n : ℚ) ≤ v) :
    ∃ w, 0 ≤ w ∧ round n = .finite w := by
  rcases round_of_nonneg (Nat.cast_nonneg n) with large | small
  · obtain ⟨w, number, -⟩ :=
      (round_within exact_zero h le_rfl (Nat.cast_nonneg n) le).between
    rw [large] at number
    cases number
  · exact small

end Reel.Double
