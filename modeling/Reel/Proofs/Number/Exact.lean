import Reel.Proofs.Number.Sums

/-!
# Exact sums of decimals

Products and sums of decimals are rounded to a number of digits. One that has no more digits, and
none finer than the last place of all, is what it would be without rounding.
-/
namespace Reel.Decimal

open Rounding

variable {m n c : Nat} {i j e : Int} {x y d : Decimal} {q r : ℚ}

/-- The number has no more digits than results keep. -/
def Fits (q : ℚ) : Prop := ∃ (c : ℕ) (e : ℤ), c < 10 ^ 28 ∧ |q| = c * 10 ^ e

/-- The number has no more digits than results keep, and none below their last place. -/
def Kept (q : ℚ) : Prop :=
  ∃ (c : ℕ) (e : ℤ), c < 10 ^ 28 ∧ bottomExponent ≤ e ∧ |q| = c * 10 ^ e

theorem kept_ite (sign : Bool) : Kept (if sign then -q else q) ↔ Kept q := by
  cases sign <;> simp [Kept]

theorem digitCount_add_eq (hm : m ≠ 0) (hc : c ≠ 0) (same : (m : ℚ) * 10 ^ i = c * 10 ^ e) :
    (digitCount m : ℤ) + i = digitCount c + e := by
  have le {m c : ℕ} {i e : ℤ} (hm : m ≠ 0) (same : (m : ℚ) * 10 ^ i = c * 10 ^ e) :
      (digitCount m : ℤ) + i ≤ digitCount c + e :=
    digitCount_add_le hm (same ▸ lt_pow_lead c e)
  exact le_antisymm (le hm same) (le hc same.symm)

/-- A coefficient that is filled up with zeros to a smaller last place is the same number. -/
theorem filled_value (q : ℚ) {place : Int} (le : place ≤ e) :
    q * 10 ^ (e - place).toNat * 10 ^ place = q * 10 ^ e := by
  rw [mul_assoc, ← zpow_natCast, ← zpow_add₀ (by norm_num), Int.toNat_of_nonneg (by omega),
    sub_add_cancel]

theorem shiftRight_append_zeros (tie : Tie) (c k : Nat) : shiftRight tie (c * 10 ^ k) k = c := by
  unfold shiftRight
  split
  · next far =>
      by_contra some
      have least : 10 ^ k ≤ c * 10 ^ k := Nat.le_mul_of_pos_left _ (by omega)
      have most := least.trans_lt (lt_pow_digitCount (c * 10 ^ k))
      have := (Nat.pow_lt_pow_iff_right (by omega)).mp most
      omega
  · have power : 0 < Nat.pow 10 k := Nat.pow_pos (by omega)
    refine nearest_eq_of_near power ?_
    rw [Nat.pow_eq, Nat.cast_mul, mul_div_cancel_right₀ _ (by positivity), sub_self, abs_zero]
    norm_num

theorem toRat?_ite {sign : Bool} {c : Nat} {e : Int} {bad : Prop} [Decidable bad]
    (h : (if bad then Except.error Signal.overflow else .ok (finite sign c e)) = .ok d) :
    d.toRat? = some (if sign then -((c : ℚ) * 10 ^ e) else (c : ℚ) * 10 ^ e) := by
  split at h
  · cases h
  · rw [← Except.ok.inj h, toRat?_finite]

theorem fit_exact (sign : Bool) (kept : Kept ((m : ℚ) * 10 ^ i)) (h : fit sign m i = .ok d) :
    d.toRat? = some (if sign then -((m : ℚ) * 10 ^ i) else (m : ℚ) * 10 ^ i) := by
  obtain ⟨c, e, short, low, same⟩ := kept
  rw [abs_of_nonneg (by positivity)] at same
  unfold fit at h
  split at h
  · next none =>
      rw [← Except.ok.inj h, toRat?_finite, none]
      simp
  next some =>
  have hc : c ≠ 0 := by
    rintro rfl
    rw [Nat.cast_zero, zero_mul] at same
    have : (0 : ℚ) < m * 10 ^ i := by positivity
    exact this.ne' same
  have tops := digitCount_add_eq some hc same
  have few := (digitCount_le_iff (n := c) (k := 28) (by omega)).mpr short
  dsimp only at h
  generalize last : max (i + digitCount m - precision) bottomExponent = place at h
  unfold precision at *
  split at h
  · next finer =>
      -- all that stands below the last place is zeros
      obtain ⟨left, hleft⟩ : ∃ left, left = c * 10 ^ (e - place).toNat := ⟨_, rfl⟩
      have value : (m : ℚ) * 10 ^ i = left * 10 ^ place := by
        rw [same, hleft, Nat.cast_mul, Nat.cast_pow, Nat.cast_ofNat, filled_value _ (by omega)]
      have zeros : m = left * 10 ^ (place - i).toNat := by
        have power : (m : ℚ) * 10 ^ i = (left * 10 ^ (place - i).toNat : ℕ) * 10 ^ i := by
          rw [value, Nat.cast_mul, Nat.cast_pow, Nat.cast_ofNat, filled_value _ finer.le]
        exact_mod_cast mul_right_cancel₀ (by positivity) power
      have digits := digitCount_add_eq some (hleft ▸ Nat.mul_ne_zero hc (by positivity)) value
      have short : ¬ 28 < digitCount left := by omega
      rw [zeros, shiftRight_append_zeros] at h
      simp only [if_neg short] at h
      rw [value]
      exact toRat?_ite h
  · have short : ¬ 28 < digitCount m := by omega
    simp only [if_neg short] at h
    exact toRat?_ite h

theorem mul_exact (hx : x.toRat? = some q) (hy : y.toRat? = some r) (kept : Kept (q * r))
    (h : x.mul y = .ok d) : d.toRat? = some (q * r) := by
  cases x with
  | finite a m i =>
      cases y with
      | finite b n j =>
          rw [toRat?_finite, Option.some.injEq] at hx hy
          have product : ((m * n : ℕ) : ℚ) * 10 ^ (i + j) = m * 10 ^ i * (n * 10 ^ j) := by
            rw [Nat.cast_mul, zpow_add₀ (by norm_num)]
            ring
          have signed : (if a != b then -((m : ℚ) * 10 ^ i * (n * 10 ^ j))
              else (m : ℚ) * 10 ^ i * (n * 10 ^ j)) = q * r := by
            rw [← hx, ← hy]
            cases a <;> cases b <;> simp
          have kept : Kept (((m * n : ℕ) : ℚ) * 10 ^ (i + j)) := by
            rw [← signed, kept_ite] at kept
            rwa [product]
          rw [fit_exact (a != b) kept h, product, signed]
      | _ => cases hy
  | _ => cases hx

/-- A coefficient at a smaller last place is the same number. -/
theorem aligned_value (sign : Bool) (m : Nat) {place : Int} (le : place ≤ i) :
    (aligned sign m i place : ℚ) * 10 ^ place =
      if sign then -((m : ℚ) * 10 ^ i) else (m : ℚ) * 10 ^ i := by
  have size : ((m * Nat.pow 10 (i - place).toNat : ℕ) : ℚ) * 10 ^ place = m * 10 ^ i := by
    rw [Nat.pow_eq, Nat.cast_mul, Nat.cast_pow, Nat.cast_ofNat, filled_value _ le]
  rw [aligned, withZeros_eq]
  cases sign
  · simpa using size
  · simpa using size

theorem addAligned_exact {a b : Bool}
    (hq : (if a then -((m : ℚ) * 10 ^ i) else (m : ℚ) * 10 ^ i) = q)
    (hr : (if b then -((n : ℚ) * 10 ^ j) else (n : ℚ) * 10 ^ j) = r) (kept : Kept (q + r))
    (h : addAligned a m i b n j = .ok d) : d.toRat? = some (q + r) := by
  have value : (aligned a m i (min i j) + aligned b n j (min i j) : ℤ) * (10 : ℚ) ^ min i j =
      q + r := by
    rw [Int.cast_add, add_mul, aligned_value a m (min_le_left i j),
      aligned_value b n (min_le_right i j), hq, hr]
  unfold addAligned at h
  dsimp only at h
  generalize aligned a m i (min i j) + aligned b n j (min i j) = sum at h value
  have signed (zero : Bool) : (if (if sum = 0 then zero else decide (sum < 0))
        then -((sum.natAbs : ℚ) * 10 ^ min i j) else (sum.natAbs : ℚ) * 10 ^ min i j) = q + r := by
    rw [← value, Nat.cast_natAbs]
    rcases lt_trichotomy sum 0 with below | rfl | above
    · simp [below.ne, below, abs_of_neg below]
    · simp
    · simp [above.ne', not_lt.mpr above.le, abs_of_pos above]
  rw [← signed (a && b), kept_ite] at kept
  rw [fit_exact _ kept h, signed]

theorem exists_multiple (h : |q| = m * 10 ^ i) {place : Int} (le : place ≤ i) :
    ∃ k : ℤ, q = k * 10 ^ place := by
  have size : |q| = (m * 10 ^ (i - place).toNat : ℤ) * 10 ^ place := by
    push_cast
    rw [h, filled_value _ le]
  rcases abs_choice q with same | turned
  · exact ⟨_, same ▸ size⟩
  · refine ⟨-(m * 10 ^ (i - place).toNat), ?_⟩
    rw [Int.cast_neg, neg_mul, ← size, turned, neg_neg]

/-- What is added to a number is at least a unit in the last place of the two, as the number and
the sum are multiples of it. -/
theorem unit_le_of_sum (hr : r ≠ 0) (hq : |q| = m * 10 ^ i) (sum : |q + r| = c * 10 ^ e) :
    10 ^ min e i ≤ |r| := by
  obtain ⟨k, hk⟩ := exists_multiple hq (min_le_right e i)
  obtain ⟨l, hl⟩ := exists_multiple sum (min_le_left e i)
  have multiple : r = (l - k : ℤ) * 10 ^ min e i := by
    rw [Int.cast_sub, sub_mul, ← hl, ← hk, add_sub_cancel_left]
  have some : l - k ≠ 0 := by
    intro none
    rw [none, Int.cast_zero, zero_mul] at multiple
    exact hr multiple
  have unit : (1 : ℚ) ≤ |((l - k : ℤ) : ℚ)| := by exact_mod_cast Int.one_le_abs some
  rw [multiple, abs_mul, abs_of_pos (by positivity : (0 : ℚ) < 10 ^ min e i)]
  exact le_mul_of_one_le_left (by positivity) unit

/-- Where one number lies below all places of a sum, the sum does not fit. -/
theorem near_of_kept (hm : m ≠ 0) (hn : n ≠ 0) (hq : |q| = m * 10 ^ i) (hr : |r| = n * 10 ^ j)
    (kept : Kept (q + r)) :
    i + min (-1) ((digitCount m : Int) - precision - 2) ≤ digitCount n + j - 1 := by
  obtain ⟨c, e, short, -, sum⟩ := kept
  unfold precision
  by_contra far
  have ten : (1 : ℚ) < 10 := by norm_num
  let lead : ℤ := digitCount m + i - 3
  have below : |r| < 10 ^ (digitCount n + j : ℤ) := hr ▸ lt_pow_lead n j
  have finer : e < digitCount n + j := by
    have least := unit_le_of_sum (abs_pos.mp (hr ▸ by positivity)) hq sum
    have := (zpow_lt_zpow_iff_right₀ ten).mp (least.trans_lt below)
    omega
  have total : |q + r| < 10 ^ lead := by
    calc |q + r| < 10 ^ (28 : ℤ) * 10 ^ e := by
          rw [sum]
          exact mul_lt_mul_of_pos_right (by exact_mod_cast short) (by positivity)
      _ = 10 ^ (28 + e) := (zpow_add₀ (by norm_num) ..).symm
      _ ≤ 10 ^ lead := zpow_le_zpow_right₀ ten.le (by omega)
  have rest : |r| < 10 ^ lead := below.trans_le (zpow_le_zpow_right₀ ten.le (by omega))
  have large : 10 ^ lead * 100 ≤ |q| := by
    calc (10 : ℚ) ^ lead * 100 = 10 ^ lead * 10 ^ (2 : ℤ) := by norm_num
      _ = 10 ^ (digitCount m + i - 1 : ℤ) := by
          rw [← zpow_add₀ (by norm_num)]
          congr 1
          omega
      _ ≤ |q| := hq ▸ pow_lead_le hm i
  have triangle : |q| ≤ |q + r| + |r| := by
    simpa using abs_sub (q + r) r
  have : (0 : ℚ) < 10 ^ lead := by positivity
  linarith

theorem add_exact (hx : x.toRat? = some q) (hy : y.toRat? = some r) (kept : Kept (q + r))
    (h : x.add y = .ok d) : d.toRat? = some (q + r) := by
  cases x with
  | finite a m i =>
      cases y with
      | finite b n j =>
          rw [toRat?_finite, Option.some.injEq] at hx hy
          change addFinite a m i b n j = .ok d at h
          have size (sign : Bool) {p : ℚ} (nonneg : 0 ≤ p) : |if sign then -p else p| = p := by
            cases sign <;> simp [abs_of_nonneg nonneg]
          have first : |q| = m * 10 ^ i := by rw [← hx, size _ (by positivity)]
          have second : |r| = n * 10 ^ j := by rw [← hy, size _ (by positivity)]
          unfold addFinite at h
          split at h
          · next none =>
              refine addAligned_exact ?_ hy kept h
              rw [← hx, none]
              simp
          split at h
          · next none =>
              refine addAligned_exact hx ?_ kept h
              rw [← hy, none]
              simp
          next some some' =>
            -- the smaller number is never so far below that only its sign counts: the sum would
            -- need more digits than are kept
            split at h
            · have near := near_of_kept some some' first second kept
              simp only [if_neg (not_lt.mpr near)] at h
              exact addAligned_exact hx hy kept h
            · have near := near_of_kept some' some second first (add_comm q r ▸ kept)
              simp only [if_neg (not_lt.mpr near)] at h
              exact addAligned_exact hx hy kept h
      | _ => cases hy
  | _ => cases hx

end Reel.Decimal
