import Mathlib
import Reel.Number.Double

/-!
# Rounding to the nearest double

A positive rational lies between two powers of two, which fix the last place of the doubles near
it. It is rounded to a whole number of units of that place. The order of two numbers survives the
rounding, a number that is a multiple of its own last place is kept, and so is every number that
a rounding gave.
-/
namespace Reel

namespace Rounding

variable {b n d : Nat} {tie : Tie}

theorem digitCount_eq (hb : 1 < b) (n : Nat) : digitCount b n = Nat.log b n + 1 := by
  induction n using Nat.strong_induction_on with
  | _ n ih =>
      rw [digitCount]
      split
      · next small => rw [Nat.log_of_lt (small.resolve_left (by omega))]
      · next large =>
          have reach : b ≤ n := by omega
          rw [ih _ (Nat.div_lt_self (by omega) hb), Nat.log_of_one_lt_of_le hb reach]

theorem digitCount_le (hb : 1 < b) {k : Nat} (some : 0 < k) (less : n < b ^ k) :
    digitCount b n ≤ k := by
  rw [digitCount_eq hb]
  rcases Nat.eq_zero_or_pos n with rfl | positive
  · rw [Nat.log_zero_right]
    omega
  · exact Nat.log_lt_of_lt_pow positive.ne' less

theorem zpow_eq_div (hb : b ≠ 0) (e : Int) :
    (b : ℚ) ^ e = (Nat.pow b e.toNat : ℕ) / (Nat.pow b (-e).toNat : ℕ) := by
  have base : (b : ℚ) ≠ 0 := Nat.cast_ne_zero.mpr hb
  have split : e = (e.toNat : ℤ) - ((-e).toNat : ℤ) := (Int.toNat_sub_toNat_neg e).symm
  conv_lhs => rw [split]
  rw [zpow_sub₀ base, zpow_natCast, zpow_natCast]
  simp

theorem scaled_eq (hb : b ≠ 0) (m : Nat) (e : Int) : scaled b m e = m * (b : ℚ) ^ e := by
  rw [scaled, Rat.mkRat_eq_div, zpow_eq_div hb]
  push_cast
  ring

theorem shifted_eq (hb : b ≠ 0) (n d : Nat) (e : Int) :
    ((n * Nat.pow b (-e).toNat : ℕ) : ℚ) / (d * Nat.pow b e.toNat : ℕ) = n / d / (b : ℚ) ^ e := by
  rw [zpow_eq_div hb]
  push_cast
  rw [div_div_eq_mul_div, div_mul_eq_mul_div, div_div]

theorem magnitude_eq (hb : 1 < b) (hn : n ≠ 0) (hd : d ≠ 0) :
    magnitude b n d = Int.log b ((n : ℚ) / d) := by
  have base : (1 : ℚ) < b := by exact_mod_cast hb
  have base' : (b : ℚ) ≠ 0 := by positivity
  have hn' : (0 : ℚ) < n := by positivity
  have hd' : (0 : ℚ) < d := by positivity
  have quotient : (0 : ℚ) < n / d := by positivity
  let guess : Int := (Nat.log b n : Int) - Nat.log b d
  have upper : (n : ℚ) / d < (b : ℚ) ^ (guess + 1) := by
    have above : (n : ℚ) < (b : ℚ) ^ (Nat.log b n + 1) := by
      exact_mod_cast Nat.lt_pow_succ_log_self hb n
    have below : (b : ℚ) ^ Nat.log b d ≤ d := by exact_mod_cast Nat.pow_log_le_self b hd
    have exponents : (guess + 1 : ℤ) = ((Nat.log b n + 1 : ℕ) : ℤ) - (Nat.log b d : ℕ) := by
      simp only [guess]
      push_cast
      ring
    rw [exponents, zpow_sub₀ base', zpow_natCast, zpow_natCast]
    exact div_lt_div₀ above below (by positivity) (by positivity)
  have lower : (b : ℚ) ^ (guess - 1) ≤ (n : ℚ) / d := by
    have above : (d : ℚ) ≤ (b : ℚ) ^ (Nat.log b d + 1) := by
      exact_mod_cast (Nat.lt_pow_succ_log_self hb d).le
    have below : (b : ℚ) ^ Nat.log b n ≤ n := by exact_mod_cast Nat.pow_log_le_self b hn
    have exponents : (guess - 1 : ℤ) = (Nat.log b n : ℕ) - ((Nat.log b d + 1 : ℕ) : ℤ) := by
      simp only [guess]
      push_cast
      ring
    rw [exponents, zpow_sub₀ base', zpow_natCast, zpow_natCast]
    exact div_le_div₀ (by positivity) below hd' above
  have atMost : Int.log b ((n : ℚ) / d) < guess + 1 := (Int.lt_zpow_iff_log_lt hb quotient).mp upper
  have atLeast : guess - 1 ≤ Int.log b ((n : ℚ) / d) :=
    (Int.zpow_le_iff_le_log hb quotient).mp lower
  have compare : n * Nat.pow b (-guess).toNat < d * Nat.pow b guess.toNat ↔
      Int.log b ((n : ℚ) / d) < guess := by
    rw [← Int.lt_zpow_iff_log_lt hb quotient, zpow_eq_div (by omega), div_lt_div_iff₀ hd'
      (by exact_mod_cast Nat.pos_of_ne_zero (pow_ne_zero _ (by omega)))]
    norm_cast
    rw [Nat.mul_comm (Nat.pow b guess.toNat) d]
  unfold magnitude
  rw [digitCount_eq hb, digitCount_eq hb]
  have same : ((Nat.log b n + 1 : ℕ) : ℤ) - ((Nat.log b d + 1 : ℕ) : ℤ) = guess := by
    simp only [guess]
    push_cast
    ring
  simp only [same, compare]
  split <;> omega

theorem nearest_eq_or (tie : Tie) (n d : Nat) :
    nearest tie n d = n / d ∨ nearest tie n d = n / d + 1 := by
  unfold nearest
  dsimp only
  split
  · exact .inl rfl
  split
  · exact .inr rfl
  cases tie <;> dsimp only <;> omega

theorem abs_nearest_sub_le (tie : Tie) (n : Nat) (hd : 0 < d) :
    |(nearest tie n d : ℚ) - n / d| ≤ 1 / 2 := by
  have hd' : (0 : ℚ) < d := by exact_mod_cast hd
  have above : (2 : ℚ) * (nearest tie n d * d) ≤ 2 * n + d := by
    exact_mod_cast two_mul_nearest_le tie n hd
  have below : (2 : ℚ) * n ≤ 2 * (nearest tie n d * d) + d := by
    exact_mod_cast two_mul_le_nearest tie n hd
  have whole : (n : ℚ) = n / d * d := by field_simp
  rw [abs_le]
  constructor
  · nlinarith
  · nlinarith

/-- A whole number less than half a unit away is the nearest. -/
theorem nearest_eq_of_near (hd : 0 < d) {k : Nat} (near : |(n : ℚ) / d - k| < 1 / 2) :
    nearest tie n d = k := by
  have close := abs_nearest_sub_le tie n hd
  have apart : |(nearest tie n d : ℚ) - k| < 1 := by
    calc |(nearest tie n d : ℚ) - k|
        = |((nearest tie n d : ℚ) - n / d) + ((n : ℚ) / d - k)| := by ring_nf
      _ ≤ |(nearest tie n d : ℚ) - n / d| + |(n : ℚ) / d - k| := abs_add_le _ _
      _ < 1 := by linarith
  have whole : |((nearest tie n d : ℤ) - k : ℤ)| < 1 := by exact_mod_cast apart
  have := Int.abs_lt_one_iff.mp whole
  omega

theorem nearest_le (hd : 0 < d) {k : Nat} (le : (n : ℚ) / d ≤ k) : nearest tie n d ≤ k := by
  have close := (abs_le.mp (abs_nearest_sub_le tie n hd)).2
  have below : (nearest tie n d : ℚ) < k + 1 := by linarith
  exact Nat.lt_succ_iff.mp (by exact_mod_cast below)

theorem le_nearest (hd : 0 < d) {k : Nat} (le : (k : ℚ) ≤ n / d) : k ≤ nearest tie n d := by
  have close := (abs_le.mp (abs_nearest_sub_le tie n hd)).1
  have below : (k : ℚ) < nearest tie n d + 1 := by linarith
  exact Nat.lt_succ_iff.mp (by exact_mod_cast below)

/-- A quotient halfway between two whole numbers goes to the even one. -/
theorem even_nearest_of_tie {k : Nat} (halfway : 2 * n = (2 * k + 1) * d) :
    nearest .toEven n d % 2 = 0 := by
  rcases Nat.eq_zero_or_pos d with rfl | hd
  · have none : n = 0 := by omega
    subst none
    rfl
  have split := Nat.div_add_mod n d
  have short := Nat.mod_lt n hd
  have quotient : n / d = k := by
    have : n < (k + 1) * d := by nlinarith
    have : k * d ≤ n := by nlinarith
    exact Nat.div_eq_of_lt_le (by linarith) (by linarith)
  have half : 2 * (n % d) = d := by
    rw [quotient] at split
    nlinarith
  unfold nearest
  simp only [half, lt_irrefl, if_false]
  omega

/-- The greater of two quotients has the greater nearest whole number. -/
theorem nearest_mono {n' d' : Nat} (hd : 0 < d) (hd' : 0 < d')
    (le : (n : ℚ) / d ≤ (n' : ℚ) / d') :
    nearest .toEven n d ≤ nearest .toEven n' d' := by
  by_contra greater
  have first := (abs_le.mp (abs_nearest_sub_le .toEven n hd)).2
  have second := (abs_le.mp (abs_nearest_sub_le .toEven n' hd')).1
  have step : (nearest .toEven n' d' : ℚ) + 1 ≤ nearest .toEven n d := by
    exact_mod_cast Nat.lt_of_not_le greater
  -- Both quotients lie halfway between the two results, of which only one is even.
  have halfway : (n : ℚ) / d = nearest .toEven n' d' + 1 / 2 := by linarith
  have halfway' : (n' : ℚ) / d' = nearest .toEven n' d' + 1 / 2 := by linarith
  have next : (nearest .toEven n d : ℚ) = nearest .toEven n' d' + 1 := by linarith
  have next : nearest .toEven n d = nearest .toEven n' d' + 1 := by exact_mod_cast next
  have tied {n d k : Nat} (hd : 0 < d) (h : (n : ℚ) / d = k + 1 / 2) :
      2 * n = (2 * k + 1) * d := by
    have hd' : (d : ℚ) ≠ 0 := by positivity
    have : (2 * n : ℚ) = (2 * k + 1) * d := by
      rw [div_eq_iff hd'] at h
      rw [h]
      ring
    exact_mod_cast this
  have even := even_nearest_of_tie (tied hd halfway)
  have even' := even_nearest_of_tie (tied hd' halfway')
  omega

end Rounding

namespace Double

open Rounding

variable {x y v : ℚ}

/-- The last place of the doubles near a positive number. -/
def place (x : ℚ) : Int := max (Int.log 2 x - 52) (-1074)

theorem lastPlace_eq (hx : 0 < x) : lastPlace x.num.natAbs x.den = place x := by
  have num : ((x.num.natAbs : ℕ) : ℚ) / x.den = x := by
    rw [Nat.cast_natAbs, abs_of_pos (Rat.num_pos.mpr hx), Rat.num_div_den]
  have nonzero : x.num.natAbs ≠ 0 := Int.natAbs_ne_zero.mpr (Rat.num_ne_zero.mpr hx.ne')
  rw [lastPlace, magnitude_eq (by omega) nonzero x.den_nz, num, place]

/-- How many units of its last place a positive number is rounded to. -/
def units (x : ℚ) : Nat :=
  nearest .toEven (x.num.natAbs * Nat.pow 2 (-place x).toNat) (x.den * Nat.pow 2 (place x).toNat)

/-- What a positive number is rounded to, were there no largest double. -/
def rounded (x : ℚ) : ℚ := units x * 2 ^ place x

theorem unit_pos (x : ℚ) : (0 : ℚ) < 2 ^ place x := by positivity

theorem units_den_pos (x : ℚ) : 0 < x.den * Nat.pow 2 (place x).toNat :=
  Nat.mul_pos x.den_pos (Nat.pow_pos (by omega))

theorem units_quotient (hx : 0 < x) :
    ((x.num.natAbs * Nat.pow 2 (-place x).toNat : ℕ) : ℚ) /
      (x.den * Nat.pow 2 (place x).toNat : ℕ) = x / 2 ^ place x := by
  rw [shifted_eq (by omega), Nat.cast_natAbs, abs_of_pos (Rat.num_pos.mpr hx), Rat.num_div_den]
  rfl

theorem units_le (hx : 0 < x) {k : Nat} (le : x ≤ k * 2 ^ place x) : units x ≤ k := by
  refine nearest_le (units_den_pos x) ?_
  rwa [units_quotient hx, div_le_iff₀ (unit_pos x)]

theorem le_units (hx : 0 < x) {k : Nat} (le : k * 2 ^ place x ≤ x) : k ≤ units x := by
  refine le_nearest (units_den_pos x) ?_
  rwa [units_quotient hx, le_div_iff₀ (unit_pos x)]

/-- A multiple of the unit less than half a unit away is what a number is rounded to. -/
theorem rounded_eq_of_near (hx : 0 < x) {k : Nat}
    (near : |x - k * 2 ^ place x| < 2 ^ place x / 2) : rounded x = k * 2 ^ place x := by
  have unit := unit_pos x
  have quotient : |x / 2 ^ place x - k| < 1 / 2 := by
    rw [show x / 2 ^ place x - k = (x - k * 2 ^ place x) / 2 ^ place x by field_simp, abs_div,
      abs_of_pos unit, div_lt_iff₀ unit]
    linarith
  have same : units x = k := by
    refine nearest_eq_of_near (units_den_pos x) ?_
    rwa [units_quotient hx]
  rw [rounded, same]

/-- A number has at most 53 bits in front of its last place. -/
theorem lt_mul_unit (x : ℚ) : x < ((2 ^ 53 : ℕ) : ℚ) * 2 ^ place x := by
  calc x < (2 : ℚ) ^ (Int.log 2 x + 1) := by
        exact_mod_cast Int.lt_zpow_succ_log_self (b := 2) (by omega) x
    _ ≤ (2 : ℚ) ^ (53 + place x) := by
        refine zpow_le_zpow_right₀ (by norm_num) ?_
        unfold place
        omega
    _ = ((2 ^ 53 : ℕ) : ℚ) * 2 ^ place x := by
        rw [zpow_add₀ (by norm_num)]
        norm_num

theorem units_le_bits (hx : 0 < x) : units x ≤ 2 ^ 53 := units_le hx (lt_mul_unit x).le

@[irreducible] def ceiling : Nat := Nat.pow 2 1024

theorem pow_lt_ceiling {k : Nat} (h : k < 1024) : 2 ^ k < ceiling := by
  unfold ceiling
  generalize 1024 = n at *
  exact Nat.pow_lt_pow_right (by omega) h

theorem exists_ceiling_le : ∃ n ≤ 1024, ceiling ≤ 10 ^ n := by
  unfold ceiling
  generalize 1024 = n
  exact ⟨n, le_rfl, Nat.pow_le_pow_left (by omega) n⟩

theorem ceiling_le_iff (hx : 0 < x) :
    ceiling ≤ units x * Nat.pow 2 (place x).toNat ↔ (ceiling : ℚ) ≤ rounded x := by
  rw [Nat.pow_eq]
  rcases le_or_gt 0 (place x) with whole | fraction
  · have power : (2 : ℚ) ^ place x = ((2 ^ (place x).toNat : ℕ) : ℚ) := by
      rw [Nat.cast_pow, Nat.cast_ofNat, ← zpow_natCast, Int.toNat_of_nonneg whole]
    rw [rounded, power, ← Nat.cast_mul, Nat.cast_le]
  · -- Neither side is reached with 53 bits and a last place behind the point.
    have bits := (units_le_bits hx).trans_lt (pow_lt_ceiling (by omega))
    have small : (2 : ℚ) ^ place x ≤ 1 := zpow_le_one_of_nonpos₀ (by norm_num) fraction.le
    have short : rounded x < ceiling := by
      calc rounded x ≤ units x * 1 := by
            unfold rounded
            gcongr
        _ = units x := mul_one _
        _ < ceiling := Nat.cast_lt.mpr bits
    refine iff_of_false (fun le => ?_) (not_le.mpr short)
    rw [Int.toNat_of_nonpos fraction.le, pow_zero, Nat.mul_one] at le
    exact absurd le (not_le.mpr bits)

/-- Overflow aside, a positive number goes to a whole number of units. -/
theorem round_of_pos (hx : 0 < x) :
    round x = if (ceiling : ℚ) ≤ rounded x then .infinite false else .finite (rounded x) := by
  have size : scaled 2 (units x) (place x) = rounded x := scaled_eq (by omega) _ _
  have power : Nat.pow 2 1024 = ceiling := by unfold ceiling; rfl
  unfold round
  simp only [if_neg hx.ne', lastPlace_eq hx, not_lt.mpr hx.le, decide_false,
    Bool.false_eq_true, if_false, signedZero, power]
  rw [← units]
  split
  · next none =>
      have empty : rounded x = 0 := by simp [rounded, none]
      have positive : (0 : ℚ) < ceiling :=
        Nat.cast_pos.mpr ((Nat.zero_le _).trans_lt (pow_lt_ceiling (k := 0) (by omega)))
      rw [empty, if_neg (not_le.mpr positive)]
  · simp only [ceiling_le_iff hx, size]

theorem place_mono (hx : 0 < x) (le : x ≤ y) : place x ≤ place y := by
  have := Int.log_mono_right (b := 2) hx le
  unfold place
  omega

theorem zpow_eq_mul_unit {k : Int} (le : place x ≤ k) :
    (2 : ℚ) ^ k = ((2 ^ (k - place x).toNat : ℕ) : ℚ) * 2 ^ place x := by
  rw [Nat.cast_pow, Nat.cast_ofNat, ← zpow_natCast, Int.toNat_of_nonneg (by omega),
    ← zpow_add₀ (by norm_num), sub_add_cancel]

theorem rounded_mono (hx : 0 < x) (le : x ≤ y) : rounded x ≤ rounded y := by
  have hy := hx.trans_le le
  rcases (place_mono hx le).eq_or_lt with same | lower
  · have units_le : units x ≤ units y := by
      refine nearest_mono (units_den_pos x) (units_den_pos y) ?_
      rw [units_quotient hx, units_quotient hy, same]
      exact div_le_div_of_nonneg_right le (unit_pos y).le
    rw [rounded, rounded, same]
    exact mul_le_mul_of_nonneg_right (by exact_mod_cast units_le) (unit_pos y).le
  · -- The power of two below the greater number separates the two results.
    have logs : Int.log 2 x < Int.log 2 y ∧ place y = Int.log 2 y - 52 := by
      unfold place at *
      omega
    have above : x ≤ (2 : ℚ) ^ Int.log 2 y := by
      refine (Int.lt_zpow_succ_log_self (b := 2) (by omega) x).le.trans ?_
      exact_mod_cast zpow_le_zpow_right₀ (a := (2 : ℚ)) (by norm_num) (by omega)
    have below : (2 : ℚ) ^ Int.log 2 y ≤ y := by
      exact_mod_cast Int.zpow_log_le_self (b := 2) (by omega) hy
    rw [zpow_eq_mul_unit (x := x) (by omega)] at above
    rw [zpow_eq_mul_unit (x := y) (by omega)] at below
    calc rounded x ≤ ((2 ^ (Int.log 2 y - place x).toNat : ℕ) : ℚ) * 2 ^ place x :=
          mul_le_mul_of_nonneg_right (Nat.cast_le.mpr (units_le hx above)) (unit_pos x).le
      _ = (2 : ℚ) ^ Int.log 2 y := (zpow_eq_mul_unit (by omega)).symm
      _ = ((2 ^ (Int.log 2 y - place y).toNat : ℕ) : ℚ) * 2 ^ place y :=
          zpow_eq_mul_unit (by omega)
      _ ≤ rounded y :=
          mul_le_mul_of_nonneg_right (Nat.cast_le.mpr (le_units hy below)) (unit_pos y).le

theorem rounded_eq_self (hx : 0 < x) {k : Nat} (multiple : x = k * 2 ^ place x) :
    rounded x = x := by
  have near : |x - k * 2 ^ place x| < 2 ^ place x / 2 := by
    rw [← multiple, sub_self, abs_zero]
    exact half_pos (unit_pos x)
  rw [rounded_eq_of_near hx near, ← multiple]

/-- A number of 53 bits at a place that doubles have is kept. -/
theorem rounded_bits {m : Nat} {e : Int} (hm : 0 < m) (bits : m ≤ 2 ^ 53) (low : -1074 ≤ e) :
    rounded (m * 2 ^ e) = m * 2 ^ e := by
  have fewer {m : Nat} {e : Int} (hm : 0 < m) (bits : m < 2 ^ 53) (low : -1074 ≤ e) :
      rounded (m * 2 ^ e) = m * 2 ^ e := by
    have positive : (0 : ℚ) < m * 2 ^ e := by positivity
    have below : (m : ℚ) * 2 ^ e < ((2 : ℕ) : ℚ) ^ (53 + e) := by
      rw [Nat.cast_ofNat, zpow_add₀ (by norm_num)]
      exact mul_lt_mul_of_pos_right (by exact_mod_cast bits) (by positivity)
    have log := (Int.lt_zpow_iff_log_lt (by omega) positive).mp below
    have reach : place (m * 2 ^ e) ≤ e := by
      unfold place
      omega
    refine rounded_eq_self positive (k := m * 2 ^ (e - place (m * 2 ^ e)).toNat) ?_
    rw [Nat.cast_mul, mul_assoc, ← zpow_eq_mul_unit reach]
  rcases bits.lt_or_eq with bits | full
  · exact fewer hm bits low
  · have half := fewer (m := 2 ^ 52) (e := e + 1) (by norm_num) (by norm_num) (by omega)
    have same : ((2 ^ 52 : ℕ) : ℚ) * 2 ^ (e + 1) = m * 2 ^ e := by
      rw [full, zpow_add₀ (by norm_num)]
      push_cast
      ring
    rwa [same] at half

theorem rounded_rounded (hx : 0 < x) (positive : 0 < rounded x) :
    rounded (rounded x) = rounded x := by
  have some : 0 < units x := by
    refine Nat.pos_of_ne_zero fun none => ?_
    simp [rounded, none] at positive
  exact rounded_bits some (units_le_bits hx) (le_max_right _ _)

theorem rounded_of_round (hx : 0 < x) (h : round x = .finite v) : rounded x = v ∧ v < ceiling := by
  rw [round_of_pos hx] at h
  split at h
  · cases h
  · next below =>
      have same : rounded x = v := finite.inj h
      exact ⟨same, same ▸ not_le.mp below⟩

theorem round_eq_finite_iff (hv : 0 < v) :
    round v = .finite v ↔ rounded v = v ∧ v < ceiling := by
  constructor
  · exact rounded_of_round hv
  · rw [round_of_pos hv]
    rintro ⟨same, below⟩
    rw [same, if_neg (not_le.mpr below)]

/-- Decimals of seventeen digits tell doubles apart: a number as near to a double as they can be
goes back to it. -/
theorem round_eq_of_close (hv : 0 < v) (kept : round v = .finite v) (hx : 0 < x)
    (close : |x - v| * (2 * 10 ^ 16) ≤ v) : round x = .finite v := by
  obtain ⟨same, below⟩ := (round_eq_finite_iff hv).mp kept
  have gap := abs_le.mp (show |x - v| ≤ v / (2 * 10 ^ 16) by rwa [le_div_iff₀ (by norm_num)])
  have bits := lt_mul_unit x
  have bits' := lt_mul_unit v
  -- The double is a multiple of the unit of the other number, which lies in no higher binade.
  have reach : place x ≤ place v := by
    by_contra higher
    have logs : Int.log 2 v < Int.log 2 x ∧ place v ≤ Int.log 2 x := by
      unfold place at *
      omega
    have below : (2 : ℚ) ^ Int.log 2 x ≤ x := by
      exact_mod_cast Int.zpow_log_le_self (b := 2) (by omega) hx
    have above : v < (2 : ℚ) ^ Int.log 2 x := by
      refine (Int.lt_zpow_succ_log_self (b := 2) (by omega) v).trans_le ?_
      exact_mod_cast zpow_le_zpow_right₀ (a := (2 : ℚ)) (by norm_num) (by omega)
    have unit := unit_pos v
    rw [zpow_eq_mul_unit logs.2] at below above
    have whole : v = units v * 2 ^ place v := same.symm
    have next : (units v : ℚ) + 1 ≤ ((2 ^ (Int.log 2 x - place v).toNat : ℕ) : ℚ) := by
      have fewer := lt_of_mul_lt_mul_right (whole.symm.trans_lt above) unit.le
      exact_mod_cast fewer
    have apart : v + 2 ^ place v ≤ x := by
      calc v + 2 ^ place v = (units v + 1) * 2 ^ place v := by
            rw [add_mul, one_mul, ← whole]
        _ ≤ x := (mul_le_mul_of_nonneg_right next unit.le).trans below
    norm_num at bits'
    linarith
  have multiple : v = ((units v * 2 ^ (place v - place x).toNat : ℕ) : ℚ) * 2 ^ place x := by
    rw [Nat.cast_mul, mul_assoc, ← zpow_eq_mul_unit reach]
    exact same.symm
  have near : |x - ((units v * 2 ^ (place v - place x).toNat : ℕ) : ℚ) * 2 ^ place x| <
      2 ^ place x / 2 := by
    rw [← multiple]
    refine lt_of_le_of_lt (abs_le.mpr gap) ?_
    norm_num at bits ⊢
    linarith
  have result : rounded x = v := by rw [rounded_eq_of_near hx near, ← multiple]
  rw [round_of_pos hx, result, if_neg (not_le.mpr below)]

end Double

end Reel
