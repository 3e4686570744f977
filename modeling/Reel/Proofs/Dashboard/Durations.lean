import Reel.Proofs.Dashboard.Faces
import Reel.Proofs.Number.Remainders
import Reel.Proofs.Timecode.Written

/-!
# Durations read back

Whole minutes are taken off a double without an error, if they are a double themselves; then it is
written with the right numbers. Doubles are shown in order, and to a twentieth of a second, unless
their seconds round up to sixty or their whole minutes are no double.
-/
namespace Reel

namespace Duration

open Double

/-- The whole minutes in an amount of seconds, and the seconds above them. -/
def minutesIn (v : ℚ) : ℕ := ⌊v / 60⌋₊

def secondsAbove (v : ℚ) : ℚ := v - (60 * minutesIn v : ℕ)

def faceOf (v : ℚ) : Face :=
  if v < 60 then .seconds (tenths v) else .ofMinutes (minutesIn v) (tenths (secondsAbove v))

theorem secondsAbove_lt (v : ℚ) : secondsAbove v < 60 := by
  have most := Nat.lt_floor_add_one (v / 60)
  rw [div_lt_iff₀ (by norm_num)] at most
  rw [secondsAbove, minutesIn]
  push_cast
  linarith

theorem one_le_minutesIn_iff {v : ℚ} : 1 ≤ minutesIn v ↔ 60 ≤ v := by
  rw [minutesIn, Nat.one_le_floor_iff, one_le_div (by norm_num)]

section Amount

variable {v : ℚ} (nonneg : 0 ≤ v)

include nonneg

theorem minutesIn_le : ((60 * minutesIn v : ℕ) : ℚ) ≤ v := by
  have least := Nat.floor_le (show 0 ≤ v / 60 by positivity)
  rw [le_div_iff₀ (by norm_num)] at least
  rw [Nat.cast_mul, mul_comm]
  exact_mod_cast least

theorem secondsAbove_nonneg : 0 ≤ secondsAbove v := sub_nonneg.mpr (minutesIn_le nonneg)

theorem value_faceOf : |(faceOf v).value - v| ≤ 1 / 20 := by
  unfold faceOf
  split
  · exact abs_tenths_sub_le nonneg
  · have near := abs_tenths_sub_le (secondsAbove_nonneg nonneg)
    rw [Face.value_ofMinutes]
    convert near using 2
    rw [secondsAbove]
    push_cast
    ring

theorem inOrder_faceOf_iff : (faceOf v).InOrder ↔ secondsAbove v < 1199 / 20 := by
  rw [← tenths_lt_iff (secondsAbove_nonneg nonneg), faceOf]
  split
  · next few =>
      have none : minutesIn v = 0 := by
        have := one_le_minutesIn_iff.not.mpr few.not_ge
        omega
      rw [secondsAbove, none]
      simp [Face.InOrder]
  · next many =>
      have some := one_le_minutesIn_iff.mpr (not_lt.mp many)
      rw [Face.inOrder_ofMinutes]
      simp [some]

theorem remainder_eq : v - 60 * (v / 60).floor = secondsAbove v := by
  have floor : ((minutesIn v : ℕ) : ℤ) = (v / 60).floor :=
    Int.natCast_floor_eq_floor (by positivity)
  rw [secondsAbove, ← floor]
  push_cast
  ring

end Amount

theorem minutesIn_whole (n : ℕ) : minutesIn (n : ℚ) = n / 60 := by
  have quotient := Nat.floor_div_eq_div (K := ℚ) n 60
  rwa [Nat.cast_ofNat] at quotient

theorem secondsAbove_whole (n : ℕ) : secondsAbove (n : ℚ) = (n % 60 : ℕ) := by
  have split : ((60 * (n / 60) + n % 60 : ℕ) : ℚ) = n := by rw [Nat.div_add_mod]
  rw [secondsAbove, minutesIn_whole, ← split]
  push_cast
  ring

theorem toDouble_whole {n : ℕ} (h : Exact n) : (Value.int n).toDouble = .ok (.finite n) := by
  have kept : Double.ofInt? n = some (.finite n) := by
    rw [Double.ofInt?, Int.cast_natCast, h]
  rw [Value.toDouble, kept]

theorem round_sixty : Double.round 60 = .finite 60 := exact_whole (n := 60) (by norm_num)

section Exactly

variable {v : ℚ} (h : Exact v) (nonneg : 0 ≤ v)

include h nonneg

theorem exact_secondsAbove : Exact (secondsAbove v) :=
  h.sub_whole (minutesIn_le nonneg) ((secondsAbove_lt v).le.trans (by norm_num))

/-- Without the seconds above them, whole minutes are left, as near as a double can be. -/
theorem sub_remainder :
    (Double.round v).sub (Double.round (v - 60 * (v / 60).floor)) =
      Double.round (60 * minutesIn v : ℕ) := by
  rw [remainder_eq nonneg, exact_secondsAbove h nonneg, h, sub_finite h, secondsAbove,
    sub_sub_cancel]

variable (whole : Exact (60 * minutesIn v : ℕ)) (some : 1 ≤ minutesIn v)

include whole some

theorem wholeMinutes_eq : wholeMinutes v = minutesIn v := by
  have quotient : (Double.finite (60 * minutesIn v : ℕ)).div (.finite 60) =
      .finite (minutesIn v : ℕ) := by
    have least : ((minutesIn v : ℕ) : ℚ) ≠ 0 := by exact_mod_cast (by omega : minutesIn v ≠ 0)
    rw [div_finite (by push_cast; simpa using least) (by norm_num), Nat.cast_mul,
      Nat.cast_ofNat, mul_div_cancel_left₀ _ (by norm_num)]
    exact exact_of_sixty whole
  have floor : ((minutesIn v : ℕ) : ℚ).floor = minutesIn v :=
    Int.floor_natCast (R := ℚ) (minutesIn v)
  rw [wholeMinutes, sub_remainder h nonneg, whole, round_sixty, quotient]
  simp [floor]

end Exactly

theorem lt_sixty (v : ℚ) : (Double.finite v).lt (Double.round 60) = decide (v < 60) := by
  rw [round_sixty]
  rfl

theorem ofDouble_of_lt {v : ℚ} (nonneg : 0 ≤ v) (few : v < 60) :
    ofDouble (.finite v) = .ok (faceOf v).text := by
  rw [ofDouble, lt_sixty, if_pos (by simpa using few), fixed_of_nonneg nonneg, faceOf,
    if_pos few]
  rfl

theorem ofDouble_of_ge {v : ℚ} (many : 60 ≤ v) :
    ofDouble (.finite v) = (Value.int (wholeMinutes v * 60)).toDouble >>= fun taken =>
      inMinutes (wholeMinutes v) (((Double.finite v).sub taken).fixed 1) := by
  rw [ofDouble, lt_sixty, if_neg (by simpa using many)]

theorem legible_of_lt {n : ℕ} (below : n < ceiling) : (Value.int n).isLegible = true := by
  obtain ⟨k, small, reach⟩ := exists_ceiling_le
  have limit : 1024 ≤ Numeral.wholeDigitLimit := by decide
  rw [Value.isLegible_int, Int.natAbs_natCast]
  generalize Numeral.wholeDigitLimit = digits at *
  exact below.trans_le (reach.trans (Nat.pow_le_pow_right (by omega) (small.trans limit)))

/-- Doubles whose whole minutes are doubles are written with the right numbers. -/
theorem ofDouble_of_exact {v : ℚ} (h : Exact v) (nonneg : 0 ≤ v)
    (whole : Exact (60 * minutesIn v : ℕ)) : ofDouble (.finite v) = .ok (faceOf v).text := by
  rcases lt_or_ge v 60 with few | many
  · exact ofDouble_of_lt nonneg few
  have minutes := wholeMinutes_eq h nonneg whole (one_le_minutesIn_iff.mpr many)
  have taken : (Value.int (minutesIn v * 60)).toDouble =
      .ok (.finite (60 * minutesIn v : ℕ)) := by
    have int := toDouble_whole whole
    rwa [Nat.cast_mul, Nat.cast_ofNat, mul_comm] at int
  have legible : (Value.int (minutesIn v / 60 : ℕ)).isLegible = true := by
    refine legible_of_lt ?_
    obtain ⟨below, -⟩ := whole.exists_bits (Nat.cast_nonneg _)
    have below : 60 * minutesIn v < ceiling := by exact_mod_cast below
    omega
  have rest : (Double.finite v).sub (.finite (60 * minutesIn v : ℕ)) =
      .finite (secondsAbove v) := by
    rw [sub_finite h]
    exact exact_secondsAbove h nonneg
  rw [ofDouble_of_ge many, minutes, taken, faceOf, if_neg many.not_gt]
  change inMinutes _ (((Double.finite v).sub (.finite _)).fixed 1) = _
  rw [rest, inMinutes_of_nonneg (secondsAbove_nonneg nonneg) legible]

theorem eq_of_near {t n : ℤ} (near : |(t : ℚ) / 10 - n| ≤ 1 / 20) : t = 10 * n := by
  have apart : |((t - 10 * n : ℤ) : ℚ)| < 1 := by
    push_cast
    rw [abs_le] at near
    rw [abs_lt]
    constructor <;> linarith
  have none : |t - 10 * n| < 1 := by exact_mod_cast apart
  have := Int.abs_lt_one_iff.mp none
  omega

theorem wholeMinutes_nonneg {v : ℚ} (h : Exact v) (nonneg : 0 ≤ v) : 0 ≤ wholeMinutes v := by
  have quotient : (Double.round (60 * minutesIn v : ℕ)).div (.finite 60) = .infinite false ∨
      ∃ w, 0 ≤ w ∧ (Double.round (60 * minutesIn v : ℕ)).div (.finite 60) = .finite w := by
    rcases round_of_nonneg (Nat.cast_nonneg (60 * minutesIn v)) with large | ⟨w, least, small⟩
    · rw [large]
      exact .inl (by simp [Double.div, Double.negative])
    · rw [small]
      rcases least.eq_or_lt with rfl | positive
      · exact .inr ⟨0, le_rfl, by simp [Double.div, Double.negative, toRat?, signedZero]⟩
      · rw [div_finite positive.ne' (by norm_num)]
        exact round_of_nonneg (by positivity)
  rw [wholeMinutes, sub_remainder h nonneg, round_sixty]
  rcases quotient with large | ⟨w, least, small⟩
  · rw [large]
  · have floor : 0 ≤ w.floor := Int.floor_nonneg.mpr least
    rw [small]
    dsimp only
    split <;> omega

theorem mem_minus_of_round {n : ℕ} (some : 0 < n) :
    '-' ∈ ((Double.round (-n : ℚ)).fixed 1).toList := by
  rw [round_neg (by exact_mod_cast some.ne')]
  rcases round_of_nonneg (Nat.cast_nonneg n) with large | ⟨w, least, small⟩
  · rw [large]
    decide
  · rw [small]
    rcases least.eq_or_lt with rfl | positive
    · decide +kernel
    · rw [Double.neg, if_neg positive.ne', fixed_of_neg (neg_lt_zero.mpr positive)]
      simp

/-- A whole number of minutes that is taken as a double is taken as a whole number. -/
theorem exists_of_toDouble {n : ℕ} {taken : Double} (h : (Value.int n).toDouble = .ok taken) :
    ∃ k : ℕ, taken = .finite k ∧ Double.round n = .finite k := by
  rcases round_of_nonneg (Nat.cast_nonneg n) with large | ⟨w, -, small⟩
  · rw [Value.toDouble, Double.ofInt?, Int.cast_natCast, large] at h
    cases h
  · obtain ⟨k, rfl⟩ := whole_of_round small
    rw [Value.toDouble, Double.ofInt?, Int.cast_natCast, small] at h
    exact ⟨k, (Except.ok.inj h).symm, small⟩

/-- Seconds that are shown in order, and near enough, are those above the whole minutes. -/
theorem taken_of_near {n k m : ℕ} {w : ℚ} (within : k ≤ n) (least : 0 ≤ w)
    (left : Double.round ((n - k : ℕ) : ℚ) = .finite w)
    (order : (Face.ofMinutes m (tenths w)).InOrder)
    (near : |(Face.ofMinutes m (tenths w)).value - n| ≤ 1 / 20) :
    k = m * 60 ∧ minutesIn (n : ℚ) = m := by
  rw [Face.inOrder_ofMinutes] at order
  rw [Face.value_ofMinutes] at near
  have shown : (tenths w : ℤ) = 10 * (n - 60 * m) := by
    refine eq_of_near ?_
    rw [abs_le] at near ⊢
    push_cast
    constructor <;> linarith
  have seconds := (tenths_lt_iff least).mp order.2
  obtain rfl := eq_of_round_lt left (seconds.trans (by norm_num))
  have whole : (tenths ((n - k : ℕ) : ℚ) : ℤ) = 10 * (n - k : ℕ) := by
    refine eq_of_near ?_
    simpa using abs_tenths_sub_le least
  refine ⟨by omega, ?_⟩
  rw [minutesIn_whole]
  omega

/-- What shows a double in order has whole minutes that are a double. -/
theorem exact_of_shows {v : ℚ} {text : String} (h : Exact v) (nonneg : 0 ≤ v)
    (written : ofDouble (.finite v) = .ok text) (shows : Shows text v) :
    Exact (60 * minutesIn v : ℕ) := by
  rcases le_or_gt v (2 ^ 53) with small | large
  · have most := (minutesIn_le nonneg).trans small
    exact exact_whole (by exact_mod_cast most)
  obtain ⟨n, rfl⟩ := h.whole large.le
  obtain ⟨m, minutes⟩ := Int.eq_ofNat_of_zero_le (wholeMinutes_nonneg h nonneg)
  have many : (60 : ℚ) ≤ n := large.le.trans' (by norm_num)
  rw [ofDouble_of_ge many, minutes] at written
  obtain ⟨taken, int, written⟩ := exists_of_bind_ok written
  obtain ⟨k, rfl, rounds⟩ := exists_of_toDouble (n := m * 60) (by exact_mod_cast int)
  obtain ⟨face, rfl, order, near⟩ := shows
  rw [sub_finite h] at written
  rcases Nat.lt_or_ge n k with excess | within
  · -- More is taken than there is, and the sign is seen.
    have negative : (n : ℚ) - k = -((k - n : ℕ) : ℚ) := by
      rw [Nat.cast_sub excess.le]
      ring
    rw [negative] at written
    exact absurd (minus_mem_of_inMinutes written (mem_minus_of_round (by omega)))
      face.minus_notMem
  · have rest : (n : ℚ) - k = ((n - k : ℕ) : ℚ) := (Nat.cast_sub within).symm
    have le : ((n - k : ℕ) : ℚ) ≤ n := by exact_mod_cast Nat.sub_le n k
    obtain ⟨w, least, left⟩ := exists_round_of_le h le
    rw [rest, left] at written
    obtain rfl := Face.text_injective (eq_of_inMinutes least written)
    obtain ⟨taken, minutes⟩ := taken_of_near within least left order near
    rw [minutes, Nat.mul_comm, Exact, rounds, taken]

theorem shows_faceOf_iff {v : ℚ} (nonneg : 0 ≤ v) :
    Shows (faceOf v).text v ↔ secondsAbove v < 1199 / 20 := by
  rw [← inOrder_faceOf_iff nonneg]
  constructor
  · rintro ⟨face, same, order, -⟩
    rwa [Face.text_injective same]
  · exact fun order => ⟨_, rfl, order, value_faceOf nonneg⟩

/-- A double is shown in order if its seconds do not round up to sixty and its whole minutes are
a double. -/
theorem shows_ofDouble_iff {x : Double} {v : ℚ} (genuine : x.Genuine)
    (amount : x.toRat? = some v) (nonneg : 0 ≤ v) :
    (∃ text, ofDouble x = .ok text ∧ Shows text v) ↔
      x ≠ .negZero ∧ secondsAbove v < 1199 / 20 ∧ Exact (60 * minutesIn v : ℕ) := by
  rcases toRat?_eq_some amount with rfl | ⟨rfl, rfl⟩
  · constructor
    · rintro ⟨text, written, shows⟩
      have whole := exact_of_shows genuine nonneg written shows
      rw [ofDouble_of_exact genuine nonneg whole] at written
      obtain rfl := Except.ok.inj written
      exact ⟨nofun, (shows_faceOf_iff nonneg).mp shows, whole⟩
    · rintro ⟨-, seconds, whole⟩
      exact ⟨_, ofDouble_of_exact genuine nonneg whole, (shows_faceOf_iff nonneg).mpr seconds⟩
  · have signed : ofDouble .negZero = .ok "-0.0s" := by decide +kernel
    constructor
    · rintro ⟨text, written, face, rfl, -⟩
      rw [signed] at written
      exact absurd (by rw [← Except.ok.inj written]; decide) face.minus_notMem
    · exact fun h => absurd rfl h.1

theorem ofInt_of_legible {n : ℕ} (legible : (Value.int (n / 3600 : ℕ)).isLegible = true) :
    ofInt n = .ok (faceOf n).text := by
  rw [ofInt, faceOf]
  rcases Nat.lt_or_ge n 60 with few | many
  · rw [if_pos (by exact_mod_cast few), if_pos (by exact_mod_cast few),
      toDouble_whole (exact_whole (few.le.trans (by norm_num)))]
    change Except.ok ((Double.finite n).fixed 1 ++ "s") = _
    rw [fixed_of_nonneg (Nat.cast_nonneg n)]
    rfl
  · have minutes : (n : ℤ) / 60 = (n / 60 : ℕ) := by omega
    have rest : (n : ℤ) % 60 = (n % 60 : ℕ) := by omega
    have hours : n / 60 / 60 = n / 3600 := Nat.div_div_eq_div_mul ..
    have small : n % 60 ≤ 2 ^ 53 := (Nat.mod_lt n (by omega)).le.trans (by norm_num)
    rw [if_neg (by exact_mod_cast many.not_gt), if_neg (by exact_mod_cast many.not_gt), minutes,
      rest, Int.cast_natCast, exact_whole small, minutesIn_whole, secondsAbove_whole]
    exact inMinutes_of_nonneg (Nat.cast_nonneg _) (hours ▸ legible)

/-- A whole number is shown in order, if its hours can be written. -/
theorem shows_ofInt_iff (n : ℕ) :
    (∃ text, ofInt n = .ok text ∧ Shows text n) ↔
      (Value.int (n / 3600 : ℕ)).isLegible = true := by
  constructor
  · rintro ⟨text, written, -⟩
    by_contra illegible
    have long : (Value.int (n / 60 / 60 : ℕ)).isLegible = false := by
      rwa [Nat.div_div_eq_div_mul, ← Bool.not_eq_true]
    have many : ¬(n : ℤ) < 60 := by
      intro few
      rw [Nat.div_eq_of_lt (by omega), isLegible_small (by decide)] at illegible
      exact illegible rfl
    have minutes : (n : ℤ) / 60 = (n / 60 : ℕ) := by omega
    rw [ofInt, if_neg many, minutes] at written
    obtain ⟨e, refused⟩ := inMinutes_of_long long _
    rw [refused] at written
    cases written
  · intro legible
    refine ⟨_, ofInt_of_legible legible, (shows_faceOf_iff (Nat.cast_nonneg n)).mpr ?_⟩
    have most : ((n % 60 : ℕ) : ℚ) ≤ 59 := by exact_mod_cast (by omega : n % 60 ≤ 59)
    rw [secondsAbove_whole]
    linarith

end Duration

/-- A double that is not negative is shown in order, and to a twentieth of a second, exactly if it
has no sign, the seconds above its whole minutes are below 59.95, and its whole minutes are a double
themselves, as they are up to the fifty-third power of two. A whole number always is, unless its
hours are too many to be written. -/
theorem durations_shown_iff (x : Double) (v : ℚ) (n : ℕ) :
    (x.Genuine → x.toRat? = some v → 0 ≤ v →
      ((∃ text, Duration.ofValue (.real x) = .ok text ∧ Duration.Shows text v) ↔
        x ≠ .negZero ∧ Duration.secondsAbove v < 1199 / 20 ∧
          Double.Exact (60 * Duration.minutesIn v : ℕ))) ∧
    (0 ≤ v → v ≤ 2 ^ 53 → Double.Exact (60 * Duration.minutesIn v : ℕ)) ∧
    ((∃ text, Duration.ofValue (.int n) = .ok text ∧ Duration.Shows text n) ↔
      (Value.int (n / 3600 : ℕ)).isLegible = true) := by
  refine ⟨Duration.shows_ofDouble_iff, fun nonneg small => ?_, Duration.shows_ofInt_iff n⟩
  have most := (Duration.minutesIn_le nonneg).trans small
  exact Double.exact_whole (by exact_mod_cast most)

/-- An hour, a minute and the double that 1.2 seconds more are. -/
def hike : ℚ := 4025531971613491 / 1099511627776

theorem durations_shown_hike :
    (Double.finite hike).Genuine ∧ (Double.finite hike).toRat? = some hike ∧ 0 ≤ hike ∧
    Duration.ofValue (.real (.finite hike)) = .ok "1h 01m 01.2s" ∧
    Duration.Shows "1h 01m 01.2s" hike ∧ Duration.Shows "1h 00m 05.0s" (3605 : ℕ) := by
  obtain ⟨doubles, small, whole⟩ := durations_shown_iff (.finite hike) hike 3605
  have genuine : (Double.finite hike).Genuine := by decide +kernel
  have nonneg : 0 ≤ hike := by norm_num [hike]
  have written : Duration.ofValue (.real (.finite hike)) = .ok "1h 01m 01.2s" := by
    decide +kernel
  have minutes : Duration.minutesIn hike = 61 := by
    rw [Duration.minutesIn, Nat.floor_eq_iff (by norm_num [hike])]
    norm_num [hike]
  have seconds : Duration.secondsAbove hike < 1199 / 20 := by
    rw [Duration.secondsAbove, minutes]
    norm_num [hike]
  obtain ⟨text, same, shows⟩ := (doubles genuine rfl nonneg).mpr
    ⟨nofun, seconds, small nonneg (by norm_num [hike])⟩
  obtain ⟨text', same', shows'⟩ := whole.mpr (isLegible_small (by decide))
  have written' : Duration.ofValue (.int (3605 : ℕ)) = .ok "1h 00m 05.0s" := by decide +kernel
  rw [written] at same
  rw [written'] at same'
  obtain rfl := Except.ok.inj same
  obtain rfl := Except.ok.inj same'
  exact ⟨genuine, rfl, nonneg, written, shows, shows'⟩

/-- The double that a minute without a twenty-fifth of a second is. -/
def almostMinute : ℚ := 8438619801785467 / 140737488355328

theorem durations_shown_sixty :
    (Double.finite almostMinute).Genuine ∧ 0 ≤ almostMinute ∧
    Duration.ofValue (.real (.finite almostMinute)) = .ok "60.0s" ∧
    ¬∃ text, Duration.ofValue (.real (.finite almostMinute)) = .ok text ∧
      Duration.Shows text almostMinute := by
  have genuine : (Double.finite almostMinute).Genuine := by decide +kernel
  have nonneg : 0 ≤ almostMinute := by norm_num [almostMinute]
  refine ⟨genuine, nonneg, by decide +kernel, fun shows => ?_⟩
  obtain ⟨-, seconds, -⟩ := (Duration.shows_ofDouble_iff genuine rfl nonneg).mp shows
  have minutes : Duration.minutesIn almostMinute = 0 := by
    rw [Duration.minutesIn, Nat.floor_eq_zero]
    norm_num [almostMinute]
  rw [Duration.secondsAbove, minutes] at seconds
  norm_num [almostMinute] at seconds

end Reel
