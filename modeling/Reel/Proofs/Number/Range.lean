import Reel.Proofs.Number.Order
import Reel.Proofs.Number.Rounding

/-!
# Doubles within bounds

Bounds that are doubles themselves survive every rounding: what lies between them exactly lies
between them rounded. So the results of sums, products and comparisons are bounded as the exact
ones are, and are numbers.
-/
namespace Reel.Double

variable {a b c d low high q v : ℚ} {x y : Double}

/-- Rounding gives the number itself. -/
def Exact (v : ℚ) : Prop := round v = .finite v

/-- A double that is a positive number is one that rounding keeps. -/
def Kept (x : Double) : Prop := ∀ v, x = .finite v → 0 < v → Exact v

theorem exact_zero : Exact 0 := if_pos rfl

theorem exact_nat {m e : Nat} (bits : m ≤ 2 ^ 53) (small : e ≤ 900) : Exact (m * 2 ^ e) := by
  rcases Nat.eq_zero_or_pos m with rfl | positive
  · rw [Nat.cast_zero, zero_mul]
    exact exact_zero
  · have below : m * 2 ^ e < ceiling := by
      calc m * 2 ^ e ≤ 2 ^ 53 * 2 ^ e := Nat.mul_le_mul_right _ bits
        _ = 2 ^ (53 + e) := (pow_add ..).symm
        _ < ceiling := pow_lt_ceiling (by omega)
    refine (round_eq_finite_iff (by positivity)).mpr ⟨?_, ?_⟩
    · have kept := rounded_bits (e := e) positive bits (by omega)
      rwa [zpow_natCast] at kept
    · have cast : ((m * 2 ^ e : ℕ) : ℚ) < ceiling := Nat.cast_lt.mpr below
      push_cast at cast
      exact cast

theorem round_of_neg (neg : q < 0) :
    round q = .negZero ∨ round q = .infinite true ∨ ∃ size, 0 ≤ size ∧ round q = .finite (-size) := by
  unfold round
  simp only [neg.ne, neg, decide_true, if_false, if_true, signedZero]
  split
  · exact .inl rfl
  split
  · exact .inr (.inl rfl)
  · refine .inr (.inr ⟨_, ?_, rfl⟩)
    rw [Rounding.scaled_eq (by omega)]
    positivity

theorem round_kept (q : ℚ) : (round q).Kept := by
  intro v hv positive
  rcases lt_trichotomy q 0 with neg | rfl | pos
  · rcases round_of_neg neg with h | h | ⟨size, nonneg, h⟩
    all_goals rw [h] at hv
    · cases hv
    · cases hv
    · have := finite.inj hv
      linarith
  · rw [exact_zero] at hv
    have := finite.inj hv
    linarith
  · obtain ⟨rfl, below⟩ := rounded_of_round pos hv
    exact (round_eq_finite_iff positive).mpr ⟨rounded_rounded pos positive, below⟩

/-- A number that rounding keeps, between two bounds. -/
structure Within (low high : ℚ) (x : Double) : Prop where
  kept : x.Kept
  between : ∃ v, x.toRat? = some v ∧ low ≤ v ∧ v ≤ high

theorem Within.mono (h : x.Within a b) (le : low ≤ a) (le' : b ≤ high) : x.Within low high := by
  obtain ⟨v, hv, atLeast, atMost⟩ := h.between
  exact ⟨h.kept, v, hv, le.trans atLeast, atMost.trans le'⟩

/-- Exact bounds of a number are bounds of what it is rounded to. -/
theorem round_within (hl : Exact low) (hh : Exact high) (nonneg : 0 ≤ low) (le : low ≤ q)
    (le' : q ≤ high) : (round q).Within low high := by
  refine ⟨round_kept q, ?_⟩
  rcases (nonneg.trans le).eq_or_lt with rfl | pos
  · exact ⟨0, by rw [exact_zero]; rfl, le, le'⟩
  · obtain ⟨top, below⟩ := (round_eq_finite_iff (pos.trans_le le')).mp hh
    have above : rounded q ≤ high := top ▸ rounded_mono pos le'
    refine ⟨rounded q, ?_, ?_, above⟩
    · rw [round_of_pos pos, if_neg (not_le.mpr (above.trans_lt below))]
      rfl
    · rcases nonneg.eq_or_lt with rfl | positive
      · unfold rounded
        positivity
      · have bottom := ((round_eq_finite_iff positive).mp hl).1
        exact bottom ▸ rounded_mono positive le

theorem toRat?_eq_some (h : x.toRat? = some v) : x = .finite v ∨ x = .negZero ∧ v = 0 := by
  cases x with
  | finite w =>
      obtain rfl := Option.some.inj h
      exact .inl rfl
  | negZero =>
      obtain rfl := Option.some.inj h
      exact .inr ⟨rfl, rfl⟩
  | nan => cases h
  | infinite negative => cases h

theorem lt_eq (hx : x.toRat? = some v) (hy : y.toRat? = some q) :
    Seconds.lt x y = decide (v < q) := by
  rcases toRat?_eq_some hx with rfl | ⟨rfl, rfl⟩ <;> rcases toRat?_eq_some hy with rfl | ⟨rfl, rfl⟩
    <;> simp [Seconds.lt, Double.lt]

/-- The number is at most the bound, or is no number. -/
def AtMost (high : ℚ) (x : Double) : Prop := Seconds.lt (Double.finite high) x = false

theorem Within.atMost (h : x.Within low high) : x.AtMost high := by
  obtain ⟨v, hv, -, le⟩ := h.between
  rw [AtMost, lt_eq (x := .finite high) rfl hv]
  simpa using le

/-- A number above one that is not above a bound lies between them. -/
theorem exists_of_lt (hx : x.toRat? = some v) (lt : Seconds.lt x y = true) (most : y.AtMost high) :
    ∃ w, y.toRat? = some w ∧ v < w ∧ w ≤ high := by
  cases hy : y.toRat? with
  | some w =>
      rw [lt_eq hx hy, decide_eq_true_eq] at lt
      rw [AtMost, lt_eq (x := .finite high) rfl hy, decide_eq_false_iff_not, not_lt] at most
      exact ⟨w, rfl, lt, most⟩
  | none =>
      -- Left over are the not-a-number and the infinities, of which none is between numbers.
      rcases y with _ | (_ | _) | _ | w
      · rcases toRat?_eq_some hx with rfl | ⟨rfl, -⟩ <;> cases lt
      · cases most
      · rcases toRat?_eq_some hx with rfl | ⟨rfl, -⟩ <;> cases lt
      · cases hy
      · cases hy

/-- Against a number between bounds, the greater one is between them as well. -/
theorem Within.max (h : x.Within low high) (kept : y.Kept) (most : y.AtMost high) :
    (Seconds.max x y).Within low high := by
  obtain ⟨v, hv, atLeast, atMost⟩ := h.between
  unfold Seconds.max
  split
  · next lt =>
      obtain ⟨w, hw, above, below⟩ := exists_of_lt hv lt most
      exact ⟨kept, w, hw, atLeast.trans above.le, below⟩
  · exact h

theorem Within.min (h : x.Within low high) (k : y.Within low high) :
    (Seconds.min x y).Within low high := by
  unfold Seconds.min
  split
  · exact k
  · exact h

theorem round_atMost (hh : Exact high) (nonneg : 0 ≤ high) (le : q ≤ high) :
    (round q).AtMost high := by
  rcases lt_or_ge q 0 with neg | pos
  · unfold AtMost
    rcases round_of_neg neg with h | h | ⟨size, positive, h⟩
    all_goals rw [h]
    · simpa [Seconds.lt, Double.lt] using nonneg
    · rfl
    · simp only [Seconds.lt, Double.lt, decide_eq_false_iff_not, not_lt]
      linarith
  · exact (round_within exact_zero hh le_rfl pos le).atMost

theorem Within.add (h : x.Within a b) (k : y.Within c d) (hl : Exact low) (hh : Exact high)
    (nonneg : 0 ≤ low) (le : low ≤ a + c) (le' : b + d ≤ high) :
    (Seconds.add x y).Within low high := by
  obtain ⟨v, hv, av, vb⟩ := h.between
  obtain ⟨w, hw, cw, wd⟩ := k.between
  rcases toRat?_eq_some hv with rfl | ⟨rfl, rfl⟩
  · rcases toRat?_eq_some hw with rfl | ⟨rfl, rfl⟩
    · exact round_within hl hh nonneg (by linarith) (by linarith)
    · exact ⟨h.kept, v, rfl, by linarith, by linarith⟩
  · have same : Seconds.add Double.negZero y = y := by
      rcases toRat?_eq_some hw with rfl | ⟨rfl, -⟩ <;> rfl
    rw [same]
    exact ⟨k.kept, w, hw, by linarith, by linarith⟩

theorem kept_of_nonpos (le : q ≤ 0) : (finite q).Kept := by
  rintro v hv positive
  obtain rfl := finite.inj hv
  linarith

theorem atMost_of_nonpos (le : q ≤ 0) (nonneg : 0 ≤ high) : (finite q).AtMost high := by
  rw [AtMost, lt_eq (x := .finite high) rfl (y := .finite q) rfl, decide_eq_false_iff_not]
  linarith

theorem sub_eq (hx : x.toRat? = some v) (hy : y.toRat? = some q) :
    x.sub y = x ∨ x.sub y = round (v + -q) ∨ x.sub y = .finite (-q) := by
  rcases toRat?_eq_some hx with rfl | ⟨rfl, rfl⟩ <;> rcases toRat?_eq_some hy with rfl | ⟨rfl, rfl⟩
  · rcases eq_or_ne q 0 with rfl | some
    · exact .inl rfl
    · exact .inr (.inl (by simp [sub, neg, some, add]))
  · exact .inr (.inl (by simp [sub, neg, add]))
  · rcases eq_or_ne q 0 with rfl | some
    · exact .inl rfl
    · exact .inr (.inr (by simp [sub, neg, some, add]))
  · exact .inr (.inr (by simp [sub, neg, add]))

theorem Within.sub (h : x.Within 0 high) (k : y.Within 0 d) (hh : Exact high) :
    (Seconds.sub x y).Kept ∧ (Seconds.sub x y).AtMost high := by
  obtain ⟨v, hv, nonneg, le⟩ := h.between
  obtain ⟨w, hw, nonneg', -⟩ := k.between
  have positive := nonneg.trans le
  change (x.sub y).Kept ∧ (x.sub y).AtMost high
  rcases sub_eq hv hw with same | rest | rest
  · rw [same]
    exact ⟨h.kept, h.atMost⟩
  · exact rest ▸ ⟨round_kept _, round_atMost hh positive (by linarith)⟩
  · exact rest ▸ ⟨kept_of_nonpos (by linarith), atMost_of_nonpos (by linarith) positive⟩

theorem signedZero_within (sign : Bool) (nonneg : 0 ≤ high) :
    (signedZero sign).Within 0 high := by
  cases sign
  · exact ⟨kept_of_nonpos le_rfl, 0, rfl, le_rfl, nonneg⟩
  · have kept : (signedZero true).Kept := fun v hv => by cases hv
    exact ⟨kept, 0, rfl, le_rfl, nonneg⟩

theorem Within.mul (h : x.Within 0 b) (k : y.Within 0 d) (hh : Exact high) (le : b * d ≤ high) :
    (x.mul y).Within 0 high := by
  obtain ⟨v, hv, nonneg, vb⟩ := h.between
  obtain ⟨w, hw, nonneg', wd⟩ := k.between
  have product : v * w ≤ high := (mul_le_mul vb wd nonneg' (nonneg.trans vb)).trans le
  have positive : 0 ≤ v * w := mul_nonneg nonneg nonneg'
  have result : x.mul y =
      if v * w = 0 then signedZero (x.negative != y.negative) else round (v * w) := by
    rcases toRat?_eq_some hv with rfl | ⟨rfl, rfl⟩ <;>
      rcases toRat?_eq_some hw with rfl | ⟨rfl, rfl⟩ <;> rfl
  rw [result]
  split
  · exact signedZero_within _ (positive.trans product)
  · exact round_within exact_zero hh le_rfl positive product

end Reel.Double
