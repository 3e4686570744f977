import Reel.Proofs.Number.Places
import Reel.Proofs.Number.Range

/-!
# Seconds are written with six places

A number of seconds below ten to the 22nd is written in digits with at most a point among them,
and what is written is the nearest number with six places. So it is zero just for the numbers below
half a millionth.
-/
namespace Reel

namespace Timecode

/-- A number with six places, without the zeros at its end, is read as that number. -/
theorem reads_shorten {n : Nat} (short : n < 10 ^ 28) :
    Decimal.Reads (shorten (Decimal.plainText (.finite false n (-6)))) (n / 10 ^ 6) ∧
      ∀ c ∈ (shorten (Decimal.plainText (.finite false n (-6)))).toList,
        c.isDigit = true ∨ c = '.' := by
  obtain ⟨p, reduced, few, text, value⟩ := exists_reduced false n
  rw [if_neg Bool.false_ne_true] at value
  have nonneg : 0 ≤ p.value := by
    rw [value]
    positivity
  have plus := reduced.negative_eq_false nonneg
  have small : |p.value| < 10 ^ 22 := by
    rw [abs_of_nonneg nonneg, value, div_lt_iff₀ (by norm_num)]
    exact_mod_cast short
  rw [text]
  refine ⟨⟨_, _, (reduced.read?_text_of_lt few small).trans (by rw [Positional.decimal, plus]), ?_⟩,
    ?_⟩
  · rw [← value, Positional.value, plus, Positional.size, zpow_neg, zpow_natCast, ← div_eq_mul_inv]
    rfl
  · intro c hc
    rw [Positional.text, String.toList_ofList] at hc
    refine (reduced.of_mem_chars hc).resolve_left fun minus => ?_
    rw [plus] at minus
    exact Bool.false_ne_true minus.1

/-- The text writes a number in digits with at most a point among them. -/
structure Writes (s : String) (q : ℚ) : Prop where
  plain : ∀ c ∈ s.toList, c.isDigit = true ∨ c = '.'
  reads : Decimal.Reads s q

def brief : ℚ := 4722366482869645 / 9444732965739290427392

theorem round_brief : Double.round (5 / 10 ^ 7) = .finite brief := by decide +kernel

theorem shortest_brief : Double.shortest brief = ⟨5, -7⟩ := by decide +kernel

/-- The shortest decimal of a double is positive and goes back to it. -/
theorem shortest_spec {v : ℚ} (hv : 0 < v) (kept : Double.Exact v) :
    0 < (Double.shortest v).value ∧ Double.rounded (Double.shortest v).value = v := by
  have same := (Double.shortest_found hv kept).same
  have nonneg : 0 ≤ (Double.shortest v).value := by
    rw [Double.Decimals.value_eq]
    positivity
  have positive : 0 < (Double.shortest v).value := by
    refine nonneg.lt_of_ne fun none => ?_
    rw [← none, Double.exact_zero] at same
    exact hv.ne (Double.finite.inj same)
  exact ⟨positive, (Double.rounded_of_round positive same).1⟩

/-- The shortest decimal is below every decimal that goes to a greater double. -/
theorem shortest_le {v q w : ℚ} (hv : 0 < v) (kept : Double.Exact v)
    (goes : Double.round q = .finite w)
    (lt : v < w) (hq : 0 < q) : (Double.shortest v).value ≤ q := by
  obtain ⟨positive, same⟩ := shortest_spec hv kept
  by_contra above
  have := Double.rounded_mono hq (not_le.mp above).le
  rw [same, (Double.rounded_of_round hq goes).1] at this
  exact absurd lt (not_lt.mpr this)

/-- What is at least the double next to half a millionth is written as a decimal of at least half
a millionth. -/
theorem half_le_shortest {v : ℚ} (kept : Double.Exact v) (le : brief ≤ v) :
    5 / 10 ^ 7 ≤ (Double.shortest v).value := by
  have hv : 0 < v := lt_of_lt_of_le (by norm_num [brief]) le
  rcases le.eq_or_lt with rfl | lt
  · rw [shortest_brief, Double.Decimals.value_eq]
    norm_num
  · obtain ⟨positive, same⟩ := shortest_spec hv kept
    by_contra less
    have := Double.rounded_mono positive (not_le.mp less).le
    rw [same, (Double.rounded_of_round (by norm_num) round_brief).1] at this
    exact absurd lt (not_lt.mpr this)

theorem toText_real (x : Double) : (Value.real x).toText = pure x.text := by
  simp [Value.toText, Value.isLegible, Value.shown, Value.quoted, Value.quotedChars]
  rfl

/-- A number below ten to the 22nd has six places within the precision. -/
theorem millionths_short {c : Nat} {e : Int} (moderate : (c : ℚ) * 10 ^ e ≤ 10 ^ 22 - 1) :
    ⌊(c : ℚ) * 10 ^ (e + 6) + 1 / 2⌋₊ < 10 ^ 28 := by
  rw [Nat.floor_lt (by positivity), Decimal.six_places]
  push_cast
  linarith

theorem format_within {low : ℚ} {x : Double} (h : x.Within low (2 ^ 72)) (nonneg : 0 ≤ low) :
    ∃ s q, Seconds.format x = .ok s ∧ Writes s q ∧ (brief ≤ low → 0 < q) := by
  obtain ⟨v, hv, le, le'⟩ := h.between
  rcases (nonneg.trans le).eq_or_lt with rfl | positive
  · have zero : Seconds.format x = .ok "0" := by
      rcases Double.toRat?_eq_some hv with rfl | ⟨rfl, -⟩ <;> decide +kernel
    refine ⟨"0", 0, zero, ⟨by simp, 0, 0, by decide +kernel, by norm_num⟩, fun long => ?_⟩
    have := long.trans le
    norm_num [brief] at this
  · obtain rfl : x = .finite v :=
      (Double.toRat?_eq_some hv).resolve_right fun zero => positive.ne' zero.2
    have kept := h.kept v rfl positive
    obtain ⟨c, e, read, value⟩ := Double.reads_text positive kept
    have moderate : (c : ℚ) * 10 ^ e ≤ 10 ^ 22 - 1 := by
      have exact' : Double.Exact ((1 : ℕ) * 2 ^ 73) := Double.exact_nat (by norm_num) (by norm_num)
      rw [value]
      refine (shortest_le positive kept exact' (le'.trans_lt ?_) ?_).trans ?_ <;> norm_num
    have short := millionths_short moderate
    have quantized := Decimal.quantize_six false c e
    rw [if_pos short] at quantized
    obtain ⟨reads, plain⟩ := reads_shorten short
    refine ⟨_, _, ?_, ⟨plain, reads⟩, fun long => ?_⟩
    · change format (.real (.finite v)) = _
      rw [format, toText_real, pure_bind, read]
      change formatDecimal _ = _
      rw [formatDecimal, quantized]
      rfl
    · have half := half_le_shortest kept (long.trans le)
      have some : 0 < ⌊(c : ℚ) * 10 ^ (e + 6) + 1 / 2⌋₊ := by
        rw [Nat.floor_pos, Decimal.six_places, value]
        linarith
      positivity

end Timecode

end Reel
