import Reel.Proofs.Number.Plain
import Reel.Proofs.Number.Positional
import Reel.Proofs.Number.Signed

/-!
# Six decimal places

A decimal is written as a whole number of millionths, the nearest one, a tie going away from zero.
There is no such text for numbers of more than 28 digits. Otherwise it is the reduced positional
text of that number: the zeros at the end, the point behind no places and the sign of zero go.
-/
namespace Reel

namespace Positional

open Numeral

variable {p : Positional}

def decimal (p : Positional) : Decimal :=
  .finite p.negative (ofDigits (p.whole ++ p.fraction)) (-p.fraction.length)

theorem toRat?_decimal (p : Positional) : p.decimal.toRat? = some p.value := by
  rw [decimal, Decimal.toRat?_finite, value, size, zpow_neg, zpow_natCast, ← div_eq_mul_inv]

theorem Proper.read?_text (h : p.Proper)
    (fits : Decimal.InReach (ofDigits (p.whole ++ p.fraction)) (-p.fraction.length)) :
    Decimal.read? p.text = some p.decimal := by
  obtain ⟨negative, whole, fraction⟩ := p
  have body :
      Decimal.read? (String.ofList (whole ++ if fraction = [] then [] else '.' :: fraction)) =
      some (.finite false (ofDigits (whole ++ fraction)) (-fraction.length)) := by
    split
    · next none =>
        subst none
        rw [List.append_nil] at fits ⊢
        exact Decimal.read?_digits h.full h.whole fits
    · exact Decimal.read?_places h.full h.whole h.fraction fits
  cases negative with
  | false => exact body
  | true =>
      obtain ⟨c, cs, rfl⟩ := List.exists_cons_of_ne_nil h.full
      have digit := h.whole c (List.mem_cons_self ..)
      let rest := cs ++ if fraction = [] then [] else '.' :: fraction
      refine (Decimal.read?_minus digit rest).trans ?_
      rw [← List.cons_append, body]
      rfl

theorem inReach (few : p.fraction.length ≤ 6) (small : |p.value| < 10 ^ 22) :
    Decimal.InReach (ofDigits (p.whole ++ p.fraction)) (-p.fraction.length) := by
  have short : ofDigits (p.whole ++ p.fraction) < 10 ^ 28 := by
    rw [abs_value, size, div_lt_iff₀ (by positivity)] at small
    have most : (10 : ℚ) ^ p.fraction.length ≤ 10 ^ 6 := pow_le_pow_right₀ (by norm_num) few
    have : (ofDigits (p.whole ++ p.fraction) : ℚ) < (10 ^ 28 : ℕ) := by
      push_cast
      linarith
    exact_mod_cast this
  exact Decimal.inReach_of_lt (by omega) short (by omega) (by omega)

/-- A number below ten to the 22nd with at most six places is read back. -/
theorem Proper.read?_text_of_lt (h : p.Proper) (few : p.fraction.length ≤ 6)
    (small : |p.value| < 10 ^ 22) : Decimal.read? p.text = some p.decimal :=
  h.read?_text (inReach few small)

theorem Reduced.negative_eq_false (h : p.Reduced) (nonneg : 0 ≤ p.value) : p.negative = false := by
  refine Bool.eq_false_iff.mpr fun minus => h.sign minus (le_antisymm ?_ nonneg)
  rw [value, if_pos minus, neg_nonpos]
  exact p.size_nonneg

end Positional

namespace Rounding

theorem two_mul_lt_nearest (n : Nat) {d : Nat} (hd : 0 < d) :
    2 * n < 2 * (nearest .awayFromZero n d * d) + d := by
  have split := Nat.div_add_mod n d
  have short := Nat.mod_lt n hd
  have commute : n / d * d = d * (n / d) := Nat.mul_comm _ _
  unfold nearest
  dsimp only
  generalize n / d = q at *
  generalize n % d = r at *
  split_ifs
  · omega
  · rw [Nat.add_mul]; omega
  · rw [Nat.add_mul]; omega

theorem nearest_awayFromZero (n : Nat) {d : Nat} (hd : 0 < d) :
    nearest .awayFromZero n d = ⌊(n : ℚ) / d + 1 / 2⌋₊ := by
  have positive : (0 : ℚ) < d := Nat.cast_pos.mpr hd
  have least : (2 : ℚ) * (nearest .awayFromZero n d * d) ≤ 2 * n + d := by
    exact_mod_cast two_mul_nearest_le .awayFromZero n hd
  have most : (2 : ℚ) * n < 2 * (nearest .awayFromZero n d * d) + d := by
    exact_mod_cast two_mul_lt_nearest n hd
  refine ((Nat.floor_eq_iff (by positivity)).mpr ⟨?_, ?_⟩).symm
  · rw [← sub_le_iff_le_add, le_div_iff₀ positive]
    linarith
  · rw [← lt_sub_iff_add_lt, div_lt_iff₀ positive]
    linarith

end Rounding

open Rounding

namespace Decimal

variable {c : Nat} {e : Int}

theorem digitCount_pos (c : Nat) : 0 < digitCount c := by
  rw [digitCount, digitCount_eq (by omega)]
  omega

theorem lt_pow_digitCount (c : Nat) : c < 10 ^ digitCount c := by
  rw [digitCount, digitCount_eq (by omega)]
  exact Nat.lt_pow_succ_log_self (by omega) c

theorem pow_digitCount_le (hc : c ≠ 0) : 10 ^ (digitCount c - 1) ≤ c := by
  rw [digitCount, digitCount_eq (by omega), Nat.add_sub_cancel]
  exact Nat.pow_log_le_self 10 hc

/-- Moving a coefficient to the right rounds a quotient, even where nothing is left of it. -/
theorem shiftRight_awayFromZero (c k : Nat) :
    shiftRight .awayFromZero c k = ⌊(c : ℚ) / 10 ^ k + 1 / 2⌋₊ := by
  unfold shiftRight
  split
  · next far =>
      -- less than a tenth of a unit is left, which is rounded to nothing
      have small : c * 10 < 10 ^ k := by
        calc c * 10 < 10 ^ digitCount c * 10 := by linarith [lt_pow_digitCount c]
          _ = 10 ^ (digitCount c + 1) := (pow_succ ..).symm
          _ ≤ 10 ^ k := Nat.pow_le_pow_right (by omega) (by omega)
      have tenth : (c : ℚ) / 10 ^ k < 1 / 10 := by
        rw [div_lt_div_iff₀ (by positivity) (by norm_num)]
        have : (c : ℚ) * 10 < 10 ^ k := by exact_mod_cast small
        linarith
      refine (Nat.floor_eq_zero.mpr ?_).symm
      linarith
  · have power : 0 < Nat.pow 10 k := Nat.pow_pos (by omega)
    rw [nearest_awayFromZero c power, Nat.pow_eq, Nat.cast_pow, Nat.cast_ofNat]

/-- A coefficient moved to another last place is rounded there. -/
theorem moved_eq (c : Nat) (shift : Int) :
    (if 0 ≤ shift then withZeros c shift.toNat else shiftRight .awayFromZero c (-shift).toNat) =
      ⌊(c : ℚ) * 10 ^ shift + 1 / 2⌋₊ := by
  split
  · next left =>
      have whole : (c : ℚ) * 10 ^ shift = ((c * 10 ^ shift.toNat : ℕ) : ℚ) := by
        rw [Nat.cast_mul, Nat.cast_pow, Nat.cast_ofNat, ← zpow_natCast, Int.toNat_of_nonneg left]
      rw [withZeros_eq, Nat.pow_eq, whole, add_comm, Nat.floor_add_natCast (by norm_num)]
      norm_num
  · next right =>
      have quotient : (c : ℚ) / 10 ^ (-shift).toNat = c * 10 ^ shift := by
        rw [div_eq_mul_inv, ← zpow_natCast, ← zpow_neg, Int.toNat_of_nonneg (by omega), neg_neg]
      rw [shiftRight_awayFromZero, quotient]

theorem digitCount_le_iff {n k : Nat} (some : 0 < k) : digitCount n ≤ k ↔ n < 10 ^ k :=
  ⟨fun few => (lt_pow_digitCount n).trans_le (Nat.pow_le_pow_right (by omega) few),
    digitCount_le (by omega) some⟩

/-- A number is below the place in front of its first digit. -/
theorem lt_pow_lead (c : Nat) (e : Int) : (c : ℚ) * 10 ^ e < 10 ^ (digitCount c + e : ℤ) := by
  rw [zpow_add₀ (by norm_num), zpow_natCast]
  exact mul_lt_mul_of_pos_right (by exact_mod_cast lt_pow_digitCount c) (by positivity)

/-- A number is at least as large as the place of its first digit. -/
theorem pow_lead_le (hc : c ≠ 0) (e : Int) :
    (10 : ℚ) ^ (digitCount c + e - 1 : ℤ) ≤ c * 10 ^ e := by
  have place : (digitCount c + e - 1 : ℤ) = ((digitCount c - 1 : ℕ) : ℤ) + e := by
    have := digitCount_pos c
    omega
  rw [place, zpow_add₀ (by norm_num), zpow_natCast]
  exact mul_le_mul_of_nonneg_right (by exact_mod_cast pow_digitCount_le hc) (by positivity)

/-- The digits before the point of a number below a power of ten. -/
theorem digitCount_add_le (hc : c ≠ 0) {k : Int} (below : (c : ℚ) * 10 ^ e < 10 ^ k) :
    (digitCount c : ℤ) + e ≤ k := by
  have exponents :=
    (zpow_lt_zpow_iff_right₀ (by norm_num)).mp ((pow_lead_le hc e).trans_lt below)
  omega

theorem six_places (c : Nat) (e : Int) : (c : ℚ) * 10 ^ (e + 6) = c * 10 ^ e * 10 ^ 6 := by
  rw [zpow_add₀ (by norm_num), ← mul_assoc]
  norm_num

/-- A number has a form with six places unless that is longer than the precision. -/
theorem quantize_six (negative : Bool) (c : Nat) (e : Int) :
    quantize 6 (.finite negative c e) =
      if ⌊(c : ℚ) * 10 ^ (e + 6) + 1 / 2⌋₊ < 10 ^ 28 then
        .ok (.finite negative ⌊(c : ℚ) * 10 ^ (e + 6) + 1 / 2⌋₊ (-6))
      else .error .invalidOperation := by
  rcases eq_or_ne c 0 with rfl | hc
  · norm_num [quantize]
  rw [quantize, if_neg hc]
  simp only [precision, Nat.cast_ofNat, moved_eq]
  split
  · next long =>
      have wide : (10 : ℚ) ^ (28 : ℤ) ≤ c * 10 ^ (e + 6) := by
        by_contra below
        have := digitCount_add_le hc (not_le.mp below)
        omega
      refine (if_neg (not_lt.mpr (Nat.le_floor ?_))).symm
      push_cast
      norm_num at wide ⊢
      linarith
  · have count := digitCount_le_iff (n := ⌊(c : ℚ) * 10 ^ (e + 6) + 1 / 2⌋₊) (k := 28) (by omega)
    split
    · next long => rw [if_neg (by omega)]
    · next short => rw [if_pos (by omega)]

end Decimal

namespace Timecode

/-- The nearest whole number of millionths, a tie going away from zero. -/
def millionths (q : ℚ) : ℤ := if q < 0 then -⌊-q * 10 ^ 6 + 1 / 2⌋ else ⌊q * 10 ^ 6 + 1 / 2⌋

/-- The number with six places. -/
def rounded (q : ℚ) : ℚ := millionths q / 10 ^ 6

variable {q r : ℚ}

theorem millionths_nonneg (h : 0 ≤ q) : 0 ≤ millionths q := by
  rw [millionths, if_neg (not_lt.mpr h)]
  positivity

theorem millionths_nonpos (h : q < 0) : millionths q ≤ 0 := by
  rw [millionths, if_pos h, neg_nonpos]
  have : 0 ≤ -q := by linarith
  positivity

theorem millionths_le (h : q ≤ r) : millionths q ≤ millionths r := by
  rcases lt_or_ge q 0 with below | above
  · rcases lt_or_ge r 0 with below' | above'
    · rw [millionths, if_pos below, millionths, if_pos below', neg_le_neg_iff]
      exact Int.floor_le_floor (by linarith)
    · exact (millionths_nonpos below).trans (millionths_nonneg above')
  · rw [millionths, if_neg (not_lt.mpr above), millionths, if_neg (not_lt.mpr (above.trans h))]
    exact Int.floor_le_floor (by linarith)

theorem rounded_le (h : q ≤ r) : rounded q ≤ rounded r :=
  div_le_div_of_nonneg_right (Int.cast_le.mpr (millionths_le h)) (by norm_num)

theorem rounded_div (n : ℤ) : rounded (n / 10 ^ 6) = n / 10 ^ 6 := by
  have half : ⌊(1 / 2 : ℚ)⌋ = 0 := by norm_num
  have cancel : (n : ℚ) / 10 ^ 6 * 10 ^ 6 = n := by norm_num
  rw [rounded, millionths, neg_mul, cancel, ← Int.cast_neg, Int.floor_intCast_add,
    Int.floor_intCast_add, half]
  split <;> simp

theorem rounded_int (n : ℤ) : rounded n = n := by
  have whole : ((n * 10 ^ 6 : ℤ) : ℚ) / 10 ^ 6 = n := by
    push_cast
    exact mul_div_cancel_right₀ _ (by norm_num)
  rw [← whole, rounded_div]

theorem rounded_value {p : Positional} (few : p.fraction.length ≤ 6) :
    rounded p.value = p.value := by
  obtain ⟨k, hk⟩ := Nat.exists_eq_add_of_le few
  let n := Numeral.ofDigits (p.whole ++ p.fraction) * 10 ^ k
  have size : p.size = ((n : ℤ) : ℚ) / 10 ^ 6 := by
    rw [Positional.size, hk, pow_add, Int.cast_natCast, Nat.cast_mul, Nat.cast_pow, Nat.cast_ofNat]
    field_simp
  rw [Positional.value, size]
  split
  · rw [← neg_div, ← Int.cast_neg, rounded_div]
  · exact rounded_div n

theorem millionths_signed (negative : Bool) {size : ℚ} (h : 0 ≤ size) :
    millionths (if negative then -size else size) =
      if negative then -(⌊size * 10 ^ 6 + 1 / 2⌋₊ : ℤ) else ⌊size * 10 ^ 6 + 1 / 2⌋₊ := by
  rw [Int.natCast_floor_eq_floor (by positivity)]
  cases negative with
  | false => simp [millionths, h]
  | true =>
      rcases h.eq_or_lt with rfl | positive
      · norm_num [millionths]
      · simp [millionths, positive]

theorem abs_rounded_lt_iff {k : ℕ} :
    |rounded q| < 10 ^ k ↔ (millionths q).natAbs < 10 ^ (k + 6) := by
  rw [rounded, abs_div, abs_of_pos (by norm_num : (0 : ℚ) < 10 ^ 6), div_lt_iff₀ (by norm_num),
    ← pow_add, ← Int.cast_abs, ← Int.natCast_natAbs]
  exact_mod_cast Iff.rfl

theorem dropTrailing_append (front row : List Char) {c d : Char} (apart : d ≠ c) :
    dropTrailing c (front ++ d :: row) = front ++ d :: dropTrailing c row := by
  have stop : (d == c) = false := by simpa using apart
  unfold dropTrailing
  rw [List.reverse_append, List.reverse_cons, List.append_assoc, List.dropWhile_append]
  split
  · next none =>
      rw [List.isEmpty_iff.mp none]
      simp [stop]
  · simp

theorem exists_replicate (c : Char) (row : List Char) :
    ∃ k, row = dropTrailing c row ++ List.replicate k c := by
  refine ⟨(row.rtakeWhile (· == c)).length, ?_⟩
  have all : ∀ d ∈ row.rtakeWhile (· == c), d = c := fun d hd => by
    simpa using List.mem_rtakeWhile_imp hd
  rw [← List.eq_replicate_of_mem all]
  exact List.rdropWhile_append_rtakeWhile.symm

theorem getLast?_dropTrailing (c : Char) (row : List Char) :
    (dropTrailing c row).getLast? ≠ some c := by
  intro last
  have some : row.rdropWhile (· == c) ≠ [] := by
    rintro none
    rw [dropTrailing, ← List.rdropWhile, none] at last
    cases last
  have apart := List.rdropWhile_last_not (· == c) row some
  rw [dropTrailing, ← List.rdropWhile, List.getLast?_eq_some_getLast some] at last
  rw [Option.some.inj last] at apart
  simp at apart

/-- What is left when the zeros at the end, and a point with nothing behind it, are dropped. -/
def kept (front fraction : List Char) : List Char :=
  if dropTrailing '0' fraction = [] then front else front ++ '.' :: dropTrailing '0' fraction

theorem shorten_pointed {front : List Char} (fraction : List Char) (some : front ≠ [])
    (shown : '.' ∉ front) (behind : ∀ c ∈ fraction, c.isDigit = true) :
    shorten (String.ofList (front ++ '.' :: fraction)) =
      if kept front fraction = ['-', '0'] then "0" else String.ofList (kept front fraction) := by
  have point : (front ++ '.' :: fraction).contains '.' = true := by simp
  have zeros := dropTrailing_append front fraction (c := '0') (d := '.') (by decide)
  have digits : '.' ∉ dropTrailing '0' fraction := fun mem => by
    have := behind _ (mem_of_mem_dropTrailing mem)
    revert this
    decide
  unfold shorten kept
  rw [String.toList_ofList]
  simp only [point, if_true, zeros]
  generalize dropTrailing '0' fraction = kept at *
  rcases kept.eq_nil_or_concat with rfl | ⟨front', last, rfl⟩
  · have last : front.getLast some ≠ '.' := fun eq => shown (eq ▸ List.getLast_mem some)
    have kept : dropTrailing '.' (front ++ ['.']) = front := by
      refine (List.rdropWhile_concat_pos _ _ _ (by simp)).trans ?_
      exact List.rdropWhile_eq_self_iff.mpr fun _ => by simpa using last
    simp only [List.getLast?_concat, if_true, kept, some, false_or]
  · rw [List.concat_eq_append] at digits ⊢
    have apart : last ≠ '.' := by
      rintro rfl
      simp at digits
    have ends : (front ++ '.' :: (front' ++ [last])).getLast? = .some last := by
      rw [← List.cons_append, ← List.append_assoc, List.getLast?_concat]
    have other : ¬ Option.some last = .some '.' := by simpa using apart
    have filled : ¬ front' ++ [last] = [] := by simp
    have long : ¬ front ++ '.' :: (front' ++ [last]) = [] := by simp
    rw [ends, if_neg other, if_neg filled]
    simp only [long, false_or]

/-- The text of a number without what can be left out is reduced. -/
theorem exists_reduced_of_parts (negative : Bool) {whole fraction : List Char}
    (proper : (Positional.mk negative whole fraction).Proper)
    (front : whole = ['0'] ∨ whole.head? ≠ some '0') :
    ∃ p : Positional, p.Reduced ∧ p.fraction.length ≤ fraction.length ∧
      shorten (Decimal.signed negative (whole ++ '.' :: fraction)) = p.text ∧
      p.value = (Positional.mk negative whole fraction).value := by
  have notPoint (c : Char) (digit : c.isDigit = true) : c ≠ '.' := by
    rintro rfl
    revert digit
    decide
  have shown : '.' ∉ (if negative then ['-'] else []) ++ whole := by
    rw [List.mem_append]
    rintro (sign | digit)
    · cases negative <;> simp at sign
    · exact notPoint _ (proper.whole _ digit) rfl
  have written : Decimal.signed negative (whole ++ '.' :: fraction) =
      String.ofList (((if negative then ['-'] else []) ++ whole) ++ '.' :: fraction) := by
    cases negative <;> rfl
  have shortened := shorten_pointed fraction (by simp [proper.full]) shown proper.fraction
  obtain ⟨k, dropped⟩ := exists_replicate '0' fraction
  have last := getLast?_dropTrailing '0' fraction
  rw [written, shortened, kept]
  generalize dropTrailing '0' fraction = rest at *
  subst dropped
  have digits := List.forall_mem_append.mp proper.fraction
  have value : (Positional.mk negative whole (rest ++ List.replicate k '0')).value =
      (Positional.mk negative whole rest).value := by
    simp only [Positional.value, Positional.size_append_zeros]
  have bare : (Positional.mk negative whole rest).Proper := ⟨proper.full, proper.whole, digits.1⟩
  have chars : (if rest = [] then (if negative then ['-'] else []) ++ whole
      else (if negative then ['-'] else []) ++ whole ++ '.' :: rest) =
      (Positional.mk negative whole rest).chars := by
    unfold Positional.chars
    split
    · rw [List.append_nil]
    · rfl
  rw [chars, value]
  by_cases zero : whole = ['0'] ∧ rest = []
  · obtain ⟨rfl, rfl⟩ := zero
    refine ⟨⟨false, ['0'], []⟩, ⟨⟨by simp, by simp, by simp⟩, .inl rfl, by simp, by simp⟩, by simp,
      ?_, ?_⟩
    · cases negative <;> rfl
    · have nothing : Numeral.ofDigits ['0'] = 0 := rfl
      cases negative <;> simp [Positional.value, Positional.size, nothing]
  · have some := bare.size_pos front last (not_and_or.mp zero)
    refine ⟨⟨negative, whole, rest⟩, ⟨bare, front, last, fun minus => ?_⟩, by simp, if_neg ?_, rfl⟩
    · rw [Positional.value, if_pos minus]
      exact (neg_lt_zero.mpr some).ne
    · rintro zeros
      cases negative with
      | false =>
          obtain ⟨c, cs, rfl⟩ := List.exists_cons_of_ne_nil proper.full
          have digit := proper.whole c (List.mem_cons_self ..)
          obtain rfl : c = '-' := (List.cons.inj zeros).1
          revert digit
          decide
      | true =>
          have body : whole ++ (if rest = [] then [] else '.' :: rest) = ['0'] :=
            (List.cons.inj zeros).2
          rcases rest with _ | ⟨c, cs⟩
          · exact zero ⟨by simpa using body, rfl⟩
          · have long := congrArg List.length body
            have := List.length_pos_iff.mpr proper.full
            simp at long
            omega

/-- A number of millionths is written as shortly as can be. -/
theorem exists_reduced (negative : Bool) (n : Nat) :
    ∃ p : Positional, p.Reduced ∧ p.fraction.length ≤ 6 ∧
      shorten (Decimal.plainText (.finite negative n (-6))) = p.text ∧
      p.value = if negative then -((n : ℚ) / 10 ^ 6) else (n : ℚ) / 10 ^ 6 := by
  have written : Decimal.plainText (.finite negative n (-6)) =
      Decimal.signed negative (Decimal.pointed (Nat.toDigits 10 n) 6) := by
    rw [Decimal.plainText, Decimal.withZeros_eq]
    simp
  obtain ⟨whole, fraction, point, some, places, padded⟩ :=
    Decimal.pointed_eq (Nat.toDigits 10 n) (by omega : 6 ≠ 0)
  have digits := Decimal.isDigit_of_mem_zeros_append (Numeral.isDigit_of_mem_toDigits n)
    (6 + 1 - (Nat.toDigits 10 n).length)
  have number : Numeral.ofDigits (whole ++ fraction) = n := by
    rw [padded, Numeral.ofDigits_zeros_append, Numeral.ofDigits_toDigits]
  have front : whole = ['0'] ∨ whole.head? ≠ .some '0' := by
    obtain ⟨c, cs, rfl⟩ := List.exists_cons_of_ne_nil some
    rcases Nat.lt_or_ge 6 (Nat.toDigits 10 n).length with long | short
    · have hn : n ≠ 0 := by
        rintro rfl
        simp at long
      rw [Nat.sub_eq_zero_of_le (by omega), List.replicate_zero, List.nil_append] at padded
      have first := Numeral.head?_toDigits hn
      rw [← padded] at first
      exact .inr first
    · obtain ⟨k, filled⟩ := Nat.exists_eq_add_of_lt (by omega : (Nat.toDigits 10 n).length < 6 + 1)
      have count : 6 + 1 - (Nat.toDigits 10 n).length = k + 1 := by omega
      rw [count, List.replicate_succ, List.cons_append, List.cons_append] at padded
      obtain ⟨rfl, rest⟩ := List.cons.inj padded
      have lengths := congrArg List.length rest
      rw [List.length_append, List.length_append, List.length_replicate] at lengths
      have none : cs = [] := List.length_eq_zero_iff.mp (by omega)
      exact .inl (by rw [none])
  rw [← padded, List.forall_mem_append] at digits
  have proper : (Positional.mk negative whole fraction).Proper := ⟨some, digits.1, digits.2⟩
  obtain ⟨p, reduced, few, text, value⟩ :=
    exists_reduced_of_parts negative proper front
  refine ⟨p, reduced, places ▸ few, by rw [written, point, text], ?_⟩
  rw [value, Positional.value, Positional.size, number, places]

end Timecode

end Reel
