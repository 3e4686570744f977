import Reel.Proofs.Number.Reading

/-!
# Positional texts and the shortest of a number

A positional text shows a sign, digits, and behind a point the digits of smaller places. One that
shows nothing that could be left out is the shortest of all that show its number, and the only one
of its length.
-/
namespace Reel

namespace Numeral

variable {c : Char} {cs : List Char}

theorem ofDigits_cons (c : Char) (cs : List Char) :
    ofDigits (c :: cs) = (c.toNat - 48) * 10 ^ cs.length + ofDigits cs := by
  rw [ofDigits, Nat.ofDigitChars_cons, Nat.ofDigitChars_eq_ofDigitChars_zero, ofDigits,
    Nat.mul_zero, Nat.zero_add, Nat.mul_comm]
  rfl

theorem ofDigits_append_eq (front behind : List Char) :
    ofDigits (front ++ behind) = ofDigits front * 10 ^ behind.length + ofDigits behind := by
  rw [ofDigits_append, Nat.ofDigitChars_eq_ofDigitChars_zero, Nat.mul_comm]
  rfl

theorem ofDigits_lt (all : ∀ c ∈ cs, c.isDigit = true) : ofDigits cs < 10 ^ cs.length := by
  induction cs with
  | nil => simp [ofDigits]
  | cons c cs ih =>
      rw [List.forall_mem_cons] at all
      have digit : c.toNat - 48 ≤ 9 := by
        have := toNat_of_isDigit all.1
        omega
      calc ofDigits (c :: cs) = (c.toNat - 48) * 10 ^ cs.length + ofDigits cs := ofDigits_cons c cs
        _ < 9 * 10 ^ cs.length + 10 ^ cs.length :=
          Nat.add_lt_add_of_le_of_lt (Nat.mul_le_mul_right _ digit) (ih all.2)
        _ = 10 ^ (c :: cs).length := by rw [List.length_cons, pow_succ]; ring

/-- A number is at least the power of ten at its first digit. -/
theorem le_ofDigits (digit : c.isDigit = true) (some : c ≠ '0') :
    10 ^ cs.length ≤ ofDigits (c :: cs) := by
  have one : 1 ≤ c.toNat - 48 := by
    have := toNat_of_isDigit digit
    have : c.toNat ≠ 48 := fun same => some (Char.toNat_inj.mp same)
    omega
  rw [ofDigits_cons]
  exact (Nat.le_mul_of_pos_left _ one).trans (Nat.le_add_right _ _)

theorem eq_of_ofDigits_eq {xs ys : List Char} (length : xs.length = ys.length)
    (hx : ∀ c ∈ xs, c.isDigit = true) (hy : ∀ c ∈ ys, c.isDigit = true)
    (same : ofDigits xs = ofDigits ys) : xs = ys := by
  induction xs generalizing ys with
  | nil => exact (List.length_eq_zero_iff.mp length.symm).symm
  | cons c xs ih =>
      obtain ⟨d, ys, rfl⟩ := List.exists_cons_of_length_eq_add_one length.symm
      rw [List.forall_mem_cons] at hx hy
      have length : xs.length = ys.length := Nat.succ.inj length
      rw [ofDigits_cons, ofDigits_cons, length] at same
      have bound := ofDigits_lt hx.2
      have bound' := ofDigits_lt hy.2
      rw [length] at bound
      have first : c.toNat - 48 = d.toNat - 48 := by
        have quotient := congrArg (· / 10 ^ ys.length) same
        simpa [Nat.add_div_of_dvd_right, Nat.div_eq_of_lt bound,
          Nat.div_eq_of_lt bound'] using quotient
      have rest : ofDigits xs = ofDigits ys := by
        rw [first] at same
        exact Nat.add_left_cancel same
      have left := toNat_of_isDigit hx.1
      have right := toNat_of_isDigit hy.1
      rw [ih length hx.2 hy.2 rest, Char.toNat_inj.mp (by omega : c.toNat = d.toNat)]

theorem isDigit_of_mem_toDigits (n : Nat) : ∀ c ∈ Nat.toDigits 10 n, c.isDigit = true :=
  fun _ hc => Nat.isDigit_of_mem_toDigits (by decide) (by decide) hc

theorem head?_toDigits {n : Nat} (hn : n ≠ 0) : (Nat.toDigits 10 n).head? ≠ some '0' := by
  intro zero
  obtain ⟨cs, eq⟩ := List.head?_eq_some_iff.mp zero
  have value : ofDigits cs = n := by
    have whole := ofDigits_toDigits n
    rwa [eq, ofDigits_cons, show '0'.toNat - 48 = 0 from rfl, Nat.zero_mul, Nat.zero_add] at whole
  have below : n < 10 ^ cs.length := by
    rw [← value]
    exact ofDigits_lt fun c hc => isDigit_of_mem_toDigits n c (eq ▸ List.mem_cons_of_mem _ hc)
  rcases Nat.eq_zero_or_pos cs.length with none | some
  · rw [none] at below
    omega
  · have short := (Nat.length_toDigits_le_iff (by omega) some).mpr below
    rw [eq, List.length_cons] at short
    omega

end Numeral

open Numeral

/-- A number in positional notation: perhaps a sign, digits, and the digits of smaller places. -/
structure Positional where
  negative : Bool
  whole : List Char
  fraction : List Char
  deriving Repr, DecidableEq

namespace Positional

variable {p r : Positional}

def size (p : Positional) : ℚ := ofDigits (p.whole ++ p.fraction) / 10 ^ p.fraction.length

def value (p : Positional) : ℚ := if p.negative then -p.size else p.size

def chars (p : Positional) : List Char :=
  (if p.negative then ['-'] else []) ++ p.whole ++
    (if p.fraction = [] then [] else '.' :: p.fraction)

def text (p : Positional) : String := String.ofList p.chars

/-- Digits are shown, with one before the point at least. -/
structure Proper (p : Positional) : Prop where
  full : p.whole ≠ []
  whole : ∀ c ∈ p.whole, c.isDigit = true
  fraction : ∀ c ∈ p.fraction, c.isDigit = true

/-- Nothing is shown that could be left out: no zero in front of other digits, none at the end of
the places, and no sign of zero. -/
structure Reduced (p : Positional) : Prop extends Proper p where
  front : p.whole = ['0'] ∨ p.whole.head? ≠ some '0'
  last : p.fraction.getLast? ≠ some '0'
  sign : p.negative = true → p.value ≠ 0

theorem Proper.digits (h : p.Proper) : ∀ c ∈ p.whole ++ p.fraction, c.isDigit = true :=
  List.forall_mem_append.mpr ⟨h.whole, h.fraction⟩

theorem Proper.of_mem_chars (h : p.Proper) {c : Char} (hc : c ∈ p.chars) :
    p.negative = true ∧ c = '-' ∨ c.isDigit = true ∨ c = '.' := by
  rw [chars, List.mem_append, List.mem_append] at hc
  rcases hc with (sign | whole) | behind
  · split at sign
    · next minus => exact .inl ⟨minus, List.mem_singleton.mp sign⟩
    · cases sign
  · exact .inr (.inl (h.whole c whole))
  · split at behind
    · cases behind
    · rcases List.mem_cons.mp behind with point | digit
      · exact .inr (.inr point)
      · exact .inr (.inl (h.fraction c digit))

theorem size_nonneg (p : Positional) : 0 ≤ p.size := by
  unfold size
  positivity

theorem abs_value (p : Positional) : |p.value| = p.size := by
  unfold value
  split
  · rw [abs_neg, abs_of_nonneg p.size_nonneg]
  · exact abs_of_nonneg p.size_nonneg

theorem size_append_zeros (negative : Bool) (whole fraction : List Char) (k : Nat) :
    size ⟨negative, whole, fraction ++ List.replicate k '0'⟩ =
      size ⟨negative, whole, fraction⟩ := by
  unfold size
  rw [← List.append_assoc, ofDigits_append_zeros, List.length_append, List.length_replicate,
    pow_add]
  push_cast
  field_simp

theorem Proper.size_pos (h : p.Proper) (front : p.whole = ['0'] ∨ p.whole.head? ≠ some '0')
    (last : p.fraction.getLast? ≠ some '0') (shown : p.whole ≠ ['0'] ∨ p.fraction ≠ []) :
    0 < p.size := by
  refine div_pos (Nat.cast_pos.mpr ?_) (by positivity)
  rcases p.fraction.eq_nil_or_concat with none | ⟨row, final, eq⟩
  · obtain ⟨c, cs, eq⟩ := List.exists_cons_of_ne_nil h.full
    have first := front.resolve_left (shown.resolve_right (not_not.mpr none))
    rw [eq, List.head?_cons, Ne, Option.some.injEq] at first
    rw [none, List.append_nil, eq]
    exact (Nat.pow_pos (by omega)).trans_le (le_ofDigits (h.whole c (by simp [eq])) first)
  · rw [List.concat_eq_append] at eq
    have digit := h.fraction final (by simp [eq])
    rw [eq, List.getLast?_concat, Ne, Option.some.injEq] at last
    rw [eq, ← List.append_assoc, ofDigits_append_eq]
    have some : 10 ^ ([] : List Char).length ≤ ofDigits [final] := le_ofDigits digit last
    exact Nat.add_pos_right _ some

theorem Reduced.negative_of_value_eq (h : r.Reduced) (same : p.value = r.value)
    (minus : r.negative = true) : p.negative = true := by
  have below : r.value < 0 := by
    refine lt_of_le_of_ne ?_ (h.sign minus)
    rw [value, if_pos minus, neg_nonpos]
    exact r.size_nonneg
  by_contra plus
  rw [← same, value, if_neg plus] at below
  exact absurd p.size_nonneg (not_le.mpr below)

theorem ofDigits_eq_of_size_eq (same : p.size = r.size) :
    ofDigits (p.whole ++ p.fraction) * 10 ^ r.fraction.length =
      ofDigits (r.whole ++ r.fraction) * 10 ^ p.fraction.length := by
  unfold size at same
  rw [div_eq_div_iff (by positivity) (by positivity)] at same
  exact_mod_cast same

theorem Reduced.fraction_length_le (h : r.Reduced) (same : p.size = r.size) :
    r.fraction.length ≤ p.fraction.length := by
  by_contra longer
  obtain ⟨k, more⟩ := Nat.exists_eq_add_of_lt (not_le.mp longer)
  have numbers := ofDigits_eq_of_size_eq same
  have power : 10 ^ r.fraction.length = 10 ^ (k + 1) * 10 ^ p.fraction.length := by
    rw [more, ← pow_add]
    congr 1
    omega
  rw [power, ← Nat.mul_assoc] at numbers
  have numbers := Nat.eq_of_mul_eq_mul_right (Nat.pow_pos (by omega)) numbers
  rcases r.fraction.eq_nil_or_concat with none | ⟨front, last, eq⟩
  · rw [none] at more
    simp at more
  · rw [List.concat_eq_append] at eq
    have digit := toNat_of_isDigit (h.fraction last (by simp [eq]))
    have ten : ofDigits (r.whole ++ r.fraction) % 10 = last.toNat - 48 := by
      rw [eq, ← List.append_assoc, ofDigits_append_eq, List.length_singleton, ofDigits_cons]
      simp only [List.length_nil, pow_zero, pow_one, Nat.mul_one, ofDigits, Nat.ofDigitChars_nil]
      omega
    rw [← numbers, pow_succ, ← Nat.mul_assoc, Nat.mul_assoc, Nat.mul_comm (10 ^ k),
      ← Nat.mul_assoc, Nat.mul_assoc _ 10, Nat.mul_comm 10, ← Nat.mul_assoc, Nat.mul_mod_left]
      at ten
    have zero : last = '0' := Char.toNat_inj.mp (by change last.toNat = 48; omega)
    exact h.last (by simp [eq, zero])

/-- So are the digits before the point, if the first of them is no zero. -/
theorem Reduced.whole_length_le (h : r.Reduced) (hp : p.Proper) (same : p.size = r.size) :
    r.whole.length ≤ p.whole.length := by
  have some := List.length_pos_iff.mpr hp.full
  rcases h.front with zero | first
  · rw [zero]
    exact some
  · obtain ⟨c, cs, eq⟩ := List.exists_cons_of_ne_nil h.full
    rw [eq, List.head?_cons, Ne, Option.some.injEq] at first
    have digit := h.whole c (by simp [eq])
    have least : 10 ^ (cs.length + r.fraction.length) ≤ ofDigits (r.whole ++ r.fraction) := by
      rw [eq, List.cons_append, ← List.length_append]
      exact le_ofDigits digit first
    have most : ofDigits (p.whole ++ p.fraction) < 10 ^ (p.whole.length + p.fraction.length) := by
      rw [← List.length_append]
      exact ofDigits_lt hp.digits
    have powers : 10 ^ (cs.length + r.fraction.length + p.fraction.length) <
        10 ^ (p.whole.length + p.fraction.length + r.fraction.length) := by
      rw [pow_add, pow_add _ (p.whole.length + _)]
      calc 10 ^ (cs.length + r.fraction.length) * 10 ^ p.fraction.length
          ≤ ofDigits (r.whole ++ r.fraction) * 10 ^ p.fraction.length :=
            Nat.mul_le_mul_right _ least
        _ = ofDigits (p.whole ++ p.fraction) * 10 ^ r.fraction.length :=
            (ofDigits_eq_of_size_eq same).symm
        _ < 10 ^ (p.whole.length + p.fraction.length) * 10 ^ r.fraction.length :=
            Nat.mul_lt_mul_of_pos_right most (Nat.pow_pos (by omega))
    have := (Nat.pow_lt_pow_iff_right (by omega)).mp powers
    rw [eq, List.length_cons]
    omega

theorem length_chars (p : Positional) :
    p.chars.length = (if p.negative then 1 else 0) + p.whole.length +
      (if p.fraction = [] then 0 else p.fraction.length + 1) := by
  unfold chars
  rw [List.length_append, List.length_append]
  congr 1
  · congr 1
    split <;> rfl
  · split <;> rfl

/-- A reduced text is the shortest of its number, and the only one of its length. -/
theorem Reduced.shortest (h : r.Reduced) (hp : p.Proper) (same : p.value = r.value) :
    r.chars.length ≤ p.chars.length ∧ (p.chars.length = r.chars.length → p = r) := by
  have sizes : p.size = r.size := by rw [← p.abs_value, ← r.abs_value, same]
  have fractions := h.fraction_length_le sizes
  have wholes := h.whole_length_le hp sizes
  have signs := h.negative_of_value_eq same
  have sign : (if r.negative then 1 else 0) ≤ (if p.negative then 1 else 0) := by
    split
    · next minus => rw [if_pos (signs minus)]
    · omega
  have places : (if r.fraction = [] then 0 else r.fraction.length + 1) ≤
      (if p.fraction = [] then 0 else p.fraction.length + 1) := by
    split
    · omega
    · next some =>
        have := List.length_pos_iff.mpr some
        rw [if_neg (List.length_pos_iff.mp (by omega))]
        omega
  rw [length_chars, length_chars]
  refine ⟨by omega, fun length => ?_⟩
  have wholes : p.whole.length = r.whole.length := by omega
  have fractions : p.fraction.length = r.fraction.length := by
    have places : (if p.fraction = [] then 0 else p.fraction.length + 1) =
      (if r.fraction = [] then 0 else r.fraction.length + 1) := by omega
    by_cases none : p.fraction = [] <;> by_cases none' : r.fraction = [] <;>
      simp only [none, none', if_true, if_false, List.length_nil] at places ⊢ <;> omega
  have negative : p.negative = r.negative := by
    have sign : (if p.negative then 1 else 0) = (if r.negative then 1 else 0) := by omega
    cases hp : p.negative <;> cases hr : r.negative <;> simp [hp, hr] at sign ⊢
  have numbers : ofDigits (p.whole ++ p.fraction) = ofDigits (r.whole ++ r.fraction) := by
    have products := ofDigits_eq_of_size_eq sizes
    rw [fractions] at products
    exact Nat.eq_of_mul_eq_mul_right (Nat.pow_pos (by omega)) products
  have lengths : (p.whole ++ p.fraction).length = (r.whole ++ r.fraction).length := by
    rw [List.length_append, List.length_append, wholes, fractions]
  have rows := eq_of_ofDigits_eq lengths hp.digits h.digits numbers
  obtain ⟨whole, fraction⟩ := List.append_inj rows wholes
  cases p
  cases r
  simp_all

theorem Reduced.eq_of_value_eq (h : r.Reduced) (hp : p.Reduced) (same : p.value = r.value) :
    p = r :=
  (h.shortest hp.toProper same).2 <|
    le_antisymm (hp.shortest h.toProper same.symm).1 (h.shortest hp.toProper same).1

end Positional

end Reel
