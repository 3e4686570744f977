import Reel.Proofs.Number.Places

/-!
# Reading numbers back from their texts

The text of a decimal shows its coefficient and its exponent, so the decimal is read back from it.
The text of a whole number is read as that number, and the text of a double as the shortest
decimal that goes back to it.
-/
namespace Reel

namespace Decimal

variable {body digits rest : List Char} {n c : Nat} {e : Int}

def Unsigned (body : List Char) : Prop := ∃ d ∈ body.head?, d.isDigit = true

theorem read?_signed (digit : Unsigned body) (negative : Bool) :
    read? (signed negative body) =
      (read? (String.ofList body)).map fun d => if negative then d.neg else d := by
  obtain ⟨d, front, digit⟩ := digit
  obtain ⟨ds, rfl⟩ := List.head?_eq_some_iff.mp front
  cases negative with
  | false => exact Option.map_id'.symm
  | true => exact read?_minus digit ds

theorem unsigned_digits (full : digits ≠ []) (all : ∀ d ∈ digits, d.isDigit = true)
    (rest : List Char) : Unsigned (digits ++ rest) := by
  obtain ⟨d, ds, rfl⟩ := List.exists_cons_of_ne_nil full
  exact ⟨d, rfl, all d (List.mem_cons_self ..)⟩

theorem unsigned_pointed (full : digits ≠ []) (all : ∀ d ∈ digits, d.isDigit = true)
    (places : Nat) (rest : List Char) : Unsigned (pointed digits places ++ rest) := by
  by_cases none : places = 0
  · rw [pointed, if_pos none]
    exact unsigned_digits full all rest
  · obtain ⟨whole, fraction, eq, front, -, padded⟩ := pointed_eq digits none
    have both := isDigit_of_mem_zeros_append all (places + 1 - digits.length)
    rw [← padded, List.forall_mem_append] at both
    rw [eq, List.append_assoc]
    exact unsigned_digits front both.1 _

theorem read?_text (negative : Bool) (fits : InReach c e) :
    read? (finite negative c e).text = some (.finite negative c e) := by
  have full : Nat.toDigits 10 c ≠ [] := Nat.toDigits_ne_nil
  have all := Numeral.isDigit_of_mem_toDigits c
  have value : Numeral.ofDigits (Nat.toDigits 10 c) = c := Numeral.ofDigits_toDigits c
  have some := List.length_pos_iff.mpr full
  rw [text]
  generalize Nat.toDigits 10 c = digits at *
  subst value
  split
  · next near =>
      rw [Bool.and_eq_true, decide_eq_true_eq, decide_eq_true_eq] at near
      have unsigned := unsigned_pointed full all (-e).toNat []
      rw [List.append_nil] at unsigned
      have places : -((-e).toNat : Int) = e := by omega
      rw [read?_signed unsigned, read?_ofList_pointed full all _ (by rwa [places]), places]
      cases negative <;> rfl
  · let top := e + digits.length - 1
    have shown : Numeral.readExponent? ('E' :: (if decide (top < 0) then '-' else '+') ::
        Nat.toDigits 10 top.natAbs) = .some top := by
      rw [Numeral.readExponent?_signed (.inr rfl) (decide (top < 0)) Nat.toDigits_ne_nil
        (Numeral.isDigit_of_mem_toDigits _), Numeral.ofDigits_toDigits]
      simp only [decide_eq_true_eq, Option.some.injEq]
      split <;> omega
    have plain : ∀ d ∈ 'E' :: (if decide (top < 0) then '-' else '+') ::
        Nat.toDigits 10 top.natAbs, isNumeralChar d = true := by
      rw [List.forall_mem_cons, List.forall_mem_cons]
      refine ⟨by decide, ?_, forall_isNumeralChar (Numeral.isDigit_of_mem_toDigits _)⟩
      split <;> decide
    have place : top - (digits.length - 1 : ℕ) = e := by
      simp only [top]
      omega
    have read := read?_pointed_append full all (digits.length - 1)
      (by simp [Numeral.Stops]) plain (by simp) shown (by rwa [place])
    rw [place] at read
    rw [List.append_assoc, List.cons_append, List.cons_append, List.nil_append,
      read?_signed (unsigned_pointed full all _ _)]
    simp only [top, decide_eq_true_eq] at read
    rw [read]
    cases negative <;> rfl

theorem toRat?_ofInt (n : Int) : (ofInt n).toRat? = some (n : ℚ) := by
  rw [ofInt, toRat?_finite, zpow_zero, mul_one, Nat.cast_natAbs]
  rcases lt_or_ge n 0 with below | above
  · simp [below, abs_of_neg below]
  · simp [not_lt.mpr above, abs_of_nonneg above]

theorem toString_eq_signed (n : Int) :
    toString n = signed (decide (n < 0)) (Nat.toDigits 10 n.natAbs) := by
  cases n with
  | ofNat m => rfl
  | negSucc m =>
      change "-" ++ String.ofList (Nat.toDigits 10 (m + 1)) = _
      rw [decide_eq_true (Int.negSucc_lt_zero m), show "-" = String.ofList ['-'] from rfl,
        ← String.ofList_append]
      rfl

theorem read?_int {n : Int} (short : n.natAbs < 10 ^ Numeral.wholeDigitLimit) :
    read? (toString n) = some (.ofInt n) := by
  have unsigned := unsigned_digits (Nat.toDigits_ne_nil (n := n.natAbs) (b := 10))
    (Numeral.isDigit_of_mem_toDigits _) []
  have fits : InReach (Numeral.ofDigits (Nat.toDigits 10 n.natAbs)) 0 := by
    rw [Numeral.ofDigits_toDigits]
    exact inReach_of_lt (by decide) short (by decide) (by decide)
  rw [List.append_nil] at unsigned
  rw [toString_eq_signed, read?_signed unsigned, read?_digits Nat.toDigits_ne_nil
    (Numeral.isDigit_of_mem_toDigits _) fits, Numeral.ofDigits_toDigits, ofInt]
  cases decide (n < 0) <;> rfl

end Decimal

end Reel
