import Reel.Proofs.Number.Format
import Reel.Proofs.Number.Signed

/-!
# Sums of decimals

Products and sums of finite decimals are rounded, which moves the leading digit by one place at
most. So as long as the leading digits stay well below the largest exponent, every step of a
computation with finite decimals has a finite result.
-/
namespace Reel.Decimal

open Rounding

variable {m n : Nat} {i j top : Int} {x y : Decimal}

/-- The number is finite and, signs aside, below a power of ten. -/
def Below (top : Int) : Decimal → Prop
  | .finite _ coefficient exponent => coefficient ≠ 0 → exponent + digitCount coefficient ≤ top
  | _ => False

theorem Below.mono (h : x.Below top) {higher : Int} (le : top ≤ higher) : x.Below higher := by
  cases x with
  | finite sign coefficient exponent => exact fun some => (h some).trans le
  | _ => exact h

theorem Below.exists_toRat? (h : x.Below top) : ∃ q, x.toRat? = some q := by
  cases x with
  | finite sign coefficient exponent => exact ⟨_, rfl⟩
  | _ => exact h.elim

theorem digitCount_mul_le (m n : Nat) : digitCount (m * n) ≤ digitCount m + digitCount n := by
  apply digitCount_le (by omega)
  · have := digitCount_pos m
    omega
  · rw [pow_add]
    exact Nat.mul_lt_mul'' (lt_pow_digitCount m) (lt_pow_digitCount n)

theorem digitCount_div_add_one (c : Nat) (several : 1 < digitCount c) :
    digitCount (c / 10) + 1 = digitCount c := by
  simp only [digitCount, digitCount_eq (b := 10) (by omega), Nat.log_div_base] at *
  omega

/-- Rounding adds one digit at most to those that are left. -/
theorem digitCount_shiftRight (tie : Tie) (c places : Nat) :
    (digitCount (shiftRight tie c places) : Int) ≤ max 1 ((digitCount c : Int) - places + 1) := by
  unfold shiftRight
  split
  · have none : digitCount 0 ≤ 1 := digitCount_le (by omega) (by omega) (by omega)
    omega
  · next near =>
      have power : 10 ^ digitCount c = 10 ^ (digitCount c - places) * 10 ^ places := by
        rw [← pow_add]
        congr 1
        omega
      have quotient : c / Nat.pow 10 places < 10 ^ (digitCount c - places) := by
        rw [Nat.pow_eq, Nat.div_lt_iff_lt_mul (Nat.pow_pos (by omega)), ← power]
        exact lt_pow_digitCount c
      have rounded : nearest tie c (Nat.pow 10 places) < 10 ^ (digitCount c - places + 1) := by
        rw [pow_succ]
        generalize 10 ^ (digitCount c - places) = bound at quotient
        have most : nearest tie c (Nat.pow 10 places) ≤ bound := by
          rcases nearest_eq_or tie c (Nat.pow 10 places) with eq | eq
          · exact eq.trans_le quotient.le
          · exact eq.trans_le quotient
        have := Nat.zero_lt_of_lt quotient
        omega
      have digits : digitCount (nearest tie c (Nat.pow 10 places)) ≤ digitCount c - places + 1 :=
        digitCount_le (by omega) (by omega) rounded
      omega

/-- Cutting a digit off what has one too many does not move the leading digit. -/
theorem cut_reach {c : Nat} {e : Int} (reach : e + digitCount c ≤ top) :
    (if precision < digitCount c then (c / 10, e + 1) else (c, e)).2 +
      digitCount (if precision < digitCount c then (c / 10, e + 1) else (c, e)).1 ≤ top := by
  split
  · next long =>
      have := digitCount_div_add_one c (by unfold precision at long; omega)
      dsimp only
      omega
  · exact reach

theorem fit_below (sign : Bool) (h : m ≠ 0 → i + digitCount m ≤ top)
    (low : bottomExponent ≤ top) (high : top ≤ topExponent) :
    ∃ d, fit sign m i = .ok d ∧ d.Below (top + 1) := by
  have given (c : Nat) (e : Int) (reach : e + digitCount c ≤ top + 1) :
      ∃ d : Decimal, (if topExponent < e + digitCount c - 1 then Except.error Signal.overflow
        else .ok (finite sign c e)) = .ok d ∧ d.Below (top + 1) := by
    rw [if_neg (by omega)]
    exact ⟨_, rfl, fun _ => reach⟩
  unfold fit
  split
  · exact ⟨_, rfl, fun some => (some rfl).elim⟩
  · next some =>
      have reach := h some
      dsimp only
      split
      · have digits := digitCount_shiftRight .toEven m
          (max (i + digitCount m - precision) bottomExponent - i).toNat
        refine given _ _ (cut_reach ?_)
        dsimp only
        omega
      · have near : i + digitCount m ≤ top + 1 := by omega
        exact given _ _ (cut_reach near)

theorem mul_below {high low : Int} (hx : x.Below low) (hy : y.Below high)
    (bottom : bottomExponent ≤ low + high) (top : low + high ≤ topExponent) :
    ∃ d, x.mul y = .ok d ∧ d.Below (low + high + 1) := by
  cases x with
  | finite a m i =>
      cases y with
      | finite b n j =>
          refine fit_below (a != b) (fun some => ?_) bottom top
          have few := digitCount_mul_le m n
          have first := hx (Nat.ne_zero_of_mul_ne_zero_left some)
          have second := hy (Nat.ne_zero_of_mul_ne_zero_right some)
          omega
      | _ => exact hy.elim
  | _ => exact hx.elim

theorem natAbs_aligned (sign : Bool) (m : Nat) (i place : Int) :
    (aligned sign m i place).natAbs = m * 10 ^ (i - place).toNat := by
  unfold aligned
  rw [withZeros_eq, Nat.pow_eq]
  split
  · rw [Int.natAbs_neg, Int.natAbs_natCast]
  · rw [Int.natAbs_natCast]

theorem aligned_lt (sign : Bool) {place : Int} (h : m ≠ 0 → i + digitCount m ≤ top)
    (le : place ≤ i) : (aligned sign m i place).natAbs < 10 ^ (top - place).toNat := by
  rw [natAbs_aligned]
  rcases eq_or_ne m 0 with rfl | some
  · rw [Nat.zero_mul]
    exact Nat.pow_pos (by omega)
  · have reach := h some
    calc m * 10 ^ (i - place).toNat
        < 10 ^ digitCount m * 10 ^ (i - place).toNat :=
          Nat.mul_lt_mul_of_pos_right (lt_pow_digitCount m) (Nat.pow_pos (by omega))
      _ = 10 ^ (digitCount m + (i - place).toNat) := (pow_add ..).symm
      _ ≤ 10 ^ (top - place).toNat := Nat.pow_le_pow_right (by omega) (by omega)

theorem addAligned_below (a b : Bool) (hm : m ≠ 0 → i + digitCount m ≤ top)
    (hn : n ≠ 0 → j + digitCount n ≤ top) (low : bottomExponent ≤ top + 1)
    (high : top + 1 ≤ topExponent) :
    ∃ d, addAligned a m i b n j = .ok d ∧ d.Below (top + 2) := by
  have first := aligned_lt a hm (min_le_left i j)
  have second := aligned_lt b hn (min_le_right i j)
  have reach : min i j ≤ i ∧ min i j ≤ j := ⟨min_le_left i j, min_le_right i j⟩
  unfold addAligned
  dsimp only
  generalize min i j = place at *
  have sum := Int.natAbs_add_le (aligned a m i place) (aligned b n j place)
  have wide : top + 2 = top + 1 + 1 := by ring
  rw [wide]
  refine fit_below _ (fun some => ?_) low high
  have full : place < top := by
    have either : m ≠ 0 ∨ n ≠ 0 := by
      by_contra none
      push Not at none
      rw [none.1, none.2] at some
      exact some (by simp [aligned, withZeros])
    rcases either with first | second
    · have := hm first
      have := digitCount_pos m
      omega
    · have := hn second
      have := digitCount_pos n
      omega
  have digits : digitCount (aligned a m i place + aligned b n j place).natAbs ≤
      (top - place).toNat + 1 := by
    refine digitCount_le (by omega) (by omega) ?_
    rw [pow_succ]
    omega
  omega

theorem addFinite_below (a b : Bool) (hm : m ≠ 0 → i + digitCount m ≤ top)
    (hn : n ≠ 0 → j + digitCount n ≤ top) (low : bottomExponent ≤ top + 1)
    (high : top + 1 ≤ topExponent) :
    ∃ d, addFinite a m i b n j = .ok d ∧ d.Below (top + 2) := by
  have unit : digitCount 1 ≤ 1 := digitCount_le (by omega) (by omega) (by omega)
  have zero (e : Int) : (0 : Nat) ≠ 0 → e + digitCount 0 ≤ top := fun some => (some rfl).elim
  have := digitCount_pos m
  have := digitCount_pos n
  unfold addFinite
  split
  · exact addAligned_below a b (zero _) hn low high
  split
  · exact addAligned_below a b hm (zero _) low high
  next some some' =>
    have first := hm some
    have second := hn some'
    split
    · dsimp only
      split
      · exact addAligned_below a b hm (fun _ => by omega) low high
      · exact addAligned_below a b hm hn low high
    · dsimp only
      split
      · exact addAligned_below a b (fun _ => by omega) hn low high
      · exact addAligned_below a b hm hn low high

theorem add_below (hx : x.Below top) (hy : y.Below top) (low : bottomExponent ≤ top + 1)
    (high : top + 1 ≤ topExponent) : ∃ d, x.add y = .ok d ∧ d.Below (top + 2) := by
  cases x with
  | finite a m i =>
      cases y with
      | finite b n j => exact addFinite_below a b hx hy low high
      | _ => exact hy.elim
  | _ => exact hx.elim

end Reel.Decimal
