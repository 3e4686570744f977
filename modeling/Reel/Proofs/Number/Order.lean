import Mathlib
import Reel.Seconds

/-!
# The order of doubles

Every double but the not-a-number has a place on the rational line with an end on either side,
and doubles compare as their places do. The not-a-number compares with nothing. So the greater
of two numbers depends on their order only where one of them is the not-a-number, and then it is
the first.
-/
namespace Reel.Double

variable {x y z : Double}

/-- The place of a number on the line: the finite numbers lie between the two ends. -/
def place? : Double → Option (Int ×ₗ Rat)
  | .nan => none
  | .infinite true => some (toLex (-1, 0))
  | .infinite false => some (toLex (1, 0))
  | .negZero => some (toLex (0, 0))
  | .finite value => some (toLex (0, value))

theorem place?_eq_none_iff : x.place? = none ↔ x.isNaN = true := by
  cases x with
  | infinite negative => cases negative <;> simp [place?, isNaN]
  | _ => simp [place?, isNaN]

theorem exists_place (h : x.isNaN = false) : ∃ a, x.place? = some a := by
  refine Option.ne_none_iff_exists'.mp fun none => ?_
  rw [place?_eq_none_iff, h] at none
  cases none

theorem lt_iff : Seconds.lt x y = true ↔
    ∃ a b, x.place? = some a ∧ y.place? = some b ∧ a < b := by
  rcases x with _ | (_ | _) | _ | a <;> rcases y with _ | (_ | _) | _ | b <;>
    simp [Seconds.lt, Double.lt, place?, Prod.Lex.toLex_lt_toLex]

theorem le_iff : Seconds.le x y = true ↔
    ∃ a b, x.place? = some a ∧ y.place? = some b ∧ a ≤ b := by
  rcases x with _ | (_ | _) | _ | a <;> rcases y with _ | (_ | _) | _ | b <;>
    simp [Seconds.le, Double.lt, Double.eq, toRat?, place?, Prod.Lex.toLex_lt_toLex,
      le_iff_lt_or_eq]

theorem isNaN_of_le (h : Seconds.le x y = true) : x.isNaN = false ∧ y.isNaN = false := by
  obtain ⟨a, b, hx, hy, -⟩ := le_iff.mp h
  constructor
  · exact Bool.eq_false_iff.mpr fun nan => by simp [place?_eq_none_iff.mpr nan] at hx
  · exact Bool.eq_false_iff.mpr fun nan => by simp [place?_eq_none_iff.mpr nan] at hy

theorem le_of_lt (h : Seconds.lt x y = true) : Seconds.le x y = true := by
  obtain ⟨a, b, hx, hy, hab⟩ := lt_iff.mp h
  exact le_iff.mpr ⟨a, b, hx, hy, hab.le⟩

theorem isNaN_of_lt (h : Seconds.lt x y = true) : x.isNaN = false ∧ y.isNaN = false :=
  isNaN_of_le (le_of_lt h)

theorem lt_of_lt_of_le (h : Seconds.lt x y = true) (k : Seconds.le y z = true) :
    Seconds.lt x z = true := by
  obtain ⟨a, b, hx, hy, hab⟩ := lt_iff.mp h
  obtain ⟨c, d, hy', hz, hcd⟩ := le_iff.mp k
  obtain rfl := Option.some.inj (hy.symm.trans hy')
  exact lt_iff.mpr ⟨a, d, hx, hz, hab.trans_le hcd⟩

theorem le_refl (h : x.isNaN = false) : Seconds.le x x = true := by
  obtain ⟨a, ha⟩ := exists_place h
  exact le_iff.mpr ⟨a, a, ha, ha, le_rfl⟩

theorem not_le_of_lt (h : Seconds.lt x y = true) : Seconds.le y x = false := by
  obtain ⟨a, b, hx, hy, hab⟩ := lt_iff.mp h
  refine Bool.eq_false_iff.mpr fun le => ?_
  obtain ⟨c, d, hy', hx', hcd⟩ := le_iff.mp le
  obtain rfl := Option.some.inj (hx.symm.trans hx')
  obtain rfl := Option.some.inj (hy.symm.trans hy')
  exact absurd hcd hab.not_ge

theorem lt_of_not_le (hx : x.isNaN = false) (hy : y.isNaN = false)
    (h : Seconds.le y x = false) : Seconds.lt x y = true := by
  obtain ⟨a, ha⟩ := exists_place hx
  obtain ⟨b, hb⟩ := exists_place hy
  refine lt_iff.mpr ⟨a, b, ha, hb, ?_⟩
  by_contra ge
  exact Bool.eq_false_iff.mp h (le_iff.mpr ⟨b, a, hb, ha, not_lt.mp ge⟩)

/-- The greater number is at least the first, unless that is the not-a-number. -/
theorem le_max (h : x.isNaN = false) (y : Double) : Seconds.le x (Seconds.max x y) = true := by
  unfold Seconds.max
  split
  · next lt => exact le_of_lt lt
  · exact le_refl h

/-- What is below the first number is below the greater one, whatever the second is. -/
theorem lt_max (h : Seconds.lt x y = true) (z : Double) :
    Seconds.lt x (Seconds.max y z) = true :=
  lt_of_lt_of_le h (le_max (isNaN_of_lt h).2 z)

end Reel.Double
