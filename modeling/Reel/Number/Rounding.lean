/-!
# Rounding a quotient of naturals

The one place where a number loses accuracy: a quotient goes to the nearest whole number, and a
tie goes where the caller says. The two bounds say that the result is at most half a unit away.
Numbers with an exponent become quotients here as well.
-/
namespace Reel.Rounding

/-- Where a quotient halfway between two whole numbers goes. -/
inductive Tie where
  | toEven
  | awayFromZero
  deriving Repr, DecidableEq

/-- The whole number nearest to `n / d`, for positive `d`. -/
def nearest (tie : Tie) (n d : Nat) : Nat :=
  let quotient := n / d
  let twice := 2 * (n % d)
  if twice < d then quotient
  else if d < twice then quotient + 1
  else match tie with
    | .toEven => quotient + quotient % 2
    | .awayFromZero => quotient + 1

theorem two_mul_nearest_le (tie : Tie) (n : Nat) {d : Nat} (hd : 0 < d) :
    2 * (nearest tie n d * d) ≤ 2 * n + d := by
  have split := Nat.div_add_mod n d
  have short := Nat.mod_lt n hd
  have commute : n / d * d = d * (n / d) := Nat.mul_comm _ _
  unfold nearest
  dsimp only
  generalize n / d = q at *
  generalize n % d = r at *
  split
  · omega
  · split
    · rw [Nat.add_mul]; omega
    · cases tie
      · have : (q + q % 2) * d ≤ (q + 1) * d := Nat.mul_le_mul_right d (by omega)
        rw [Nat.add_mul q 1] at this
        dsimp only
        omega
      · dsimp only
        rw [Nat.add_mul]
        omega

theorem two_mul_le_nearest (tie : Tie) (n : Nat) {d : Nat} (hd : 0 < d) :
    2 * n ≤ 2 * (nearest tie n d * d) + d := by
  have split := Nat.div_add_mod n d
  have short := Nat.mod_lt n hd
  have commute : n / d * d = d * (n / d) := Nat.mul_comm _ _
  unfold nearest
  dsimp only
  generalize n / d = q at *
  generalize n % d = r at *
  split
  · omega
  · split
    · rw [Nat.add_mul]; omega
    · cases tie
      · have : q * d ≤ (q + q % 2) * d := Nat.mul_le_mul_right d (by omega)
        dsimp only
        omega
      · dsimp only
        rw [Nat.add_mul]
        omega

def scaled (base m : Nat) (e : Int) : Rat :=
  mkRat ((m * Nat.pow base e.toNat : Nat) : Int) (Nat.pow base (-e).toNat)

/-- How many digits the number has in the given base; zero has one. -/
def digitCount (base n : Nat) : Nat :=
  if h : base < 2 ∨ n < base then 1 else digitCount base (n / base) + 1
termination_by n
decreasing_by exact Nat.div_lt_self (by omega) (by omega)

/-- The greatest exponent whose power of the base is at most `n / d`, for positive `n` and `d`. -/
def magnitude (base n d : Nat) : Int :=
  let guess : Int := (digitCount base n : Int) - digitCount base d
  if n * Nat.pow base (-guess).toNat < d * Nat.pow base guess.toNat then guess - 1 else guess

end Reel.Rounding
