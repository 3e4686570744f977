import Mathlib.Algebra.Group.Nat.Defs
import Reel.Environment
import Reel.Proofs.Yields
import Reel.Timecode

/-!
# Values that are read

A value that cannot be taken as a text, a path or a number stops with an error that says so, and
never as a defect or a rejection.
-/
namespace Reel

theorem isLegible_small {n : Int} (small : n.natAbs ≤ 2 ^ 41) :
    (Value.int n).isLegible = true := by
  have digits : 13 ≤ Numeral.wholeDigitLimit := by decide
  rw [Value.isLegible, decide_eq_true_iff, Nat.pow_eq]
  generalize Numeral.wholeDigitLimit = limit at *
  calc n.natAbs ≤ 2 ^ 41 := small
    _ < 10 ^ 13 := by decide
    _ ≤ 10 ^ limit := Nat.pow_le_pow_right (by decide) digits

theorem Value.toText_int {n : Int} (legible : (Value.int n).isLegible = true) :
    (Value.int n).toText = .ok (toString n) := by
  rw [Value.toText, if_pos legible]
  simp [Value.shown, Value.quoted, Value.quotedChars]

theorem toText_yields (v : Value) : Yields Error.IsPlain v.toText fun _ => True := by
  unfold Value.toText
  split
  · exact .ok trivial
  · exact .error trivial

/-- What is answered from outside the program is no error of its own. -/
theorem Foreign.ofAnswer_yields {α : Type} (answer : Except Foreign α) :
    Yields Error.IsPlain (ofAnswer answer) fun _ => True := by
  cases answer with
  | ok x => exact .ok trivial
  | error fault => exact .error trivial

theorem Files.expandHome_yields [Environment] (path : String) :
    Yields Error.IsPlain (expandHome path) fun _ => True := by
  unfold expandHome
  split
  · dsimp only
    split
    · exact .error trivial
    · refine (Foreign.ofAnswer_yields _).bind fun home _ => ?_
      split <;> exact .ok trivial
  · exact .ok trivial

theorem toWhole_yields (v : Value) : Yields Error.IsPlain v.toWhole fun _ => True := by
  have read (given : Value) (n : Option Int) :
      Yields Error.IsPlain (Value.toWhole.readWhole given n) fun _ => True := by
    cases n with
    | some n => exact .ok trivial
    | none => exact .error trivial
  unfold Value.toWhole
  split <;> try split
  all_goals first
    | exact .ok trivial
    | exact .error trivial
    | exact read _ _

theorem toPath_yields (v : Value) : Yields Error.IsPlain v.toPath fun _ => True := by
  unfold Value.toPath
  split
  · exact .ok trivial
  · exact .error trivial
  · exact .error trivial

theorem ofSignal_yields {α : Type} (r : Except Decimal.Signal α) :
    Yields Error.IsPlain (Value.ofSignal r) fun _ => True := by
  cases r with
  | ok x => exact .ok trivial
  | error signal => exact .error trivial

theorem isAtMostZero_yields (v : Value) : Yields Error.IsPlain v.isAtMostZero fun _ => True := by
  unfold Value.isAtMostZero
  split
  · exact .ok trivial
  · exact .ok trivial
  · exact .ok trivial
  · exact (ofSignal_yields _).map
  · exact .error trivial

theorem formatDecimal_yields (d : Decimal) :
    Yields Error.IsPlain (Timecode.formatDecimal d) fun _ => True :=
  (ofSignal_yields (d.quantize 6)).bind fun _ _ => .ok trivial

theorem format_yields (v : Value) : Yields Error.IsPlain (Timecode.format v) fun _ => True := by
  refine (toText_yields v).bind fun text _ => ?_
  split
  · exact formatDecimal_yields _
  · exact .error trivial

end Reel
