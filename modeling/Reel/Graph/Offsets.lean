import Reel.Seconds

/-!
# Where cross-fades start

The fade into a segment starts one transition before the end of the segments that precede it,
and never before zero.
-/
namespace Reel

variable {α : Type} [Seconds α]

/-- The starts of the fades behind segments that begin at a running total. -/
def offsetsFrom (transition total : α) : List α → List α
  | [] => []
  | [_] => []
  | duration :: rest =>
    let total := Seconds.add total duration
    Seconds.max Seconds.zero (Seconds.sub total transition) :: offsetsFrom transition total rest

/-- The start of each cross-fade over segments of the given durations. -/
def crossfadeOffsets (durations : List α) (transition : α) : List α :=
  offsetsFrom transition Seconds.zero durations

theorem length_offsetsFrom (transition : α) (durations : List α) (total : α) :
    (offsetsFrom transition total durations).length = durations.length - 1 := by
  induction durations generalizing total with
  | nil => rfl
  | cons d rest ih =>
    cases rest with
    | nil => rfl
    | cons e rest =>
      rw [offsetsFrom, List.length_cons, ih]
      · simp
      · simp

theorem length_crossfadeOffsets (durations : List α) (transition : α) :
    (crossfadeOffsets durations transition).length = durations.length - 1 :=
  length_offsetsFrom transition durations Seconds.zero

/-- The starts of the fades for durations of any kind. Several segments need numbers, the
transition among them. -/
def crossfadeOffsetsOfValues (durations transition : Value) : Except Error (List Double) := do
  go .zero (← durations.toItems)
where
  go (total : Double) : List Value → Except Error (List Double)
    | [] => .ok []
    | [_] => .ok []
    | duration :: rest => do
      let total := total.add (← duration.toTerm "+=")
      let start := Seconds.max Double.zero (total.sub (← transition.toTerm "-"))
      return start :: (← go total rest)

end Reel
