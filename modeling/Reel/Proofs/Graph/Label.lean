import Mathlib
import Reel.Graph.Label

/-!
# Labels are told apart by their texts

The stem of a kind is made of letters, and the index behind it has none. So the letters at the
beginning of a label's text are its stem and the rest is its index, and no two labels that an
allocator issues for numbers have one text unless they are of one kind and one index.
-/
namespace Reel

namespace LabelKind

theorem stem_isAlpha (kind : LabelKind) : ∀ c ∈ kind.stem.toList, c.isAlpha := by
  have h : ∀ k ∈ all, k.stem.toList.all Char.isAlpha := by decide
  exact List.all_eq_true.mp (h kind (mem_all kind))

theorem stem_injective : Function.Injective stem := by
  have h : ∀ k ∈ all, ∀ m ∈ all, k.stem = m.stem → k = m := by decide
  exact fun k m => h k (mem_all k) m (mem_all m)

end LabelKind

/-- An index as it is written behind a stem; an absent one is not written. -/
def writtenIndex (index : Option Int) : String := (index.map toString).getD ""

theorem isAlpha_eq_false_of_mem_toString (i : Int) :
    ∀ c ∈ (toString i).toList, c.isAlpha = false := by
  have digits (n : Nat) : ∀ c ∈ n.repr.toList, c.isAlpha = false := by
    intro c hc
    rw [Nat.toList_repr] at hc
    have digit := Nat.isDigit_of_mem_toDigits (by decide) (by decide) hc
    simp only [Char.isDigit, Char.isAlpha, Char.isUpper, Char.isLower, Bool.and_eq_true,
      decide_eq_true_eq, Bool.or_eq_false_iff, Bool.and_eq_false_iff, decide_eq_false_iff_not]
      at digit ⊢
    grind
  intro c hc
  rw [Int.toString_eq_repr, Int.repr_eq_if] at hc
  split at hc
  · exact digits _ c hc
  · rw [String.toList_append, List.mem_append] at hc
    rcases hc with hc | hc
    · have : c = '-' := by simpa using hc
      subst this
      decide
    · exact digits _ c hc

theorem isAlpha_eq_false_of_mem_written (index : Option Int) :
    ∀ c ∈ (writtenIndex index).toList, c.isAlpha = false := by
  cases index with
  | none => simp [writtenIndex]
  | some i => simpa [writtenIndex] using isAlpha_eq_false_of_mem_toString i

theorem writtenIndex_injective : Function.Injective writtenIndex := by
  have written (i : Int) : toString i ≠ "" := by
    rw [Int.toString_eq_repr, Int.repr_eq_if]
    split
    · exact Nat.repr_ne_empty
    · simp
  intro i j h
  cases i with
  | none =>
      cases j with
      | none => rfl
      | some j => exact (written j h.symm).elim
  | some i =>
      cases j with
      | none => exact (written i h).elim
      | some j => exact congrArg some (Int.repr_injective h)

namespace Label

theorem textOf_map (kind : LabelKind) (index : Option Int) :
    textOf kind (index.map toString) = kind.stem ++ writtenIndex index := by
  cases index <;> simp [textOf, writtenIndex]

theorem textOf_inj {kind other : LabelKind} {index second : Option Int} :
    textOf kind (index.map toString) = textOf other (second.map toString) ↔
      kind = other ∧ index = second := by
  refine ⟨fun h => ?_, fun ⟨hk, hi⟩ => hk ▸ hi ▸ rfl⟩
  have letters (k : LabelKind) (i : Option Int) :
      (k.stem ++ writtenIndex i).toList.takeWhile Char.isAlpha = k.stem.toList := by
    rw [String.toList_append, List.takeWhile_append_of_pos k.stem_isAlpha,
      List.takeWhile_eq_nil_iff.mpr, List.append_nil]
    intro hpos
    simpa using isAlpha_eq_false_of_mem_written i _ (List.getElem_mem hpos)
  rw [textOf_map, textOf_map] at h
  have stems : kind.stem.toList = other.stem.toList := by
    rw [← letters kind index, ← letters other second, h]
  have hk : kind = other := LabelKind.stem_injective (String.toList_inj.mp stems)
  subst hk
  exact ⟨rfl, writtenIndex_injective ((String.append_right_inj _).mp h)⟩

/-- A label as one is issued: counted by a whole number exactly if its kind is counted. -/
def Regular (l : Label) : Prop :=
  ∃ index : Option Int, l.index = index.map toString ∧ index.isSome = l.kind.isIndexed

/-- Regular labels of one text are of one kind and one index. -/
theorem Regular.eq_of_text {l m : Label} (hl : l.Regular) (hm : m.Regular)
    (h : l.text = m.text) : l.kind = m.kind ∧ l.index = m.index := by
  obtain ⟨i, hi, -⟩ := hl
  obtain ⟨j, hj, -⟩ := hm
  rw [text, text, hi, hj, textOf_inj] at h
  exact ⟨h.1, by rw [hi, hj, h.2]⟩

end Label

/-- An allocator looks at the index first and at the texts of its labels then. -/
theorem Allocator.issue_eq (a : Allocator) (kind : LabelKind) (index : Option Int) :
    a.issue kind index =
      if index.isSome = kind.isIndexed then
        if Label.textOf kind (index.map toString) ∈ a.issued.map Label.text then
          .error (.labelRepeated (Label.textOf kind (index.map toString)))
        else
          .ok (⟨kind, index.map toString, a.issued.length⟩,
            { issued := a.issued ++ [⟨kind, index.map toString, a.issued.length⟩] })
      else if kind.isIndexed then .error (.labelNeedsIndex kind.name)
      else .error (.labelTakesNoIndex kind.name) := by
  unfold issue issueText
  cases index <;> cases kind.isIndexed <;> simp [Label.text]

end Reel
