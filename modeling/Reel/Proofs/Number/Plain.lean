import Mathlib
import Reel.Proofs.Yields
import Reel.Seconds

/-!
# Numbers are written in plain characters

A whole number, and a number of seconds of any size, is written with letters, digits, a point and
a sign. None of these is a mark of a filter graph.
-/
namespace Reel

def isPlainChar (c : Char) : Bool := c.isAlphanum || ['.', '-', '_'].contains c

def IsPlainText (s : String) : Prop := ∀ c ∈ s.toList, isPlainChar c = true

instance (s : String) : Decidable (IsPlainText s) :=
  decidable_of_iff (s.toList.all isPlainChar = true) List.all_eq_true

theorem IsPlainText.append {s t : String} (hs : IsPlainText s) (ht : IsPlainText t) :
    IsPlainText (s ++ t) := by
  intro c hc
  rw [String.toList_append, List.mem_append] at hc
  exact hc.elim (hs c) (ht c)

theorem isPlainChar_of_mem_toDigits {n : Nat} {c : Char} (h : c ∈ Nat.toDigits 10 n) :
    isPlainChar c = true := by
  have digit := Nat.isDigit_of_mem_toDigits (by decide) (by decide) h
  simp [isPlainChar, Char.isAlphanum, digit]

theorem isPlainText_repr (n : Nat) : IsPlainText n.repr := by
  intro c hc
  rw [Nat.toList_repr] at hc
  exact isPlainChar_of_mem_toDigits hc

theorem isPlainText_toString (i : Int) : IsPlainText (toString i) := by
  rw [Int.toString_eq_repr, Int.repr_eq_if]
  split
  · exact isPlainText_repr _
  · have sign : IsPlainText "-" := by decide
    exact sign.append (isPlainText_repr _)

namespace Decimal

theorem isPlainText_signed {body : List Char} (h : ∀ c ∈ body, isPlainChar c = true)
    (negative : Bool) : IsPlainText (signed negative body) := by
  intro c hc
  unfold signed at hc
  rw [String.toList_ofList] at hc
  split at hc
  · rcases List.mem_cons.mp hc with rfl | hc
    · decide
    · exact h c hc
  · exact h c hc

theorem isPlainChar_of_mem_pointed {digits : List Char}
    (h : ∀ c ∈ digits, isPlainChar c = true) (places : Nat) :
    ∀ c ∈ pointed digits places, isPlainChar c = true := by
  have padded : ∀ c ∈ List.replicate (places + 1 - digits.length) '0' ++ digits,
      isPlainChar c = true := by
    intro c hc
    rcases List.mem_append.mp hc with hc | hc
    · rw [List.eq_of_mem_replicate hc]
      decide
    · exact h c hc
  intro c hc
  unfold pointed at hc
  split at hc
  · exact h c hc
  · rcases List.mem_append.mp hc with hc | hc
    · exact padded c (List.mem_of_mem_take hc)
    · rcases List.mem_cons.mp hc with rfl | hc
      · decide
      · exact padded c (List.mem_of_mem_drop hc)

theorem isPlainText_plainText (d : Decimal) : IsPlainText d.plainText := by
  cases d with
  | finite negative coefficient exponent =>
      refine isPlainText_signed (isPlainChar_of_mem_pointed (fun c hc => ?_) _) negative
      exact isPlainChar_of_mem_toDigits hc
  | infinite negative =>
      exact isPlainText_signed (List.all_eq_true.mp (by decide)) negative
  | nan negative signaling payload =>
      refine isPlainText_signed (fun c hc => ?_) negative
      rcases List.mem_append.mp hc with hc | hc
      · have word : ∀ c ∈ (if signaling then "sNaN" else "NaN").toList, isPlainChar c = true := by
          cases signaling <;> exact List.all_eq_true.mp (by decide)
        exact word c hc
      · split at hc
        · cases hc
        · exact isPlainChar_of_mem_toDigits hc

end Decimal

namespace Timecode

theorem mem_of_mem_dropTrailing {c d : Char} {cs : List Char} (h : d ∈ dropTrailing c cs) :
    d ∈ cs := by
  rw [dropTrailing, List.mem_reverse] at h
  exact List.mem_reverse.mp ((List.dropWhile_sublist _).subset h)

theorem isPlainText_shorten {s : String} (h : IsPlainText s) : IsPlainText (shorten s) := by
  have kept (cs : List Char) (sub : ∀ c ∈ cs, c ∈ s.toList) :
      IsPlainText (if cs = [] ∨ cs = ['-', '0'] then "0" else String.ofList cs) := by
    split
    · decide
    · intro c hc
      rw [String.toList_ofList] at hc
      exact h c (sub c hc)
  refine kept _ fun c hc => ?_
  split at hc
  · simp only at hc
    split at hc
    · exact mem_of_mem_dropTrailing (mem_of_mem_dropTrailing hc)
    · exact mem_of_mem_dropTrailing hc
  · exact hc

theorem isPlainText_formatDecimal {d : Decimal} {text : String}
    (h : formatDecimal d = .ok text) : IsPlainText text := by
  obtain ⟨number, -, h⟩ := exists_of_bind_ok h
  obtain rfl := Except.ok.inj h
  exact isPlainText_shorten number.isPlainText_plainText

theorem isPlainText_format {v : Value} {text : String} (h : format v = .ok text) :
    IsPlainText text := by
  obtain ⟨given, -, h⟩ := exists_of_bind_ok h
  split at h
  · exact isPlainText_formatDecimal h
  · cases h

end Timecode

end Reel
