import Mathlib
import Reel.Text.Replace

/-!
# Occurrences of a pattern

A pattern whose first letter does not come again cannot overlap itself. Its occurrences in a text
then lie apart from each other, and replacing goes through all of them. Whoever replaces only some
of them gets the same text exactly if they are all there are, or if the replacement is the pattern
itself: each occurrence that is left standing shows in the length of the text, or letter by letter.
-/
namespace Reel.Text

variable {p : Char} {ps replacement pattern s r : List Char} {k m : Nat}

/-- At how many places of a text a pattern that is not empty stands. -/
def occurrences (pattern : List Char) : List Char → Nat
  | [] => 0
  | c :: rest => occurrences pattern rest + if pattern.isPrefixOf (c :: rest) then 1 else 0

/-- Some occurrences that lie apart are replaced, and all else is kept. The number tells how many. -/
inductive Replaces (pattern replacement : List Char) : Nat → List Char → List Char → Prop
  | nil : Replaces pattern replacement 0 [] []
  | keep {k : Nat} {s r : List Char} (c : Char) : Replaces pattern replacement k s r →
      Replaces pattern replacement k (c :: s) (c :: r)
  | swap {k : Nat} {s r : List Char} : Replaces pattern replacement k s r →
      Replaces pattern replacement (k + 1) (pattern ++ s) (replacement ++ r)

/-- No occurrence begins among letters other than the pattern's first. -/
theorem occurrences_append_of_notMem {kept : List Char} (other : p ∉ kept) (s : List Char) :
    occurrences (p :: ps) (kept ++ s) = occurrences (p :: ps) s := by
  induction kept with
  | nil => rfl
  | cons c kept ih =>
      rw [List.mem_cons, not_or] at other
      rw [List.cons_append, occurrences, ih other.2]
      simp [List.isPrefixOf, other.1]

theorem replaceChars_append_of_notMem {kept : List Char} (other : p ∉ kept) (s : List Char) :
    replaceChars p ps replacement (kept ++ s) = kept ++ replaceChars p ps replacement s := by
  induction kept with
  | nil => rfl
  | cons c kept ih =>
      rw [List.mem_cons, not_or] at other
      rw [List.cons_append, replaceChars, ih other.2]
      simp [List.isPrefixOf, other.1]

theorem isPrefixOf_append_self (pattern s : List Char) : pattern.isPrefixOf (pattern ++ s) = true :=
  List.isPrefixOf_iff_prefix.mpr (List.prefix_append pattern s)

theorem occurrences_pattern_append (once : p ∉ ps) (s : List Char) :
    occurrences (p :: ps) (p :: ps ++ s) = occurrences (p :: ps) s + 1 := by
  have here : (p :: ps).isPrefixOf (p :: (ps ++ s)) = true := isPrefixOf_append_self (p :: ps) s
  rw [List.cons_append, occurrences, occurrences_append_of_notMem once, here]
  rfl

theorem replaceChars_pattern_append (s : List Char) :
    replaceChars p ps replacement (p :: ps ++ s) =
      replacement ++ replaceChars p ps replacement s := by
  have here : (p :: ps).isPrefixOf (p :: (ps ++ s)) = true := isPrefixOf_append_self (p :: ps) s
  rw [List.cons_append, replaceChars, if_pos here, List.drop_left]

namespace Replaces

theorem keepAll (kept : List Char) (h : Replaces pattern replacement k s r) :
    Replaces pattern replacement k (kept ++ s) (kept ++ r) := by
  induction kept with
  | nil => exact h
  | cons c kept ih => exact .keep c ih

/-- Each occurrence that is replaced changes the length by as much. -/
theorem length_add (h : Replaces pattern replacement k s r) :
    r.length + k * pattern.length = s.length + k * replacement.length := by
  induction h with
  | nil => simp
  | keep c _ ih => simp only [List.length_cons]; omega
  | swap _ ih => simp only [List.length_append, add_mul, one_mul]; omega

theorem eq_of_same (h : Replaces pattern pattern k s r) : r = s := by
  induction h with
  | nil => rfl
  | keep c _ ih => rw [ih]
  | swap _ ih => rw [ih]

end Replaces

def mismatches (s r : List Char) : Nat := (s.zip r).countP fun (a, b) => a != b

theorem mismatches_append {a b : List Char} (h : a.length = b.length) (s r : List Char) :
    mismatches (a ++ s) (b ++ r) = mismatches a b + mismatches s r := by
  rw [mismatches, List.zip_append h, List.countP_append]
  rfl

theorem eq_of_mismatches {s r : List Char} (h : s.length = r.length) (none : mismatches s r = 0) :
    s = r := by
  induction s generalizing r with
  | nil => exact (List.length_eq_zero_iff.mp h.symm).symm
  | cons a s ih =>
      cases r with
      | nil => cases h
      | cons b r =>
          have apart := mismatches_append (a := [a]) (b := [b]) rfl s r
          rw [List.singleton_append, List.singleton_append, none] at apart
          obtain ⟨first, rest⟩ := Nat.add_eq_zero_iff.mp apart.symm
          have same : a = b := by simpa [mismatches] using first
          rw [same, ih (Nat.succ.inj h) rest]

namespace Replaces

/-- Each occurrence that is replaced by a text of its length changes as many letters. -/
theorem mismatches_eq (h : Replaces pattern replacement k s r)
    (long : pattern.length = replacement.length) :
    mismatches s r = k * mismatches pattern replacement := by
  induction h with
  | nil => simp [mismatches]
  | keep c _ ih =>
      have apart := mismatches_append (a := [c]) (b := [c]) rfl
      simp only [List.singleton_append] at apart
      rw [apart, ih]
      simp [mismatches]
  | swap _ ih => rw [mismatches_append long, ih, add_mul, one_mul, add_comm]

/-- How many occurrences were replaced can be told from the two texts. -/
theorem count_eq (h : Replaces pattern replacement k s r) (h' : Replaces pattern replacement m s r)
    (changes : replacement ≠ pattern) : k = m := by
  by_cases long : pattern.length = replacement.length
  · have differ : mismatches pattern replacement ≠ 0 := fun none =>
      changes (eq_of_mismatches long none).symm
    have count := (h.mismatches_eq long).symm.trans (h'.mismatches_eq long)
    exact Nat.eq_of_mul_eq_mul_right (Nat.pos_of_ne_zero differ) count
  · have first := h.length_add
    have second := h'.length_add
    zify at first second long ⊢
    have product : ((k : ℤ) - m) * (pattern.length - replacement.length) = 0 := by linarith
    rcases mul_eq_zero.mp product with none | none
    · linarith
    · exact (long (by linarith)).elim

/-- There are at least as many occurrences as were replaced. -/
theorem le_occurrences (h : Replaces (p :: ps) replacement k s r) (once : p ∉ ps) :
    k ≤ occurrences (p :: ps) s := by
  induction h with
  | nil => exact le_rfl
  | keep c _ ih => exact ih.trans (Nat.le_add_right ..)
  | swap _ ih =>
      rw [occurrences_pattern_append once]
      exact Nat.succ_le_succ ih

/-- Where no occurrence is left standing, all were replaced. -/
theorem eq_replaceChars (h : Replaces (p :: ps) replacement k s r) (once : p ∉ ps)
    (all : occurrences (p :: ps) s ≤ k) : r = replaceChars p ps replacement s := by
  induction h with
  | nil => rw [replaceChars]
  | @keep k s r c h ih =>
      have least := h.le_occurrences once
      rw [occurrences] at all
      rw [replaceChars]
      split
      · next here =>
          rw [if_pos here] at all
          omega
      · rw [← ih (by omega)]
  | @swap k s r _ ih =>
      rw [occurrences_pattern_append once] at all
      rw [replaceChars_pattern_append, ← ih (by omega)]

end Replaces

theorem replaces_replaceChars (once : p ∉ ps) (s : List Char) :
    Replaces (p :: ps) replacement (occurrences (p :: ps) s) s (replaceChars p ps replacement s) := by
  fun_induction replaceChars p ps replacement s with
  | case1 => exact .nil
  | case2 c rest here ih =>
      obtain ⟨s, split⟩ := List.isPrefixOf_iff_prefix.mp here
      obtain rfl : ps ++ s = rest := (List.cons.inj split).2
      obtain rfl : p = c := (List.cons.inj split).1
      rw [List.drop_left] at ih ⊢
      rw [← List.cons_append, occurrences_pattern_append once]
      exact .swap ih
  | case3 c rest other ih =>
      rw [occurrences, if_neg other]
      exact .keep c ih

/-- Replacing some occurrences gives what replacing all of them gives exactly if they are all, or if
nothing changes anyhow. -/
theorem Replaces.eq_replaceChars_iff (h : Replaces (p :: ps) replacement k s r) (once : p ∉ ps) :
    replaceChars p ps replacement s = r ↔
      replacement = p :: ps ∨ occurrences (p :: ps) s = k := by
  constructor
  · rintro rfl
    by_cases same : replacement = p :: ps
    · exact .inl same
    · exact .inr ((replaces_replaceChars once s).count_eq h same)
  · rintro (rfl | all)
    · rw [h.eq_of_same, (replaces_replaceChars once s).eq_of_same]
    · exact (h.eq_replaceChars once all.le).symm

end Reel.Text
