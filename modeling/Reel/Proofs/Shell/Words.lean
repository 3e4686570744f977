import Mathlib.Data.List.Basic
import Reel.Shell.Words

/-!
# Lines are cut back into their words

Every word, the empty one and one with quotes, backslashes or line ends among them, is read back
from a line as it was. A word that is quoted is read inside single quotes, which it leaves only
for a single quote of its own between double ones.
-/
namespace Reel.Shell

theorem plain_ordinary {c : Char} (h : isPlain c = true) :
    isSeparator c = false ∧ c ≠ '\\' ∧ c ≠ '\'' ∧ c ≠ '"' := by
  have special : [' ', '\t', '\r', '\n', '\\', '\'', '"'].all (fun c => !isPlain c) = true := by
    decide
  have apart {d : Char} (hd : d ∈ [' ', '\t', '\r', '\n', '\\', '\'', '"']) : c ≠ d := by
    rintro rfl
    have marked := List.all_eq_true.mp special _ hd
    rw [h] at marked
    cases marked
  have separates : isSeparator c = false := by
    simp [isSeparator, apart (by simp : ' ' ∈ _), apart (by simp : '\t' ∈ _),
      apart (by simp : '\r' ∈ _), apart (by simp : '\n' ∈ _)]
  exact ⟨separates, apart (by simp), apart (by simp), apart (by simp)⟩

theorem splitFrom_word_plain {cs : List Char} (plain : ∀ c ∈ cs, isPlain c = true)
    (word rest : List Char) :
    splitFrom .word word (cs ++ rest) = splitFrom .word (cs.reverse ++ word) rest := by
  induction cs generalizing word with
  | nil => rfl
  | cons c cs ih =>
      rw [List.forall_mem_cons] at plain
      obtain ⟨separates, backslash, single, double⟩ := plain_ordinary plain.1
      rw [List.cons_append, splitFrom, if_neg (by simp [separates]), if_neg backslash,
        if_neg single, if_neg double, ih plain.2, List.reverse_cons, List.append_assoc]
      rfl

/-- What is written between single quotes is read as it was, up to the closing quote. -/
theorem splitFrom_quoteBody (cs word rest : List Char) :
    splitFrom .single word (quoteBody cs ++ '\'' :: rest) =
      splitFrom .word (cs.reverse ++ word) rest := by
  fun_induction quoteBody cs generalizing word with
  | case1 => simp [splitFrom]
  | case2 cs ih => simpa [splitFrom, isSeparator] using ih ('\'' :: word)
  | case3 c cs other ih =>
      rw [List.cons_append, splitFrom, if_neg other, ih]
      simp

/-- A quoted word between others is read as the word that was quoted. -/
theorem splitFrom_quoteChars (cs rest : List Char) :
    splitFrom .between [] (quoteChars cs ++ rest) = splitFrom .word cs.reverse rest := by
  unfold quoteChars
  split
  · next nothing =>
      obtain rfl := List.isEmpty_iff.mp nothing
      simp [splitFrom, isSeparator]
  · next something =>
      split
      · next plain =>
          rw [List.all_eq_true] at plain
          cases cs with
          | nil => exact absurd rfl something
          | cons c cs =>
              rw [List.forall_mem_cons] at plain
              obtain ⟨separates, backslash, single, double⟩ := plain_ordinary plain.1
              rw [List.cons_append, splitFrom, if_neg (by simp [separates]), if_neg backslash,
                if_neg single, if_neg double, splitFrom_word_plain plain.2]
              simp
      · have opened : splitFrom .between [] ('\'' :: (quoteBody cs ++ '\'' :: rest)) =
            splitFrom .single [] (quoteBody cs ++ '\'' :: rest) := by
          simp [splitFrom, isSeparator]
        have quoted := opened.trans (splitFrom_quoteBody cs [] rest)
        simpa using quoted

theorem splitChars?_joinChars (words : List (List Char)) :
    splitChars? (joinChars words) = some words := by
  induction words with
  | nil => rfl
  | cons word rest ih =>
      cases rest with
      | nil =>
          have last := splitFrom_quoteChars word []
          rw [List.append_nil] at last
          rw [joinChars, List.map_singleton, List.intercalate_singleton, splitChars?, last]
          simp [splitFrom]
      | cons next rest =>
          have line : joinChars (word :: next :: rest) =
              quoteChars word ++ ' ' :: joinChars (next :: rest) := by
            simp [joinChars, List.intercalate_cons_cons]
          rw [line, splitChars?, splitFrom_quoteChars, splitFrom, if_pos (by rfl), ← splitChars?, ih]
          simp

/-- Cutting a line into words undoes writing the words as a line. -/
theorem split?_join (words : List String) : split? (join words) = some words := by
  rw [split?, join, String.toList_ofList, splitChars?_joinChars, Option.map_some, List.map_map]
  simp [Function.comp_def]

end Reel.Shell
