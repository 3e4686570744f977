import Reel.Clip.Custom
import Reel.Proofs.Text.Occurrences

/-!
# Templates and what they are filled with

A template is cut at its slots; what lies between them is copied, and each slot stands for a path.
The command puts the input in first and looks for the slot of the output in what that gives, so a
path that brings such a slot with it, or completes one, is written into. Exactly then the command
is not the one that the template stands for.
-/
namespace Reel.CustomCommand

open Text

/-- What a template consists of: letters that are copied, and slots. -/
inductive Piece where
  | letter (c : Char)
  | input
  | output
  deriving DecidableEq

namespace Piece

def fill (input output : List Char) : Piece → List Char
  | letter c => [c]
  | .input => input
  | .output => output

end Piece

def pieces : List Char → List Piece
  | [] => []
  | c :: rest =>
    if inputSlot.toList.isPrefixOf (c :: rest) then
      .input :: pieces (rest.drop (inputSlot.length - 1))
    else if outputSlot.toList.isPrefixOf (c :: rest) then
      .output :: pieces (rest.drop (outputSlot.length - 1))
    else .letter c :: pieces rest
termination_by template => template.length
decreasing_by all_goals simp only [List.length_drop, List.length_cons]; omega

/-- The template with all slots filled at once. -/
def filled (template input output : String) : String :=
  String.ofList ((pieces template.toList).flatMap (Piece.fill input.toList output.toList))

def inputTail : List Char := ['i', 'n', 'p', 'u', 't', '\x7d']

def outputTail : List Char := ['o', 'u', 't', 'p', 'u', 't', '\x7d']

theorem inputSlot_toList : inputSlot.toList = '\x7b' :: inputTail := rfl

theorem outputSlot_toList : outputSlot.toList = '\x7b' :: outputTail := rfl

theorem brace_notMem_inputTail : '\x7b' ∉ inputTail := by decide

theorem brace_notMem_outputTail : '\x7b' ∉ outputTail := by decide

theorem not_isPrefixOf_input (rest : List Char) :
    outputSlot.toList.isPrefixOf (inputSlot.toList ++ rest) = false := by
  rw [inputSlot_toList, outputSlot_toList]
  rfl

theorem not_isPrefixOf_output (rest : List Char) :
    inputSlot.toList.isPrefixOf (outputSlot.toList ++ rest) = false := by
  rw [inputSlot_toList, outputSlot_toList]
  rfl

theorem occurrences_output_input (rest : List Char) :
    occurrences outputSlot.toList (inputSlot.toList ++ rest) =
      occurrences outputSlot.toList rest := by
  have other := not_isPrefixOf_input rest
  rw [inputSlot_toList, List.cons_append] at other ⊢
  rw [occurrences, other, outputSlot_toList, occurrences_append_of_notMem brace_notMem_inputTail]
  rfl

theorem replaceChars_input_output {input : List Char} (rest : List Char) :
    replaceChars '\x7b' inputTail input (outputSlot.toList ++ rest) =
      outputSlot.toList ++ replaceChars '\x7b' inputTail input rest := by
  have other := not_isPrefixOf_output rest
  rw [inputSlot_toList, outputSlot_toList, List.cons_append] at other
  rw [outputSlot_toList, List.cons_append, replaceChars, if_neg (by simp [other]),
    replaceChars_append_of_notMem brace_notMem_outputTail, List.cons_append]

@[simp] theorem pieces_nil : pieces [] = [] := by rw [pieces]

theorem pieces_input (rest : List Char) :
    pieces (inputSlot.toList ++ rest) = .input :: pieces rest := by
  have here := isPrefixOf_append_self inputSlot.toList rest
  rw [inputSlot_toList, List.cons_append] at here ⊢
  rw [pieces, inputSlot_toList, if_pos here]
  rfl

theorem pieces_output (rest : List Char) :
    pieces (outputSlot.toList ++ rest) = .output :: pieces rest := by
  have here := isPrefixOf_append_self outputSlot.toList rest
  have other := not_isPrefixOf_output rest
  rw [outputSlot_toList, List.cons_append] at here other ⊢
  rw [pieces, if_neg (by simp [other]), outputSlot_toList, if_pos here]
  rfl

/-- Cutting goes through a template slot by slot, and letter by letter where no slot begins. -/
theorem pieces_induction {motive : List Char → Prop} (nil : motive [])
    (input : ∀ rest, motive rest → motive (inputSlot.toList ++ rest))
    (output : ∀ rest, motive rest → motive (outputSlot.toList ++ rest))
    (letter : ∀ c rest, inputSlot.toList.isPrefixOf (c :: rest) = false →
      outputSlot.toList.isPrefixOf (c :: rest) = false → motive rest → motive (c :: rest))
    (template : List Char) : motive template := by
  have behind {slot s rest : List Char} {c : Char} (split : slot ++ s = c :: rest) (one : slot ≠ []) :
      rest.drop (slot.length - 1) = s := by
    cases slot with
    | nil => exact (one rfl).elim
    | cons d tail =>
        obtain rfl : tail ++ s = rest := (List.cons.inj split).2
        simp
  fun_induction pieces template with
  | case1 => exact nil
  | case2 c rest here ih =>
      obtain ⟨s, split⟩ := List.isPrefixOf_iff_prefix.mp here
      rw [← String.length_toList, behind split (by decide)] at ih
      exact split ▸ input s ih
  | case3 c rest _ here ih =>
      obtain ⟨s, split⟩ := List.isPrefixOf_iff_prefix.mp here
      rw [← String.length_toList, behind split (by decide)] at ih
      exact split ▸ output s ih
  | case4 c rest noInput noOutput ih =>
      exact letter c rest (Bool.eq_false_iff.mpr noInput) (Bool.eq_false_iff.mpr noOutput) ih

theorem pieces_letter {c : Char} {rest : List Char}
    (noInput : inputSlot.toList.isPrefixOf (c :: rest) = false)
    (noOutput : outputSlot.toList.isPrefixOf (c :: rest) = false) :
    pieces (c :: rest) = .letter c :: pieces rest := by
  rw [pieces, if_neg (by simp [noInput]), if_neg (by simp [noOutput])]

theorem count_output_pieces (template : List Char) :
    (pieces template).count .output = occurrences outputSlot.toList template := by
  induction template using pieces_induction with
  | nil => simp [occurrences]
  | input rest ih => rw [pieces_input, occurrences_output_input, ← ih]; rfl
  | output rest ih =>
      rw [pieces_output, List.count_cons_self, ih, outputSlot_toList,
        occurrences_pattern_append brace_notMem_outputTail]
  | letter c rest noInput noOutput ih =>
      rw [pieces_letter noInput noOutput, occurrences, noOutput, ← ih]
      rfl

/-- Putting the input in leaves the slots of the output as they are. -/
theorem replaceChars_input (input template : List Char) :
    replaceChars '\x7b' inputTail input template =
      (pieces template).flatMap (Piece.fill input outputSlot.toList) := by
  induction template using pieces_induction with
  | nil => simp [replaceChars]
  | input rest ih =>
      rw [pieces_input, List.flatMap_cons, inputSlot_toList, replaceChars_pattern_append, ih]
      rfl
  | output rest ih => rw [pieces_output, List.flatMap_cons, replaceChars_input_output, ih]; rfl
  | letter c rest noInput noOutput ih =>
      rw [pieces_letter noInput noOutput, replaceChars, ← inputSlot_toList, noInput, ih]
      rfl

/-- Filling the slots of the output replaces as many occurrences as there are such slots. -/
theorem replaces_fill (input output : List Char) (ps : List Piece) :
    Replaces outputSlot.toList output (ps.count .output)
      (ps.flatMap (Piece.fill input outputSlot.toList)) (ps.flatMap (Piece.fill input output)) := by
  induction ps with
  | nil => exact .nil
  | cons piece ps ih =>
      rw [List.flatMap_cons, List.flatMap_cons]
      cases piece with
      | letter c => exact .keep c ih
      | input => exact ih.keepAll input
      | output =>
          rw [List.count_cons_self]
          exact .swap ih

theorem toList_replace_input (template input : String) :
    (replace inputSlot input template).toList =
      (pieces template.toList).flatMap (Piece.fill input.toList outputSlot.toList) := by
  rw [← replaceChars_input, replace, inputSlot_toList]
  exact String.toList_ofList

theorem toList_replace_output (output s : String) :
    (replace outputSlot output s).toList =
      replaceChars '\x7b' outputTail output.toList s.toList := by
  rw [replace, outputSlot_toList]
  exact String.toList_ofList

/-- A template that is not blank gives a command. Its slots are filled as if all at once exactly if
putting the input in makes no new slot for the output, or if the output is called like its slot. -/
theorem render_filled_iff (template input output : String)
    (given : Text.blank template = false) :
    ∃ command, render { template, input, output } = .ok command ∧
      (command = filled template input output ↔ output = outputSlot ∨
        occurrences outputSlot.toList (replace inputSlot input template).toList =
          occurrences outputSlot.toList template.toList) := by
  refine ⟨replace outputSlot output (replace inputSlot input template), ?_, ?_⟩
  · simp [render, given]
  · have fills := replaces_fill input.toList output.toList (pieces template.toList)
    rw [← toList_replace_input, count_output_pieces, outputSlot_toList] at fills
    have law := fills.eq_replaceChars_iff brace_notMem_outputTail
    rw [← toList_replace_output, ← outputSlot_toList, String.toList_inj] at law
    rw [← law, filled, ← String.toList_inj, String.toList_ofList]

def mirrored : String := "-i \x7binput\x7d -vf hflip \x7boutput\x7d"

/-- What the path of the output looks like does not matter. -/
theorem mirrored_filled : Text.blank mirrored = false ∧ ∃ command,
    render { template := mirrored, input := "walk.mp4", output := "\x7binput\x7d.mp4" } =
      .ok command ∧ command = filled mirrored "walk.mp4" "\x7binput\x7d.mp4" := by
  have given : Text.blank mirrored = false := by decide
  obtain ⟨command, gives, law⟩ := render_filled_iff mirrored "walk.mp4" "\x7binput\x7d.mp4" given
  exact ⟨given, command, gives, law.mpr (.inr (by decide +kernel))⟩

/-- A file called like the slot of the output is read under the name of the output. -/
theorem slottedFile_not_filled : Text.blank mirrored = false ∧
    render { template := mirrored, input := "\x7boutput\x7d.mp4", output := "o.mp4" } =
      .ok "-i o.mp4.mp4 -vf hflip o.mp4" ∧
    filled mirrored "\x7boutput\x7d.mp4" "o.mp4" = "-i \x7boutput\x7d.mp4 -vf hflip o.mp4" ∧
    render { template := mirrored, input := "\x7boutput\x7d.mp4", output := "o.mp4" } ≠
      .ok (filled mirrored "\x7boutput\x7d.mp4" "o.mp4") := by
  have given : Text.blank mirrored = false := by decide
  have gives : render { template := mirrored, input := "\x7boutput\x7d.mp4", output := "o.mp4" } =
      .ok "-i o.mp4.mp4 -vf hflip o.mp4" := by decide +kernel
  have meant : filled mirrored "\x7boutput\x7d.mp4" "o.mp4" =
      "-i \x7boutput\x7d.mp4 -vf hflip o.mp4" := by decide +kernel
  refine ⟨given, gives, meant, ?_⟩
  rw [gives, meant]
  decide

end Reel.CustomCommand
