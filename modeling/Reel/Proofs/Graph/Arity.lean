import Mathlib
import Reel.Graph.Command

/-!
# Reading a command by arity

A few settings of a command are flags; every other one takes the next word as its value, whatever
that looks like. The last word is the destination. Flags in front concern the whole run, the
settings before an input belong to that input, and all others to the output. A command whose
settings fit their arity is read back from its words.
-/
namespace Reel

/-- One setting of a command: a flag, or an option with its value. -/
inductive Setting where
  | flag (name : String)
  | option (name : String) (value : Value)
  deriving Repr, DecidableEq

namespace Setting

def flags : List String := ["-y", "-hide_banner", "-shortest", "-an"]

def name : Setting → String
  | flag name => name
  | option name _ => name

@[simp] theorem name_flag (given : String) : (flag given).name = given := rfl

@[simp] theorem name_option (given : String) (value : Value) :
    (option given value).name = given := rfl

def isFlag : Setting → Bool
  | flag _ => true
  | option .. => false

def words : Setting → List Value
  | flag name => [name]
  | option name value => [name, value]

def input? : Setting → Option Value
  | flag _ => none
  | option name path => if name = "-i" then some path else none

/-- The setting has as many words as its name asks for, where the given names take no value. -/
def FitsBy (flags : List String) (s : Setting) : Prop := s.isFlag = flags.contains s.name

instance (flags : List String) (s : Setting) : Decidable (s.FitsBy flags) :=
  inferInstanceAs (Decidable (_ = _))

/-- The setting has as many words as its name asks for. -/
abbrev Fits (s : Setting) : Prop := s.FitsBy flags

/-- Reads words as settings and a destination, where the given names take no value. -/
def readBy? (flags : List String) : List Value → Option (List Setting × Value)
  | [] => none
  | [destination] => some ([], destination)
  | .text name :: word :: rest =>
    if flags.contains name then
      (readBy? flags (word :: rest)).map fun (settings, destination) =>
        (flag name :: settings, destination)
    else
      (readBy? flags rest).map fun (settings, destination) =>
        (option name word :: settings, destination)
  | _ => none

theorem readBy?_words {flags : List String} {settings : List Setting}
    (fits : ∀ s ∈ settings, s.FitsBy flags) (destination : Value) :
    readBy? flags (settings.flatMap words ++ [destination]) = some (settings, destination) := by
  induction settings with
  | nil => rfl
  | cons s rest ih =>
      rw [List.forall_mem_cons] at fits
      obtain ⟨fits, others⟩ := fits
      have ih := ih others
      cases s with
      | flag name =>
          have known : flags.contains name = true := fits.symm
          obtain ⟨word, tail, hw⟩ := List.exists_cons_of_ne_nil
            (List.append_ne_nil_of_right_ne_nil (rest.flatMap words) (by simp : [destination] ≠ []))
          rw [hw] at ih
          have shape : (flag name :: rest).flatMap words ++ [destination] =
              .text name :: word :: tail := by
            rw [← hw]
            rfl
          rw [shape, readBy?, if_pos known, ih]
          rfl
      | option name value =>
          have unknown : flags.contains name = false := fits.symm
          have shape : (option name value :: rest).flatMap words ++ [destination] =
              .text name :: value :: (rest.flatMap words ++ [destination]) := rfl
          rw [shape, readBy?, if_neg (Bool.eq_false_iff.mp unknown), ih]
          rfl

/-- Gives every input the settings in front of it; those behind the last input are left. -/
def splitInputs : List Setting → List (List Setting × Value) × List Setting
  | [] => ([], [])
  | s :: rest =>
    match s.input?, splitInputs rest with
    | some path, (inputs, output) => (([], path) :: inputs, output)
    | none, ((before, path) :: inputs, output) => ((s :: before, path) :: inputs, output)
    | none, ([], output) => ([], s :: output)

theorem splitInputs_output {output : List Setting} (h : ∀ s ∈ output, s.input? = none) :
    splitInputs output = ([], output) := by
  induction output with
  | nil => rfl
  | cons s rest ih =>
      rw [List.forall_mem_cons] at h
      rw [splitInputs, h.1, ih h.2]

theorem splitInputs_input {before : List Setting} (h : ∀ s ∈ before, s.input? = none)
    (path : Value) (rest : List Setting) :
    splitInputs (before ++ option "-i" path :: rest) =
      ((before, path) :: (splitInputs rest).1, (splitInputs rest).2) := by
  induction before with
  | nil => rfl
  | cons s before ih =>
      rw [List.forall_mem_cons] at h
      rw [List.cons_append, splitInputs, h.1, ih h.2]

end Setting

/-- A command as it is read: settings of the whole run, the inputs with the settings of each, the
settings of the output, and where the output goes. -/
structure Reading where
  globals : List Setting
  inputs : List (List Setting × Value)
  output : List Setting
  destination : Value
  deriving Repr, DecidableEq

namespace Reading

/-- Reads a command in which the given names take no value. -/
def ofWordsBy? (flags : List String) (given : List Value) : Option Reading :=
  (Setting.readBy? flags given).map fun (settings, destination) =>
    let (inputs, output) := Setting.splitInputs (settings.dropWhile Setting.isFlag)
    { globals := settings.takeWhile Setting.isFlag, inputs, output, destination }

def ofWords? (given : List Value) : Option Reading := ofWordsBy? Setting.flags given

def inputSettings : List Setting × Value → List Setting
  | (before, path) => before ++ [.option "-i" path]

def settings (r : Reading) : List Setting :=
  r.globals ++ r.inputs.flatMap inputSettings ++ r.output

def words (r : Reading) : List Value := r.settings.flatMap Setting.words ++ [r.destination]

/-- The settings of the run, of each input and of the output can be told apart. -/
structure Parted (r : Reading) : Prop where
  globals : ∀ s ∈ r.globals, s.isFlag = true
  /-- Some input parts the flags in front from those of the output. -/
  bound : r.inputs ≠ []
  inputs : ∀ input ∈ r.inputs, ∀ s ∈ input.1, s.isFlag = false ∧ s.input? = none
  output : ∀ s ∈ r.output, s.input? = none

/-- Every setting stands where it is read back. -/
structure Sorted (r : Reading) : Prop extends r.Parted where
  fits : ∀ s ∈ r.settings, s.Fits

theorem splitInputs_settings {inputs : List (List Setting × Value)} {output : List Setting}
    (hi : ∀ input ∈ inputs, ∀ s ∈ input.1, s.input? = none) (ho : ∀ s ∈ output, s.input? = none) :
    Setting.splitInputs (inputs.flatMap inputSettings ++ output) = (inputs, output) := by
  induction inputs with
  | nil => exact Setting.splitInputs_output ho
  | cons input rest ih =>
      rw [List.forall_mem_cons] at hi
      have shape : (input :: rest).flatMap inputSettings ++ output =
          input.1 ++ .option "-i" input.2 :: (rest.flatMap inputSettings ++ output) := by
        simp [inputSettings]
      rw [shape, Setting.splitInputs_input hi.1, ih hi.2]

/-- An input begins with no flag: the flags in front of a command end with it. -/
theorem Parted.begins {r : Reading} (h : r.Parted) :
    ∃ s rest, r.inputs.flatMap inputSettings ++ r.output = s :: rest ∧ s.isFlag = false := by
  obtain ⟨first, others, hr⟩ := List.exists_cons_of_ne_nil h.bound
  obtain ⟨before, path⟩ := first
  cases before with
  | nil =>
      refine ⟨.option "-i" path, others.flatMap inputSettings ++ r.output, ?_, rfl⟩
      rw [hr]
      rfl
  | cons s before =>
      have own := h.inputs (s :: before, path) (by simp [hr]) s (List.mem_cons_self ..)
      refine ⟨s, before ++ .option "-i" path :: (others.flatMap inputSettings ++ r.output), ?_,
        own.1⟩
      simp [hr, inputSettings]

/-- A command whose settings fit their arity and can be told apart is read back from its words. -/
theorem ofWordsBy?_words {flags : List String} {r : Reading}
    (fits : ∀ s ∈ r.settings, s.FitsBy flags) (h : r.Parted) :
    ofWordsBy? flags r.words = some r := by
  obtain ⟨s, rest, begins, option⟩ := h.begins
  have shape : r.settings = r.globals ++ s :: rest := by
    rw [settings, List.append_assoc, begins]
  have front : r.settings.takeWhile Setting.isFlag = r.globals := by
    rw [shape, List.takeWhile_append_of_pos h.globals]
    simp [option]
  have behind : r.settings.dropWhile Setting.isFlag =
      r.inputs.flatMap inputSettings ++ r.output := by
    rw [shape, List.dropWhile_append_of_pos h.globals, begins]
    simp [option]
  have split := splitInputs_settings (fun input hi s hs => (h.inputs input hi s hs).2) h.output
  rw [ofWordsBy?, words, Setting.readBy?_words fits, Option.map_some]
  simp only [front, behind, split]

theorem ofWords?_words {r : Reading} (h : r.Sorted) : ofWords? r.words = some r :=
  ofWordsBy?_words h.fits h.toParted

end Reading

end Reel
