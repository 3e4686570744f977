import Mathlib
import Reel.Graph

/-!
# Reading a written graph

A written graph separates its nodes by semicolons. A node is a row of pads in brackets, filters
separated by commas, and one more pad; a filter is a name with its arguments behind the first
equals sign, separated by colons. The reader cuts at these marks and at nothing else, so it gets
back every part whose names and arguments hold no mark that would cut them.
-/
namespace Reel

/-- One node as it is written: the names in its pads, and its filters with their arguments. -/
structure Part where
  inputs : List String
  steps : List (String × List String)
  output : String
  deriving Repr, DecidableEq

namespace Part

def padChars (name : String) : List Char := '[' :: name.toList ++ [']']

def stepChars : String × List String → List Char
  | (name, []) => name.toList
  | (name, arguments) => name.toList ++ '=' :: [':'].intercalate (arguments.map String.toList)

def bodyChars (p : Part) : List Char := [','].intercalate (p.steps.map stepChars)

def chars (p : Part) : List Char :=
  p.inputs.flatMap padChars ++ p.bodyChars ++ padChars p.output

/-- Reads one filter: its name ends at the first equals sign. -/
def readStep (cs : List Char) : String × List String :=
  match cs.dropWhile (· != '=') with
  | [] => (String.ofList cs, [])
  | _ :: arguments =>
    (String.ofList (cs.takeWhile (· != '=')), (arguments.splitOn ':').map String.ofList)

def padName? : List Char → Option String
  | '[' :: name => some (String.ofList name)
  | _ => none

/-- Reads one node. Every pad ends with a bracket: in front of the last closing bracket lie the
filters and the output, in front of the others the inputs, and nothing follows. -/
def read? (cs : List Char) : Option Part :=
  match (cs.splitOn ']').reverse with
  | [] :: last :: pads =>
    match last.splitOn '[' with
    | [body, output] => (pads.reverse.mapM padName?).map fun inputs =>
        { inputs, steps := (body.splitOn ',').map readStep, output := String.ofList output }
    | _ => none
  | _ => none

/-- Reads a whole graph. -/
def readAll? (text : String) : Option (List Part) := (text.toList.splitOn ';').mapM read?

end Part

/-- None of the marks stands in the text. -/
def Avoids (marks : List Char) (s : String) : Prop := ∀ c ∈ marks, c ∉ s.toList

instance (marks : List Char) (s : String) : Decidable (Avoids marks s) :=
  List.decidableBAll (fun c => c ∉ s.toList) marks

theorem Avoids.append {marks : List Char} {s t : String} (hs : Avoids marks s)
    (ht : Avoids marks t) : Avoids marks (s ++ t) := by
  intro c hc
  rw [String.toList_append, List.mem_append, not_or]
  exact ⟨hs c hc, ht c hc⟩

namespace Part

/-- The marks that a graph is cut into pads and nodes at. -/
def outerMarks : List Char := [';', '[', ']']

/-- No name and no argument holds a mark that the reader would cut it at. -/
structure Clean (p : Part) : Prop where
  inputs : ∀ name ∈ p.inputs, Avoids outerMarks name
  filtered : p.steps ≠ []
  names : ∀ step ∈ p.steps, Avoids (outerMarks ++ [',', '=']) step.1
  arguments : ∀ step ∈ p.steps, ∀ a ∈ step.2, Avoids (outerMarks ++ [',', ':']) a
  output : Avoids outerMarks p.output

variable {p : Part} {step : String × List String}

theorem notMem_intercalate {c : Char} {sep : List Char} {rows : List (List Char)}
    (apart : c ∉ sep) (h : ∀ row ∈ rows, c ∉ row) : c ∉ sep.intercalate rows := by
  induction rows with
  | nil => simp
  | cons row rest ih =>
      rw [List.forall_mem_cons] at h
      cases rest with
      | nil => simpa using h.1
      | cons next rest =>
          rw [List.intercalate_cons_cons, List.mem_append, List.mem_append, not_or, not_or]
          exact ⟨⟨h.1, apart⟩, ih h.2⟩

theorem takeWhile_ne_append {c : Char} {cs : List Char} (h : c ∉ cs) (rest : List Char) :
    (cs ++ c :: rest).takeWhile (· != c) = cs ∧
      (cs ++ c :: rest).dropWhile (· != c) = c :: rest := by
  have passes : ∀ d ∈ cs, (d != c) = true := by
    intro d hd
    have : d ≠ c := fun eq => h (eq ▸ hd)
    simpa using this
  constructor
  · rw [List.takeWhile_append_of_pos passes]
    simp
  · rw [List.dropWhile_append_of_pos passes]
    simp

theorem readStep_stepChars (name : '=' ∉ step.1.toList)
    (arguments : ∀ a ∈ step.2, ':' ∉ a.toList) : readStep (stepChars step) = step := by
  obtain ⟨word, args⟩ := step
  cases args with
  | nil =>
      have rest : word.toList.dropWhile (· != '=') = [] := by
        rw [List.dropWhile_eq_nil_iff]
        intro c hc
        have : c ≠ '=' := fun eq => name (eq ▸ hc)
        simpa using this
      simp [stepChars, readStep, rest]
  | cons a args =>
      obtain ⟨before, behind⟩ := takeWhile_ne_append name
        ([':'].intercalate ((a :: args).map String.toList))
      have pieces : ([':'].intercalate ((a :: args).map String.toList)).splitOn ':' =
          (a :: args).map String.toList :=
        List.splitOn_intercalate ':' (by simpa using arguments) (by simp)
      simp only [stepChars, readStep, before, behind, pieces]
      simp

theorem Clean.notMem_stepChars (h : p.Clean) (hs : step ∈ p.steps) {c : Char}
    (hc : c ∈ outerMarks ++ [',']) : c ∉ stepChars step := by
  have apart : c ≠ '=' ∧ c ≠ ':' := by
    simp only [outerMarks, List.cons_append, List.nil_append, List.mem_cons, List.not_mem_nil,
      or_false] at hc
    rcases hc with rfl | rfl | rfl | rfl <;> decide
  have name := h.names step hs c (by simp only [List.mem_append, List.mem_cons] at hc ⊢; grind)
  have arguments := fun a ha =>
    h.arguments step hs a ha c (by simp only [List.mem_append, List.mem_cons] at hc ⊢; grind)
  obtain ⟨word, args⟩ := step
  cases args with
  | nil => exact name
  | cons a args =>
      have joined : c ∉ [':'].intercalate ((a :: args).map String.toList) := by
        refine notMem_intercalate (by simpa using apart.2) ?_
        simpa using arguments
      simp only [stepChars, List.mem_append, List.mem_cons, not_or]
      exact ⟨name, apart.1, joined⟩

theorem Clean.notMem_bodyChars (h : p.Clean) {c : Char} (hc : c ∈ outerMarks) :
    c ∉ p.bodyChars := by
  have comma : c ≠ ',' := by
    rintro rfl
    simp [outerMarks] at hc
  refine notMem_intercalate (by simpa using comma) ?_
  intro row hr
  obtain ⟨step, hs, rfl⟩ := List.mem_map.mp hr
  exact h.notMem_stepChars hs (List.mem_append_left _ hc)

/-- Cut at the closing brackets, a node falls into its pads, with the filters in front of the
last one. -/
theorem chars_eq_intercalate (p : Part) :
    p.chars = [']'].intercalate
      (p.inputs.map (fun name => '[' :: name.toList) ++
        [p.bodyChars ++ '[' :: p.output.toList, []]) := by
  unfold chars
  induction p.inputs with
  | nil => simp [padChars, List.intercalate_cons_cons]
  | cons name rest ih =>
      rw [List.map_cons, List.cons_append, List.intercalate_cons_of_ne_nil (by simp), ← ih]
      simp [padChars]

theorem read?_chars (h : p.Clean) : read? p.chars = some p := by
  have closing : ∀ row ∈ p.inputs.map (fun name => '[' :: name.toList) ++
      [p.bodyChars ++ '[' :: p.output.toList, []], ']' ∉ row := by
    have body := h.notMem_bodyChars (c := ']') (by decide)
    have output := h.output ']' (by decide)
    have inputs := fun name hn => h.inputs name hn ']' (by decide)
    intro row hr
    rcases List.mem_append.mp hr with hr | hr
    · obtain ⟨name, hn, rfl⟩ := List.mem_map.mp hr
      simpa using inputs name hn
    · rcases List.mem_pair.mp hr with rfl | rfl
      · simpa using ⟨body, output⟩
      · simp
  have pieces := List.splitOn_intercalate ']' closing (by simp)
  have last : (p.bodyChars ++ '[' :: p.output.toList).splitOn '[' =
      [p.bodyChars, p.output.toList] := by
    have opening : ∀ row ∈ [p.bodyChars, p.output.toList], '[' ∉ row := by
      intro row hr
      rcases List.mem_pair.mp hr with rfl | rfl
      · exact h.notMem_bodyChars (by decide)
      · exact h.output '[' (by decide)
    simpa [List.intercalate_cons_cons] using List.splitOn_intercalate '[' opening (by simp)
  have names : (p.inputs.map fun name => '[' :: name.toList).mapM padName? = some p.inputs := by
    induction p.inputs with
    | nil => rfl
    | cons name rest ih => simp [List.mapM_cons, padName?, ih]
  have steps : (p.bodyChars.splitOn ',').map readStep = p.steps := by
    have commas : ∀ row ∈ p.steps.map stepChars, ',' ∉ row := by
      intro row hr
      obtain ⟨step, hs, rfl⟩ := List.mem_map.mp hr
      exact h.notMem_stepChars hs (by decide)
    rw [bodyChars, List.splitOn_intercalate ',' commas (by simpa using h.filtered), List.map_map]
    refine (List.map_congr_left fun step hs => ?_).trans (List.map_id _)
    refine readStep_stepChars (h.names step hs '=' (by decide)) fun a ha => ?_
    exact h.arguments step hs a ha ':' (by decide)
  rw [read?, chars_eq_intercalate, pieces]
  simp only [List.reverse_append, List.reverse_cons, List.reverse_nil, List.nil_append,
    List.cons_append, List.reverse_reverse, last, names, steps, String.ofList_toList,
    Option.map_some]

/-- A graph of clean parts is read back from its text, part by part. -/
theorem readAll?_intercalate {parts : List Part} (nonempty : parts ≠ [])
    (clean : ∀ p ∈ parts, p.Clean) :
    readAll? (String.ofList ([';'].intercalate (parts.map chars))) = some parts := by
  have semicolon : ∀ row ∈ parts.map chars, ';' ∉ row := by
    intro row hr
    obtain ⟨p, hp, rfl⟩ := List.mem_map.mp hr
    have h := clean p hp
    have pad (name : String) (avoids : Avoids outerMarks name) : ';' ∉ padChars name := by
      have := avoids ';' (by decide)
      simpa [padChars] using this
    simp only [chars, List.mem_append, List.mem_flatMap, not_or, not_exists, not_and]
    exact ⟨⟨fun name hn => pad name (h.inputs name hn), h.notMem_bodyChars (by decide)⟩,
      pad _ h.output⟩
  have pieces := List.splitOn_intercalate ';' semicolon (by simpa using nonempty)
  rw [readAll?, String.toList_ofList, pieces]
  clear pieces semicolon nonempty
  induction parts with
  | nil => rfl
  | cons p rest ih =>
      rw [List.forall_mem_cons] at clean
      rw [List.map_cons, List.mapM_cons, read?_chars clean.1, ih clean.2]
      rfl

end Part

end Reel
