import Reel.Proofs.CommandLine.Shared

/-!
# Spelling out options

An option whose long name is written in full is read as that option by every program that has it,
with the text behind an equals sign as its value. So each choice of the options that the renderer
and the dashboard share can be put into words that both read.
-/
namespace Reel.CommandLine

variable {α : Type} {rules : List (OptionRule α)} {rule : OptionRule α} {a a' : α}

/-- The value of an option that is given a text, or not at all. -/
def optionValue (text : Option String) : Value := text.elim .null fun s => gluedValue s.toList

def assign (name text : String) : String := name ++ "=" ++ text

def spell (name : String) (text : Option String) : List String := text.toList.map (assign name)

def spellFlag (name : String) (chosen : Bool) : List String := if chosen then [name] else []

theorem Distinct.rule?_eq (d : Distinct rules) (mem : rule ∈ rules) {name : String}
    (named : name ∈ rule.names) : rule? rules name = some rule := by
  have own : rule.names.contains name = true := by simpa using named
  obtain ⟨found, first⟩ : ∃ found, rule? rules name = some found :=
    Option.isSome_iff_exists.mp (List.find?_isSome.mpr ⟨rule, mem, own⟩)
  have only := d.rulesFrom_eq first
  have cut : rule ∈ rulesFrom rules name.toList :=
    List.mem_filter.mpr ⟨mem, List.any_eq_true.mpr ⟨name, named, by simp⟩⟩
  rw [only] at cut
  rw [first, List.mem_singleton.mp cut]

theorem splitSign_append {cs : List Char} (free : '=' ∉ cs) (value : List Char) :
    splitSign (cs ++ '=' :: value) = (cs, some value) := by
  have pass : ∀ c ∈ cs, (c != '=') = true := by
    intro c hc
    have other : c ≠ '=' := fun same => free (same ▸ hc)
    simpa using other
  rw [splitSign, List.dropWhile_append_of_pos pass, List.takeWhile_append_of_pos pass]
  simp

section Read

variable {name : String} {c : Char} {letters : List Char}

theorem classify_assign (d : Distinct rules) (long : name.toList = '-' :: '-' :: c :: letters)
    (found : rule? rules name = some rule) (text : String) :
    classify rules (assign name text) = .ok (.option rule false (some text.toList)) := by
  have chars : (assign name text).toList = name.toList ++ '=' :: text.toList := by
    simp [assign]
  have parted := splitSign_append (d.sign_notMem found) text.toList
  have whole : rule? rules (assign name text) = none := by
    cases other : rule? rules (assign name text) with
    | none => rfl
    | some _ => exact (d.sign_notMem other (by simp [chars])).elim
  rw [long, List.cons_append, List.cons_append] at chars parted
  unfold classify
  split
  · next dash rest same =>
      obtain ⟨rfl, rfl⟩ : '-' = dash ∧ c :: letters ++ '=' :: text.toList = rest := by
        simpa using chars.symm.trans same
      dsimp only
      rw [parted, whole]
      dsimp only
      rw [Option.bind_some, ← long, String.ofList_toList, found]
      rfl
  · next other => exact (other _ _ chars).elim

theorem classify_name (long : name.toList = '-' :: '-' :: c :: letters)
    (found : rule? rules name = some rule) :
    classify rules name = .ok (.option rule false none) := by
  unfold classify
  rw [long]
  dsimp only
  rw [found]
  rfl

/-- A word that holds an option takes effect before all that follow. -/
theorem readArguments_cons {word : String} {short : Bool} {glued : Option (List Char)}
    (other : word ≠ "--") (classified : classify rules word = .ok (.option rule short glued))
    (reads : ∀ ws, readWords rules false a (.option rule short glued :: ws) =
      readWords rules false a' ws) (rest : List String) :
    readArguments rules a (word :: rest) = readArguments rules a' rest := by
  rw [readArguments, classifyAll.eq_3 rules word rest other, classified, readArguments]
  cases classifyAll rules rest with
  | error stop => rfl
  | ok ws => exact reads ws

theorem readArguments_assign (d : Distinct rules)
    (long : name.toList = '-' :: '-' :: c :: letters) (found : rule? rules name = some rule)
    (asks : rule.takesValue = true) (text : String)
    (taken : take a (rule, some (gluedValue text.toList)) = .ok a') (rest : List String) :
    readArguments rules a (assign name text :: rest) = readArguments rules a' rest := by
  refine readArguments_cons ?_ (classify_assign d long found text) (fun ws => ?_) rest
  · intro dashes
    have two := congrArg String.toList dashes
    simp [assign, long] at two
  · have expands : expand rules rule false text.toList =
        .ok { taken := [(rule, some (gluedValue text.toList))] } := by
      cases text.toList with
      | nil => rw [expand, if_pos asks]; rfl
      | cons c rest => rw [expand, if_pos asks]
    rw [readWords, clusterOf, expands]
    change ([(rule, some (gluedValue text.toList))].foldlM take a >>=
      fun args => readWords rules false args ws) = _
    rw [List.foldlM_cons, taken]
    rfl

theorem readArguments_name (long : name.toList = '-' :: '-' :: c :: letters)
    (found : rule? rules name = some rule) (asks : rule.takesValue = false)
    (taken : take a (rule, none) = .ok a') (rest : List String) :
    readArguments rules a (name :: rest) = readArguments rules a' rest := by
  refine readArguments_cons ?_ (classify_name long found) (fun ws => ?_) rest
  · rintro rfl
    simp at long
  · rw [readWords, clusterOf]
    change (if rule.takesValue = true then _ else [(rule, none)].foldlM take a >>=
      fun args => readWords rules false args ws) = _
    rw [if_neg (by simp [asks]), List.foldlM_cons, taken]
    rfl

theorem readArguments_spell (d : Distinct rules) {names : List String} {set : Value → α → α}
    (long : name.toList = '-' :: '-' :: c :: letters)
    (found : rule? rules name = some (textRule names set)) (text : Option String)
    (kept : set .null a = a) (rest : List String) :
    readArguments rules a (spell name text ++ rest) =
      readArguments rules (set (optionValue text) a) rest := by
  cases text with
  | none => rw [optionValue, Option.elim_none, kept]; rfl
  | some s => exact readArguments_assign d long found rfl s rfl rest

theorem readArguments_spellFlag (long : name.toList = '-' :: '-' :: c :: letters)
    {names : List String} (set : Bool → α → α)
    (found : rule? rules name = some (flagRule names (set true))) (chosen : Bool)
    (kept : set false a = a) (rest : List String) :
    readArguments rules a (spellFlag name chosen ++ rest) =
      readArguments rules (set chosen a) rest := by
  cases chosen with
  | false => rw [kept]; rfl
  | true => exact readArguments_name long found rfl rfl rest

end Read

/-- A choice of the options that the renderer and the dashboard share. -/
structure Request where
  project : String
  output : Option String := none
  root : Option String := none
  settings : Option String := none
  dryRun : Bool := false
  bitrate : Option String := none
  fast : Bool := false

namespace Request

/-- The options in words. -/
def words (r : Request) : List String :=
  assign "--yaml" r.project :: (spell "--output" r.output ++ spell "--root" r.root ++
    spell "--settings" r.settings ++ spellFlag "--dry-run" r.dryRun ++
    spell "--two-pass" r.bitrate ++ spellFlag "--fast" r.fast)

/-- The arguments that the words ask for. -/
def arguments (r : Request) : DashboardArguments where
  project := gluedValue r.project.toList
  output := optionValue r.output
  root := optionValue r.root
  settings := optionValue r.settings
  dryRun := r.dryRun
  bitrate := optionValue r.bitrate
  fast := r.fast

theorem words_eq (r : Request) : r.words = assign "--yaml" r.project ::
    (spell "--output" r.output ++ (spell "--root" r.root ++ (spell "--settings" r.settings ++
      (spellFlag "--dry-run" r.dryRun ++ (spell "--two-pass" r.bitrate ++
        (spellFlag "--fast" r.fast ++ [])))))) := by
  simp only [words, List.append_assoc, List.append_nil]

theorem readArguments_dashboard (r : Request) :
    readArguments dashboardRules {} r.words = .ok r.arguments := by
  have d := dashboardRules_distinct
  have found {i : Nat} {rule : OptionRule DashboardArguments} (mem : dashboardRules[i]? = some rule)
      {name : String} (named : name ∈ rule.names) : rule? dashboardRules name = some rule :=
    d.rule?_eq (List.mem_of_getElem? mem) named
  rw [words_eq, readArguments_assign d rfl (found (i := 1) rfl (by decide)) rfl r.project rfl,
    readArguments_spell d rfl (found (i := 2) rfl (by decide)) r.output rfl,
    readArguments_spell d rfl (found (i := 3) rfl (by decide)) r.root rfl,
    readArguments_spell d rfl (found (i := 4) rfl (by decide)) r.settings rfl,
    readArguments_spellFlag rfl (fun chosen a => { a with dryRun := chosen })
      (found (i := 5) rfl (by decide)) r.dryRun rfl,
    readArguments_spell d rfl (found (i := 6) rfl (by decide)) r.bitrate rfl,
    readArguments_spellFlag rfl (fun chosen a => { a with fast := chosen })
      (found (i := 7) rfl (by decide)) r.fast rfl]
  rfl

theorem readArguments_renderer (r : Request) :
    readArguments CommandLine.rules {} r.words = .ok r.arguments.forRenderer := by
  have d := rules_distinct
  have found {i : Nat} {rule : OptionRule Arguments} (mem : CommandLine.rules[i]? = some rule)
      {name : String} (named : name ∈ rule.names) : rule? CommandLine.rules name = some rule :=
    d.rule?_eq (List.mem_of_getElem? mem) named
  rw [words_eq, readArguments_assign d rfl (found (i := 1) rfl (by decide)) rfl r.project rfl,
    readArguments_spell d rfl (found (i := 4) rfl (by decide)) r.output rfl,
    readArguments_spell d rfl (found (i := 6) rfl (by decide)) r.root rfl,
    readArguments_spell d rfl (found (i := 7) rfl (by decide)) r.settings rfl,
    readArguments_spellFlag rfl (fun chosen a => { a with dryRun := chosen })
      (found (i := 10) rfl (by decide)) r.dryRun rfl,
    readArguments_spell d rfl (found (i := 14) rfl (by decide)) r.bitrate rfl,
    readArguments_spellFlag rfl (fun chosen a => { a with fast := chosen })
      (found (i := 15) rfl (by decide)) r.fast rfl]
  rfl

/-- Every choice of the shared options can be put into words that both programs read. -/
theorem read_words (r : Request) :
    Arguments.read r.words = .ok (.project r.arguments.project, r.arguments.forRenderer) ∧
      DashboardArguments.read r.words = .ok r.arguments := by
  have named : r.arguments.project.isNull = false := by
    dsimp only [arguments]
    unfold gluedValue
    split <;> rfl
  constructor
  · rw [Arguments.read, readArguments_renderer]
    rfl
  · rw [DashboardArguments.read, readArguments_dashboard]
    change (if r.arguments.project.isNull = true then _ else _) = _
    rw [if_neg (by simp [named])]
    rfl

end Request

end Reel.CommandLine
