import Reel.Clip
import Reel.Proofs.Graph.Spared

/-!
# The words of a clip's commands

Between its input and its output a command of a clip holds settings: the times, the quality, what
becomes of the picture and what becomes of the sound. They are written once every value that goes
into them can be written, and every command of the clip is read back from its words.
-/
namespace Reel

namespace ClipJob

variable {job : ClipJob} {files : Files}

/-- The text of a time, none for an absent or blank one. -/
def timeText (time : Value) : Except Error (Option String) := do
  if time.isNull || Text.blank (← time.toText) then return none
  else return some (← Timecode.formatDecimal (← Timecode.ofValue time))

def timeWords (name : String) : Option String → List String
  | none => []
  | some text => [name, text]

def timeSettings (name : String) : Option String → List Setting
  | none => []
  | some text => [.option name text]

theorem timeArguments_eq (name : String) (time : Value) :
    timeArguments name time = (timeText time).map (timeWords name) := by
  unfold timeArguments timeText
  cases time.toText with
  | error e => rfl
  | ok text =>
      simp only [bind, Except.bind]
      split
      · rfl
      · cases Timecode.ofValue time with
        | error e => rfl
        | ok d =>
            cases h : Timecode.formatDecimal d <;>
              simp [h, Except.map, timeWords, pure, Except.pure]

def chain (job : ClipJob) : List String :=
  (if job.options.crop.isNull || job.options.scale.isNull then []
    else ["crop=" ++ job.options.crop.shown, "scale=" ++ job.options.scale.shown]) ++
  if job.options.alpha then ["colorkey=0x000000:0.1:0.1", "format=yuva420p"] else []

def spoken (job : ClipJob) (codecs : Codecs) (start finish : Option String) : List Setting :=
  timeSettings "-ss" start ++ timeSettings "-to" finish ++
  (if job.encode.twoPass then [Setting.option "-b:v" (.text job.encode.videoBitrate.shown)]
    else []) ++
  (if job.encode.fast then [Setting.option "-preset" (.text "ultrafast")] else []) ++
  (if job.options.fps.isNull then [] else [Setting.option "-r" (.text job.options.fps.shown)]) ++
  (if job.takesSoundOnly then [Setting.flag "-vn"] else []) ++
  (if !job.takesSoundOnly && !job.chain.isEmpty then
    [Setting.option "-vf" (.text (String.intercalate "," job.chain))] else []) ++
  (if job.options.removeAudio then [Setting.flag "-an"]
    else [Setting.option "-c:a"
      (.text (if job.takesSoundOnly then "libopus" else codecs.audio))]) ++
  (if job.takesSoundOnly then [] else [Setting.option "-c:v" (.text codecs.video)]) ++
  (if !job.takesSoundOnly && job.encode.vp9 then
    [Setting.option "-crf" (.text job.encode.vp9Crf.shown), Setting.option "-b:v" (.text "0")]
    else [])

/-- The values that go into the settings can be written. -/
structure Legible (job : ClipJob) : Prop where
  bitrate : job.encode.twoPass = true → job.encode.videoBitrate.isLegible = true
  rate : job.options.fps.isLegible = true
  framing : (job.options.crop.isNull || job.options.scale.isNull) = false →
    job.options.crop.isLegible = true ∧ job.options.scale.isLegible = true
  quality : (!job.takesSoundOnly && job.encode.vp9) = true → job.encode.vp9Crf.isLegible = true

theorem toText_eq {v : Value} (legible : v.isLegible = true) : v.toText = .ok v.shown :=
  if_pos legible

theorem isLegible_of_toText {v : Value} {text : String} (h : v.toText = .ok text) :
    v.isLegible = true := by
  by_contra unreadable
  rw [Value.toText, if_neg unreadable] at h
  cases h

section Parts

variable {β γ : Type} {c : Prop} [Decidable c] {v : Value} {f : String → β} {y : β}
  {next : β → Except Error γ} {z : γ}

theorem made_eq (legible : c → v.isLegible = true) :
    (if c then v.toText >>= fun x => pure (f x) >>= next else pure y >>= next) =
      next (if c then f v.shown else y) := by
  split
  · next holds => rw [toText_eq (legible holds)]; rfl
  · rfl

theorem legible_of_made
    (h : (if c then v.toText >>= fun x => pure (f x) >>= next else pure y >>= next) = .ok z) :
    c → v.isLegible = true := by
  intro holds
  rw [if_pos holds] at h
  obtain ⟨text, written, -⟩ := exists_of_bind_ok h
  exact isLegible_of_toText written

theorem or_made_eq (legible : ¬ c → v.isLegible = true) :
    (if c then pure y >>= next else v.toText >>= fun x => pure (f x) >>= next) =
      next (if c then y else f v.shown) := by
  split
  · rfl
  · next fails => rw [toText_eq (legible fails)]; rfl

theorem legible_of_or_made
    (h : (if c then pure y >>= next else v.toText >>= fun x => pure (f x) >>= next) = .ok z) :
    ¬ c → v.isLegible = true := by
  intro fails
  rw [if_neg fails] at h
  obtain ⟨text, written, -⟩ := exists_of_bind_ok h
  exact isLegible_of_toText written

end Parts

theorem videoFilters_eq (legible : job.Legible) : job.videoFilters = .ok job.chain := by
  unfold videoFilters chain
  cases framed : job.options.crop.isNull || job.options.scale.isNull with
  | true => rfl
  | false =>
      obtain ⟨crop, scale⟩ := legible.framing framed
      simp only [toText_eq crop, toText_eq scale]
      rfl

theorem words_timeSettings (name : String) (found : Option String) :
    (timeSettings name found).flatMap Setting.words = Value.words (timeWords name found) := by
  cases found <;> rfl

/-- Once all values can be written, the settings are those of the times and of the options. -/
theorem settings_eq (legible : job.Legible) {codecs : Codecs}
    (known : job.encode.codecs = .ok codecs) :
    job.settings.map Value.words = do
      let start ← timeText job.start
      let finish ← timeText job.finish
      return (job.spoken codecs start finish).flatMap Setting.words := by
  have step {α β : Type} (x : α) (next : α → Except Error β) :
      (Except.ok x >>= next) = next x := rfl
  unfold settings
  rw [known, timeArguments_eq, timeArguments_eq]
  cases timeText job.start with
  | error e => rfl
  | ok start =>
  cases timeText job.finish with
  | error e => rfl
  | ok finish =>
  simp only [step, Except.map]
  rw [made_eq legible.bitrate, or_made_eq fun _ => legible.rate, videoFilters_eq legible, step,
    made_eq legible.quality]
  refine congrArg Except.ok ?_
  simp only [spoken, List.flatMap_append, words_timeSettings, Value.words, List.map_append,
    apply_ite (List.flatMap Setting.words), apply_ite (List.map Value.text)]
  rfl

theorem legible_of_settings {words : List String} (h : job.settings = .ok words) :
    job.Legible := by
  unfold settings at h
  obtain ⟨codecs, -, h⟩ := exists_of_bind_ok h
  obtain ⟨start, -, h⟩ := exists_of_bind_ok h
  obtain ⟨finish, -, h⟩ := exists_of_bind_ok h
  have bitrate := legible_of_made h
  rw [made_eq bitrate] at h
  dsimp only at h
  have rate := legible_of_or_made h
  rw [or_made_eq rate] at h
  obtain ⟨filters, framed, h⟩ := exists_of_bind_ok h
  have quality := legible_of_made h
  refine ⟨bitrate, ?_, fun framing => ?_, quality⟩
  · cases null : job.options.fps.isNull with
    | false => exact rate (by simp [null])
    | true =>
        cases fps : job.options.fps with
        | null => rfl
        | _ => rw [fps] at null; cases null
  · unfold videoFilters at framed
    rw [framing] at framed
    obtain ⟨crop, hc, framed⟩ := exists_of_bind_ok framed
    obtain ⟨scale, hs, -⟩ := exists_of_bind_ok framed
    exact ⟨isLegible_of_toText hc, isLegible_of_toText hs⟩

/-- What a clip that passed the check finds among the files. -/
structure Passed (job : ClipJob) (files : Files) : Prop where
  input : files.isFileAt job.input = .ok true
  output : files.existsAt job.output = .ok false

theorem checks_of_validate (h : job.validate files = .ok ()) :
    job.Passed files ∧ job.encode.validate = .ok () := by
  have checked (found : Bool) (h : (do
      unless found do reject (.inputMissing (← job.input.toText))
      if ← files.existsAt job.output then reject (.outputExists (← job.output.toText))
      job.encode.validate
      if job.options.crop.isNull != job.options.scale.isNull then reject .cropWithoutScale :
      Except Error Unit) = .ok ()) :
      found = true ∧ files.existsAt job.output = .ok false ∧ job.encode.validate = .ok () := by
    cases found with
    | false =>
        obtain ⟨_, -, h⟩ := exists_of_bind_ok h
        obtain ⟨_, stopped, -⟩ := exists_of_bind_ok h
        cases stopped
    | true =>
        obtain ⟨taken, looked, h⟩ := exists_of_bind_ok h
        cases taken with
        | false =>
            obtain ⟨_, encodes, -⟩ := exists_of_bind_ok h
            exact ⟨rfl, looked, encodes⟩
        | true =>
            obtain ⟨_, -, h⟩ := exists_of_bind_ok h
            obtain ⟨_, stopped, -⟩ := exists_of_bind_ok h
            cases stopped
  unfold validate at h
  dsimp only at h
  split at h
  · cases (checked false h).1
  · obtain ⟨found, isFile, h⟩ := exists_of_bind_ok h
    obtain ⟨rfl, free, encodes⟩ := checked found h
    exact ⟨⟨isFile, free⟩, encodes⟩

theorem exists_codecs_of_validate (h : job.validate files = .ok ()) :
    ∃ codecs, job.encode.codecs = .ok codecs := by
  obtain ⟨codecs, known, -⟩ := exists_of_bind_ok (checks_of_validate h).2
  exact ⟨codecs, known⟩

/-- A command of the clip, with settings of the output and a destination. -/
def reading (job : ClipJob) (output : List Setting) (destination : Value) : Reading where
  globals := [.flag "-y", .flag "-hide_banner"]
  inputs := [([], job.input)]
  output
  destination

theorem words_reading (job : ClipJob) (output added : List Setting) (destination : Value) :
    globalArguments ++ Value.words ["-i"] ++ [job.input] ++ output.flatMap Setting.words ++
        added.flatMap Setting.words ++ [destination] =
      (job.reading (output ++ added) destination).words := by
  simp [Reading.words, Reading.settings, Reading.inputSettings, reading, globalArguments,
    Setting.words, Value.words]

/-- The commands with the given settings, in one pass or in two. -/
def commands (job : ClipJob) (output : List Setting) : List Invocation :=
  if job.encode.twoPass then
    [{ arguments := (job.reading (output ++ job.encode.discardSettings) nullDevice).words
       pass := .int 1 },
      { arguments := (job.reading (output ++ job.encode.passSettings "2") job.output).words
        pass := .int 2, outputPath := job.output }]
  else [{ arguments := (job.reading output job.output).words, outputPath := job.output }]

/-- What runs for a clip that passed the check is the commands with its settings, once the times
have texts. -/
theorem invocations_eq (valid : job.validate files = .ok ()) (legible : job.Legible)
    {codecs : Codecs} (known : job.encode.codecs = .ok codecs) :
    job.invocations files = do
      let start ← timeText job.start
      let finish ← timeText job.finish
      return job.commands (job.spoken codecs start finish) := by
  have spelled := settings_eq legible known
  unfold invocations baseArguments
  rw [valid]
  have stops {e : Error} (h : job.settings.map Value.words = .error e) :
      job.settings = .error e := by
    cases written : job.settings with
    | ok words => rw [written] at h; cases h
    | error e' => rw [written] at h; cases h; rfl
  -- only the texts of the times can still fail
  cases hs : timeText job.start with
  | error e =>
      rw [hs] at spelled
      rw [stops spelled]
      rfl
  | ok start =>
  cases hf : timeText job.finish with
  | error e =>
      rw [hs, hf] at spelled
      rw [stops spelled]
      rfl
  | ok finish =>
  rw [hs, hf] at spelled
  obtain ⟨words, written, same⟩ := exists_of_map_ok spelled
  rw [written]
  refine congrArg Except.ok ?_
  rw [same, commands]
  split
  · rw [twoPassInvocations_eq, job.words_reading, job.words_reading]
  · have single := job.words_reading (job.spoken codecs start finish) [] job.output
    rw [List.flatMap_nil, List.append_nil, List.append_nil] at single
    rw [single]

theorem legible_of_invocations {runs : List Invocation} (h : job.invocations files = .ok runs) :
    job.validate files = .ok () ∧ job.Legible := by
  obtain ⟨_, valid, h⟩ := exists_of_bind_ok h
  obtain ⟨base, based, -⟩ := exists_of_bind_ok h
  obtain ⟨words, written, -⟩ := exists_of_bind_ok based
  exact ⟨valid, legible_of_settings written⟩

/-- The names that take no value in a command of a clip. -/
def flags : List String := "-vn" :: Setting.flags

theorem fitsBy_flags_iff {s : Setting} : s.FitsBy flags ↔ s.Stands := by
  rw [Setting.FitsBy, Setting.Stands, flags, List.contains_cons]

/-- A setting of a clip has as many words as its name asks for, binds no input and chooses no
pass. -/
structure Plain (s : Setting) : Prop where
  stands : s.Stands
  input : s.input? = none
  pass : s.name ≠ "-pass"

theorem plain_flag {name : String} (known : name ∈ flags) (pass : name ≠ "-pass") :
    Plain (.flag name) where
  stands := fitsBy_flags_iff.mp (List.contains_iff_mem.mpr known).symm
  input := rfl
  pass

theorem plain_option {name : String} (h : name ∉ "-i" :: "-pass" :: flags) (value : Value) :
    Plain (.option name value) := by
  simp only [List.mem_cons, not_or] at h
  obtain ⟨input, pass, others⟩ := h
  refine ⟨fitsBy_flags_iff.mp ?_, if_neg input, pass⟩
  exact (Bool.eq_false_iff.mpr fun known => others (List.contains_iff_mem.mp known)).symm

/-- The names of the flags and of the options of a clip. -/
def spokenFlags : List String := ["-vn", "-an"]

def spokenOptions : List String :=
  ["-ss", "-to", "-b:v", "-preset", "-r", "-vf", "-c:a", "-c:v", "-crf"]

def IsSpoken (s : Setting) : Prop := s.name ∈ if s.isFlag then spokenFlags else spokenOptions

theorem IsSpoken.plain {s : Setting} (h : IsSpoken s) : Plain s := by
  cases s with
  | flag name =>
      have known : ∀ name ∈ spokenFlags, name ∈ flags ∧ name ≠ "-pass" := by decide
      exact plain_flag (known name h).1 (known name h).2
  | option name value =>
      have known : ∀ name ∈ spokenOptions, name ∉ "-i" :: "-pass" :: flags := by decide
      exact plain_option (known name h) value

theorem timeSettings_isSpoken {name : String} (h : name ∈ spokenOptions) (found : Option String) :
    ∀ s ∈ timeSettings name found, IsSpoken s := by
  cases found with
  | none => simp [timeSettings]
  | some text => exact List.forall_mem_singleton.mpr h

theorem spoken_isSpoken (job : ClipJob) (codecs : Codecs) (start finish : Option String) :
    ∀ s ∈ job.spoken codecs start finish, IsSpoken s := by
  have option {name : String} (h : name ∈ spokenOptions) (value : Value) :
      ∀ s ∈ [Setting.option name value], IsSpoken s := List.forall_mem_singleton.mpr h
  have flag {name : String} (h : name ∈ spokenFlags) : ∀ s ∈ [Setting.flag name], IsSpoken s :=
    List.forall_mem_singleton.mpr h
  have none : ∀ s ∈ ([] : List Setting), IsSpoken s := by simp
  have either {c : Prop} [Decidable c] {first second : List Setting} (h : ∀ s ∈ first, IsSpoken s)
      (h' : ∀ s ∈ second, IsSpoken s) : ∀ s ∈ (if c then first else second), IsSpoken s := by
    split
    · exact h
    · exact h'
  simp only [spoken, List.forall_mem_append]
  refine ⟨⟨⟨⟨⟨⟨⟨⟨⟨?_, ?_⟩, ?_⟩, ?_⟩, ?_⟩, ?_⟩, ?_⟩, ?_⟩, ?_⟩, ?_⟩
  · exact timeSettings_isSpoken (by decide) _
  · exact timeSettings_isSpoken (by decide) _
  · exact either (option (by decide) _) none
  · exact either (option (by decide) _) none
  · exact either none (option (by decide) _)
  · exact either (flag (by decide)) none
  · exact either (option (by decide) _) none
  · exact either (flag (by decide)) (option (by decide) _)
  · exact either none (option (by decide) _)
  · refine either (List.forall_mem_cons.mpr ⟨?_, option (by decide) _⟩) none
    exact option (by decide) _ _ (List.mem_singleton_self _)

theorem spoken_plain (job : ClipJob) (codecs : Codecs) (start finish : Option String) :
    ∀ s ∈ job.spoken codecs start finish, Plain s :=
  fun s hs => (spoken_isSpoken job codecs start finish s hs).plain

/-- A command whose settings have as many words as they ask for is read back. -/
theorem reads_back {output : List Setting} (h : ∀ s ∈ output, s.Stands ∧ s.input? = none)
    (destination : Value) :
    Reading.ofWordsBy? flags (job.reading output destination).words =
      some (job.reading output destination) := by
  refine Reading.ofWordsBy?_words (fun s hs => fitsBy_flags_iff.mpr ?_)
    ⟨by simp [reading, Setting.isFlag], by simp [reading], by simp [reading],
      fun s hs => (h s hs).2⟩
  rcases List.mem_append.mp hs with hs | hs
  · have begins : ∀ s ∈ [Setting.flag "-y", .flag "-hide_banner", .option "-i" job.input],
        s.Stands := by simp [Setting.Stands, Setting.isFlag, Setting.flags]
    exact begins s hs
  · exact (h s hs).1

/-- What stands behind the settings of the clip in a command: the pass and its log, and that the
output of a first pass is thrown away. -/
structure Closing (added : List Setting) : Prop where
  settings : ∀ s ∈ added, s.Stands ∧ s.input? = none
  names : ∀ s ∈ added, s.name ∈ ["-pass", "-passlogfile", "-an", "-f"]

def passNames : List String := ["-pass", "-passlogfile"]

theorem passSettings_names (e : EncodeOptions) (pass : String) :
    ∀ s ∈ e.passSettings pass, s.name ∈ passNames := by
  unfold EncodeOptions.passSettings
  split <;> simp [passNames]

theorem closing_passSettings (e : EncodeOptions) (pass : String) :
    Closing (e.passSettings pass) := by
  refine ⟨fun s hs => ?_, fun s hs => ?_⟩
  · obtain ⟨output, other⟩ := passSettings_isOutput e pass s hs
    exact ⟨output.1.stands other, output.2⟩
  · exact List.mem_append_left ["-an", "-f"] (passSettings_names e pass s hs)

theorem closing_discardSettings (e : EncodeOptions) : Closing e.discardSettings := by
  obtain ⟨settings, names⟩ := closing_passSettings e "1"
  refine ⟨List.forall_mem_append.mpr ⟨settings, ?_⟩, List.forall_mem_append.mpr ⟨names, by simp⟩⟩
  simpa using ⟨⟨rfl, rfl⟩, rfl, rfl⟩

section Commands

variable {output : List Setting} (plain : ∀ s ∈ output, Plain s)

include plain

theorem reads_back_append (job : ClipJob) {added : List Setting} (closing : Closing added)
    (destination : Value) :
    Reading.ofWordsBy? flags (job.reading (output ++ added) destination).words =
      some (job.reading (output ++ added) destination) :=
  reads_back (List.forall_mem_append.mpr
    ⟨fun s hs => ⟨(plain s hs).stands, (plain s hs).input⟩, closing.settings⟩) destination

/-- Every command is read as the settings with some end behind them. -/
theorem commands_read : ∀ i ∈ job.commands output, i.shellCommand = .null ∧
    ∃ added destination, Closing added ∧
      Reading.ofWordsBy? flags i.arguments = some (job.reading (output ++ added) destination) := by
  unfold commands
  split
  · have first := closing_discardSettings job.encode
    have second := closing_passSettings job.encode "2"
    rw [List.forall_mem_cons, List.forall_mem_singleton]
    exact ⟨⟨rfl, _, nullDevice, first, job.reads_back_append plain first nullDevice⟩,
      rfl, _, job.output, second, job.reads_back_append plain second job.output⟩
  · have closing : Closing [] := ⟨by simp, by simp⟩
    have single := job.reads_back_append plain closing job.output
    rw [List.append_nil] at single
    exact List.forall_mem_singleton.mpr ⟨rfl, [], job.output, closing, by rwa [List.append_nil]⟩

/-- The last command goes to the output of the clip, and only a pass is named at its end. -/
theorem last_command_reads (job : ClipJob) :
    ∃ i added, (job.commands output).getLast? = some i ∧ Closing added ∧
      (∀ s ∈ added, s.name ∈ passNames) ∧
      Reading.ofWordsBy? flags i.arguments = some (job.reading (output ++ added) job.output) := by
  unfold commands
  split
  · have second := closing_passSettings job.encode "2"
    exact ⟨_, _, rfl, second, passSettings_names job.encode "2",
      job.reads_back_append plain second job.output⟩
  · have closing : Closing [] := ⟨by simp, by simp⟩
    have single := job.reads_back_append plain closing job.output
    exact ⟨_, [], rfl, closing, by simp, by simpa using single⟩

end Commands

end ClipJob

end Reel
