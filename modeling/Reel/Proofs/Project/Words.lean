import Reel.Proofs.Project.Spared
import Reel.Proofs.Shell.Words

/-!
# Commands of projects as words

A command line is made of words that are texts, and absent values are written as empty words. All
words of a compiled project are texts if its settings are, but for paths that are bytes, which no
line can hold. So a line that could be written is cut back into the words that are started.
-/
namespace Reel

/-- A value that is written as itself or not at all. -/
def Value.Wordy (v : Value) : Prop :=
  (∃ s, v = .text s) ∨ ∃ content, v = .bytes content ∧ content ≠ []

theorem Value.wordy_text (s : String) : (Value.text s).Wordy := .inl ⟨s, rfl⟩

theorem Value.wordy_words (texts : List String) : ∀ v ∈ Value.words texts, v.Wordy := by
  simp [Value.words, Value.wordy_text]

namespace Invocation

variable {program : Value} {i : Invocation} {line : String}

theorem eq_of_word {v : Value} {w : String} (wordy : v.Wordy) (h : word v = .ok w) :
    v = .text w := by
  rcases wordy with ⟨s, rfl⟩ | ⟨content, rfl, nonempty⟩
  · rw [Except.ok.inj h]
  · have full : content.isEmpty = false := by simpa using nonempty
    simp [word, Value.truthy, full] at h

theorem eq_of_mapM_word {vs : List Value} {ws : List String} (wordy : ∀ v ∈ vs, v.Wordy)
    (h : vs.mapM word = .ok ws) : vs = Value.words ws := by
  have each := forall₂_of_mapM h
  clear h
  induction each with
  | nil => rfl
  | cons first _ ih =>
      rw [List.forall_mem_cons] at wordy
      rw [eq_of_word wordy.1 first, ih wordy.2]
      rfl

theorem words_eq (ws : List String) : (Value.words ws).mapM Value.toText = .ok ws := by
  induction ws with
  | nil => rfl
  | cons w rest ih =>
      rw [Value.words, List.map_cons, List.mapM_cons, ← Value.words, ih]
      rfl

/-- A line is cut back into the words that would be started. -/
theorem split?_commandLine (plain : i.shellCommand = .null)
    (wordy : ∀ v ∈ program :: i.arguments, v.Wordy) (h : i.commandLine program = .ok line) :
    ∃ ws, program :: i.arguments = Value.words ws ∧ i.words program = .ok ws ∧
      Shell.split? line = some ws := by
  rw [commandLine, plain] at h
  obtain ⟨ws, written, h⟩ := exists_of_bind_ok h
  obtain rfl := Except.ok.inj h
  have same := eq_of_mapM_word wordy written
  exact ⟨ws, same, by rw [words, same, words_eq], Shell.split?_join ws⟩

end Invocation

/-- All words of the setting are written as themselves or not at all. -/
def Setting.Wordy (s : Setting) : Prop := ∀ v ∈ s.words, v.Wordy

@[simp] theorem Setting.wordy_flag (name : String) : (flag name).Wordy := by
  simp [Wordy, words, Value.wordy_text]

@[simp] theorem Setting.wordy_option (name : String) (value : Value) :
    (option name value).Wordy ↔ value.Wordy := by
  simp [Wordy, words, Value.wordy_text]

/-- The options that are handed on as they are given are texts, or absent. -/
structure EncodeOptions.Textual (e : EncodeOptions) : Prop where
  preset : ∃ s, e.preset = .text s
  audioBitrate : ∃ s, e.audioBitrate = .text s
  log : e.passLogPrefix = .null ∨ ∃ s, e.passLogPrefix = .text s

namespace EncodeOptions.Textual

variable {e : EncodeOptions}

theorem effectivePreset_wordy (h : e.Textual) : e.effectivePreset.Wordy := by
  unfold effectivePreset
  split
  · exact Value.wordy_text _
  · exact .inl h.preset

theorem passSettings_wordy (h : e.Textual) (pass : String) :
    ∀ s ∈ e.passSettings pass, s.Wordy := by
  unfold passSettings
  rcases h.log with absent | ⟨log, given⟩
  · simp [absent, Value.isNull, Value.wordy_text]
  · simp [given, Value.isNull, Value.wordy_text]

theorem discardSettings_wordy (h : e.Textual) : ∀ s ∈ e.discardSettings, s.Wordy := by
  rw [discardSettings, List.forall_mem_append]
  exact ⟨h.passSettings_wordy "1", by simp [Value.wordy_text]⟩

end EncodeOptions.Textual

section Graph

variable {α : Type} {g : Graph α} {e : EncodeOptions} {codecs : Codecs} {text : String}
  {rate : List Setting}

theorem RateControl.wordy {codec : String} (h : RateControl e codec rate) :
    ∀ s ∈ rate, s.Wordy := by
  cases h <;> simp [Value.wordy_text]

theorem Graph.outputSettings_wordy (g : Graph α) (text : String) (textual : e.Textual)
    (control : RateControl e codecs.video rate) :
    ∀ s ∈ g.outputSettings e codecs text rate, s.Wordy := by
  have sound : g.soundSetting.Wordy := by
    unfold soundSetting
    split <;> simp [Value.wordy_text]
  have bitrate : e.audioBitrate.Wordy := .inl textual.audioBitrate
  simp only [outputSettings, encodingSettings, soundCodec, List.forall_mem_append]
  refine ⟨?_, ⟨⟨⟨?_, ?_⟩, control.wordy⟩, ?_⟩, ?_⟩
  · simpa [Value.wordy_text] using sound
  · simp [Value.wordy_text]
  · split <;> simp [Value.wordy_text, textual.effectivePreset_wordy]
  · split <;> simp [Value.wordy_text, bitrate]
  · split <;> simp [Value.wordy_text]

/-- The settings behind those of the output, and where they send it. -/
inductive PassEnd (e : EncodeOptions) (output : Value) : List Setting → Value → Prop
  | whole : PassEnd e output [] output
  | first : PassEnd e output e.discardSettings nullDevice
  | second : PassEnd e output (e.passSettings "2") output

/-- A single command and both passes are the same words with different ends. -/
theorem exists_passEnd {base : List Value} {output : Value} :
    ∀ i ∈ (if e.twoPass then twoPassInvocations base output e.passLogPrefix nullDevice
      else [{ arguments := base ++ [output], outputPath := output }] : List Invocation),
      i.shellCommand = .null ∧ ∃ added destination, PassEnd e output added destination ∧
        i.arguments = base ++ added.flatMap Setting.words ++ [destination] := by
  split
  · rw [twoPassInvocations_eq, List.forall_mem_cons, List.forall_mem_singleton]
    exact ⟨⟨rfl, _, _, .first, rfl⟩, rfl, _, _, .second, rfl⟩
  · exact List.forall_mem_singleton.mpr ⟨rfl, [], output, .whole, by simp⟩

theorem PassEnd.wordy {output destination : Value} {added : List Setting}
    (h : PassEnd e output added destination) (textual : e.Textual) (free : output.Wordy) :
    (∀ s ∈ added, s.Wordy) ∧ destination.Wordy := by
  cases h with
  | whole => exact ⟨by simp, free⟩
  | first => exact ⟨textual.discardSettings_wordy, Value.wordy_text _⟩
  | second => exact ⟨textual.passSettings_wordy "2", free⟩

theorem PassEnd.neutral {output destination : Value} {added : List Setting}
    (h : PassEnd e output added destination) :
    Graph.Neutral added ∧ added.filter (Setting.among ["-filter_complex"]) = [] := by
  have pass (name : String) :
      (e.passSettings name).filter (Setting.among ["-filter_complex"]) = [] := by
    unfold EncodeOptions.passSettings
    split <;> rfl
  cases h with
  | whole => exact ⟨by simp [Graph.Neutral], rfl⟩
  | first =>
      refine ⟨neutral_discardSettings e, ?_⟩
      rw [EncodeOptions.discardSettings, List.filter_append, pass]
      rfl
  | second => exact ⟨neutral_passSettings e "2", pass "2"⟩

theorem RateControl.filter_graph {codec : String} (h : RateControl e codec rate) :
    rate.filter (Setting.among ["-filter_complex"]) = [] := by
  cases h <;> rfl

theorem Graph.filter_graph (g : Graph α) (text : String)
    (control : RateControl e codecs.video rate) :
    (g.outputSettings e codecs text rate).filter (Setting.among ["-filter_complex"]) =
      [.option "-filter_complex" text] := by
  have sound : g.soundSetting.name = "-an" ∨ g.soundSetting.name = "-map" := by
    unfold soundSetting
    split
    · exact .inl rfl
    · exact .inr rfl
  simp only [outputSettings, encodingSettings, soundCodec, List.filter_append,
    control.filter_graph, apply_ite (List.filter _)]
  rcases sound with h | h <;> simp [Setting.among, h]

theorem Graph.baseWords_wordy (g : Graph α) (text : String) (textual : e.Textual)
    (control : RateControl e codecs.video rate) (paths : ∀ b ∈ g.inputs, b.path.Wordy) :
    ∀ v ∈ g.baseWords e codecs text rate, v.Wordy := by
  rw [baseWords, List.forall_mem_append, List.forall_mem_append]
  refine ⟨⟨Value.wordy_words ["-y", "-hide_banner"], fun v hv => ?_⟩, fun v hv => ?_⟩
  · obtain ⟨b, hb, hv⟩ := List.mem_flatMap.mp hv
    rcases List.mem_append.mp hv with hv | hv
    · exact Value.wordy_words _ v hv
    · rw [List.mem_singleton.mp hv]
      exact paths b (List.mem_mergeSort.mp hb)
  · obtain ⟨s, hs, hv⟩ := List.mem_flatMap.mp hv
    exact g.outputSettings_wordy text textual control s hs v hv

/-- A graph's command with any of the ends is words, and is read back with the text of the graph
in one setting. -/
theorem Graph.Bound.reads_graph (h : g.Bound) (text : String)
    (control : RateControl e codecs.video rate) {output destination : Value}
    {added : List Setting} (ends : PassEnd e output added destination) :
    ∃ r, Reading.ofWords?
        (g.baseWords e codecs text rate ++ added.flatMap Setting.words ++ [destination]) = some r ∧
      r.output.filter (Setting.among ["-filter_complex"]) = [.option "-filter_complex" text] := by
  obtain ⟨neutral, others⟩ := ends.neutral
  rw [h.words_reading, Reading.ofWords?_words (h.sorted text control neutral destination)]
  refine ⟨_, rfl, ?_⟩
  rw [reading, List.filter_append, g.filter_graph text control, others]
  rfl

end Graph

namespace Project

variable {p : Project} {files : Files} {c : Compilation}

/-- The settings of a project that are handed to the encoder are texts, or absent. -/
structure Textual (p : Project) : Prop where
  program : ∃ s, p.settings.ffmpeg = .text s
  encoder : p.encoderProgram = p.settings.ffmpeg
  encode : p.encode.Textual
  goes : p.GoesByPath

theorem Textual.passEncode (h : p.Textual) {output : Value} {e : EncodeOptions}
    (placed : p.passEncode output = .ok e) : e.Textual := by
  rcases passEncode_eq placed with same | ⟨-, log, -, same⟩
  · exact same ▸ h.encode
  · exact same ▸ { h.encode with log := .inr ⟨log, rfl⟩ }

theorem wordy_of_isFile {v : Value} (h : files.isFileAt v = .ok true) : v.Wordy := by
  unfold Files.isFileAt at h
  split at h
  · exact .inl ⟨_, rfl⟩
  · next content =>
      refine .inr ⟨content, rfl, ?_⟩
      rintro rfl
      cases h
  · cases h
  · next n =>
      cases stream : Files.isStream n with
      | error e => simp [stream, Except.map] at h
      | ok b => simp [stream, Except.map] at h
  · cases h

/-- All words of a compiled project are texts, or bytes, and every command is read back with the
text of the graph in one setting. -/
theorem Compiles.words (h : p.Compiles files c) (textual : p.Textual) :
    ∃ text, c.graph.filterComplex = .ok text ∧ ∀ i ∈ c.invocations, i.shellCommand = .null ∧
      (∀ v ∈ i.arguments, v.Wordy) ∧ ∃ r, Reading.ofWords? i.arguments = some r ∧
        r.output.filter (Setting.among ["-filter_complex"]) =
          [.option "-filter_complex" text] := by
  obtain ⟨a⟩ := assembly_of_build h.built
  obtain ⟨codecs, hc, -⟩ := exists_of_bind_ok h.valid
  obtain ⟨text, rate, written, control, runs⟩ :=
    (Graph.invocations_eq_ok_iff h.valid hc).mp h.written
  have encode : c.encode.Textual := textual.passEncode h.encode
  have paths : ∀ b ∈ c.graph.inputs, b.path.Wordy := by
    intro b hb
    rcases h.inputs b hb with isFile | ⟨length, path, -⟩
    · exact wordy_of_isFile isFile
    · exact path ▸ Value.wordy_text _
  obtain ⟨path, output, -⟩ := h.passed.output_free textual.goes h.output
  refine ⟨text, written, fun i hi => ?_⟩
  rw [runs] at hi
  obtain ⟨plain, added, destination, ends, arguments⟩ := exists_passEnd i hi
  obtain ⟨settings, last⟩ := ends.wordy encode (.inl ⟨path, output⟩)
  refine ⟨plain, ?_, ?_⟩
  · rw [arguments, List.forall_mem_append, List.forall_mem_append, List.forall_mem_singleton]
    refine ⟨⟨c.graph.baseWords_wordy text encode control paths, fun v hv => ?_⟩, last⟩
    obtain ⟨s, hs, hv⟩ := List.mem_flatMap.mp hv
    exact settings s hs v hv
  · rw [arguments]
    exact a.bound.reads_graph text control ends

end Project

end Reel
