import Reel.Proofs.Graph.Commands
import Reel.Proofs.Host.Passes

/-!
# Commands that spare files

A command overwrites its destination without asking. It spares the files of a machine if its
destination is none of them: a path that leads to nothing, or, for the first of two passes, the
device that throws everything away. Its inputs are files, or silence that is generated, so the
destination of the output is none of its inputs either.
-/
namespace Reel

/-- The setting has as many words as its name asks for. That the picture is left out is said by a
flag as well. -/
def Setting.Stands (s : Setting) : Prop := s.isFlag = (s.name == "-vn" || flags.contains s.name)

instance (s : Setting) : Decidable s.Stands := inferInstanceAs (Decidable (_ = _))

theorem Setting.Fits.stands {s : Setting} (fits : s.Fits) (other : s.name ≠ "-vn") : s.Stands := by
  have : (s.name == "-vn") = false := by simpa using other
  rw [Setting.Stands, this, Bool.false_or]
  exact fits

def silenceSettings (length : String) : List Setting := [.option "-f" "lavfi", .option "-t" length]

/-- The command says first that it overwrites its destination, and still harms none of the files. -/
structure Reading.Spares (r : Reading) (files : Files) : Prop where
  stands : ∀ s ∈ r.settings, s.Stands
  globals : r.globals = [.flag "-y", .flag "-hide_banner"]
  inputs : ∀ input ∈ r.inputs, (∀ s ∈ input.1, s.input? = none) ∧
    (files.isFileAt input.2 = .ok true ∨
      ∃ length, input = (silenceSettings length, .text silenceSource))
  output : ∀ s ∈ r.output, s.input? = none
  destination : if .option "-pass" "1" ∈ r.output then r.destination = nullDevice
    else ∃ path, r.destination = .text path ∧ files.exists? path = false

variable {α : Type} {t : Timeline α} {g : Graph α} {e : EncodeOptions} {codecs : Codecs}
  {files : Files}

/-- The end of a command that spares the files: settings of the pass, and a destination to go with
them. -/
structure SparingEnd (files : Files) (added : List Setting) (destination : Value) : Prop where
  settings : ∀ s ∈ added, s.IsOutput ∧ s.name ≠ "-vn"
  destination : if .option "-pass" "1" ∈ added then destination = nullDevice
    else ∃ path, destination = .text path ∧ files.exists? path = false

/-- Settings in front that choose no pass leave the destination to the end. -/
theorem SparingEnd.destination_append {before added : List Setting} {destination : Value}
    (h : SparingEnd files added destination) (other : .option "-pass" "1" ∉ before) :
    if .option "-pass" "1" ∈ before ++ added then destination = nullDevice
      else ∃ path, destination = .text path ∧ files.exists? path = false := by
  have same : .option "-pass" "1" ∈ before ++ added ↔ .option "-pass" "1" ∈ added := by
    simp [other]
  simpa only [same] using h.destination

theorem passSettings_isOutput (e : EncodeOptions) (pass : String) :
    ∀ s ∈ e.passSettings pass, s.IsOutput ∧ s.name ≠ "-vn" := by
  refine fun s hs => ⟨(neutral_passSettings e pass s hs).1, ?_⟩
  revert s
  unfold EncodeOptions.passSettings
  split <;> simp

/-- The settings that name the log of a pass, if a place for it is decided. -/
def EncodeOptions.logSettings (e : EncodeOptions) : List Setting :=
  if e.twoPass && !e.passLogPrefix.isNull then [.option "-passlogfile" e.passLogPrefix] else []

/-- An invocation by its words, which spare the files and name the log of the pass. -/
def Invocation.Spares (i : Invocation) (e : EncodeOptions) (files : Files) : Prop :=
  i.shellCommand = .null ∧ ∃ r : Reading, i.arguments = r.words ∧ r.Spares files ∧
    ∀ s ∈ e.logSettings, s ∈ r.output

/-- What was started from the front of a row of such invocations can be read. -/
theorem Run.FromFront.exists_reading {program : Value} {runs : List Invocation}
    {started : List (List String)} (h : FromFront program runs started)
    (spares : ∀ i ∈ runs, i.Spares e files) {words : List String} (mem : words ∈ started) :
    ∃ r : Reading, (program :: r.words).mapM Value.toText = .ok words ∧ r.Spares files ∧
      ∀ s ∈ e.logSettings, s ∈ r.output := by
  obtain ⟨front, le, each⟩ := h
  obtain ⟨k, hk, rfl⟩ := List.getElem_of_mem mem
  have bound : k < front.length := each.length_eq ▸ hk
  obtain ⟨-, r, same, spared, logs⟩ := spares front[k] (le.subset (List.getElem_mem bound))
  have written := each.get bound hk
  rw [List.get_eq_getElem, List.get_eq_getElem, Invocation.words, same] at written
  exact ⟨r, written, spared, logs⟩

/-- If words spare the files with every end that does, so do the single command or both passes
that go to a free destination. -/
theorem passes_spare {base : List Value} (e : EncodeOptions) {output : Value}
    (free : ∃ path, output = .text path ∧ files.exists? path = false)
    (h : ∀ added destination, SparingEnd files added destination →
      ∃ r : Reading, base ++ added.flatMap Setting.words ++ [destination] = r.words ∧
        r.Spares files ∧ ∀ s ∈ added, s ∈ r.output) :
    ∀ i ∈ (if e.twoPass then twoPassInvocations base output e.passLogPrefix nullDevice
      else [{ arguments := base ++ [output], outputPath := output }] : List Invocation),
      i.Spares e files := by
  split
  · next two =>
      have first : .option "-pass" "1" ∈ e.discardSettings := by
        simp [EncodeOptions.discardSettings, EncodeOptions.passSettings]
      have second : .option "-pass" "1" ∉ e.passSettings "2" := by
        unfold EncodeOptions.passSettings
        split <;> simp
      have logs (pass : String) : ∀ s ∈ e.logSettings, s ∈ e.passSettings pass := by
        unfold EncodeOptions.logSettings EncodeOptions.passSettings
        rw [two, Bool.true_and]
        cases e.passLogPrefix.isNull <;> simp
      have discards : SparingEnd files e.discardSettings nullDevice := by
        refine ⟨?_, by rw [if_pos first]⟩
        rw [EncodeOptions.discardSettings, List.forall_mem_append]
        exact ⟨passSettings_isOutput e "1", by simpa using ⟨⟨rfl, rfl⟩, rfl, rfl⟩⟩
      have writes : SparingEnd files (e.passSettings "2") output :=
        ⟨passSettings_isOutput e "2", by rwa [if_neg second]⟩
      obtain ⟨r, words, spares, mem⟩ := h _ _ discards
      obtain ⟨r', words', spares', mem'⟩ := h _ _ writes
      rw [twoPassInvocations_eq, List.forall_mem_cons, List.forall_mem_singleton]
      exact ⟨⟨rfl, r, words, spares, fun s hs => mem s (List.mem_append_left _ (logs "1" s hs))⟩,
        rfl, r', words', spares', fun s hs => mem' s (logs "2" s hs)⟩
  · next one =>
      obtain ⟨r, words, spares, -⟩ := h [] output ⟨by simp, by simpa using free⟩
      rw [List.flatMap_nil, List.append_nil] at words
      refine List.forall_mem_singleton.mpr ⟨rfl, r, words, spares, ?_⟩
      simp [EncodeOptions.logSettings, one]

/-- Every input of a compiled graph is a segment, an audio item that is used, or silence. -/
inductive Binding.From [Seconds α] (t : Timeline α) (b : Binding) : Prop
  | segment {s : Segment α} : s ∈ t.segments → b.path = s.path → From t b
  | item {items : List (AudioItem α)} {item : AudioItem α} : t.useTrackAudio = false →
      t.audioSequence = .ok items → item ∈ items → b.path = item.path → From t b
  | silence (length : String) : b.path = silenceSource → b.options = ["-f", "lavfi", "-t", length] →
      From t b

section From

variable [Seconds α]

theorem Segments.path_mem {p : Picture} {own : Bool} {i : Nat} {segments : List (Segment α)}
    {bs : List Binding} {ns : List (Node α)} {pictures sounds : List Label}
    (h : Segments p own i segments bs ns pictures sounds) :
    ∀ b ∈ bs, ∃ s ∈ segments, b.path = s.path := by
  induction h with
  | nil => simp
  | cons hp _ _ ih =>
      obtain ⟨options, -, rfl⟩ := hp.binding
      refine List.forall_mem_cons.mpr ⟨⟨_, List.mem_cons_self .., rfl⟩, fun b hb => ?_⟩
      obtain ⟨s, hs, path⟩ := ih b hb
      exact ⟨s, List.mem_cons_of_mem _ hs, path⟩

theorem Items.path_mem {transition : Option α} {i input : Nat} {items : List (AudioItem α)}
    {bs : List Binding} {ns : List (Node α)} {labels : List Label}
    (h : Items transition i input items bs ns labels) :
    ∀ b ∈ bs, ∃ item ∈ items, b.path = item.path := by
  induction h with
  | nil => simp
  | cons hi _ ih =>
      refine List.forall_mem_cons.mpr ⟨⟨_, List.mem_cons_self .., ?_⟩, fun b hb => ?_⟩
      · rw [hi.binding]
      · obtain ⟨item, hi, path⟩ := ih b hb
        exact ⟨item, List.mem_cons_of_mem _ hi, path⟩

theorem Soundtrack.input_from {T : α} {offsets : List α} {input : Nat} {sounds : List Label}
    {duration : α} {bs : List Binding} {ns : List (Node α)} {l : Label}
    (h : Soundtrack t T offsets input sounds duration bs ns l) : ∀ b ∈ bs, b.From t := by
  cases h with
  | own => simp
  | items policy sequence _ items _ =>
      intro b hb
      obtain ⟨item, hi, path⟩ := items.path_mem b hb
      exact .item policy sequence hi path
  | silence _ _ _ bound =>
      obtain ⟨length, -, rfl⟩ := bound
      exact List.forall_mem_singleton.mpr (.silence length rfl rfl)

theorem Assembly.input_from (a : Assembly t g) : ∀ b ∈ g.inputs, b.From t := by
  rw [a.inputs_eq, List.forall_mem_append]
  refine ⟨fun b hb => ?_, a.soundtrack.input_from⟩
  obtain ⟨s, hs, path⟩ := a.segments.path_mem b hb
  exact .segment hs path

end From

theorem Binding.Shaped.optionPairs_name {b : Binding} (h : b.Shaped) :
    ∀ s ∈ optionPairs b.options, s.name ≠ "-vn" := by
  cases h with
  | plain h => simp [h, optionPairs]
  | still text h => simp +decide [h, optionPairs]
  | generated text h => simp +decide [h, optionPairs]

theorem RateControl.name {codec : String} {rate : List Setting} (h : RateControl e codec rate) :
    ∀ s ∈ rate, s.name ≠ "-vn" ∧ s.name ≠ "-pass" := by
  cases h <;> simp +decide

namespace Graph

theorem outputSettings_name (g : Graph α) (text : String) {rate : List Setting}
    (control : RateControl e codecs.video rate) :
    ∀ s ∈ g.outputSettings e codecs text rate, s.name ≠ "-vn" ∧ s.name ≠ "-pass" := by
  have sound : g.soundSetting.name ≠ "-vn" ∧ g.soundSetting.name ≠ "-pass" := by
    unfold soundSetting
    split
    · decide
    · exact ⟨by simp, by simp⟩
  simp only [outputSettings, encodingSettings, soundCodec, List.forall_mem_append]
  refine ⟨?_, ⟨⟨⟨?_, ?_⟩, control.name⟩, ?_⟩, ?_⟩
  · simpa +decide using sound
  · simp +decide
  · split <;> simp +decide
  · split <;> simp +decide
  · split <;> simp +decide

/-- A graph whose inputs are files, or generated silence, spares the files if its end does. -/
theorem Bound.spares (h : g.Bound) (text : String) {rate added : List Setting}
    (control : RateControl e codecs.video rate) {destination : Value}
    (inputs : ∀ b ∈ g.inputs, files.isFileAt b.path = .ok true ∨
      ∃ length, b.path = .text silenceSource ∧ b.options = ["-f", "lavfi", "-t", length])
    (ends : SparingEnd files added destination) :
    (g.reading (g.outputSettings e codecs text rate ++ added) destination).Spares files := by
  have isOutput : ∀ s ∈ g.outputSettings e codecs text rate ++ added, s.IsOutput := by
    rw [List.forall_mem_append]
    exact ⟨outputSettings_isOutput control.isOutput, fun s hs => (ends.settings s hs).1⟩
  have sorted : (g.reading (g.outputSettings e codecs text rate ++ added) destination).Sorted :=
    reading_sorted h.nonempty h.shaped isOutput
  have outputs := g.outputSettings_name text control
  refine ⟨fun s hs => (sorted.fits s hs).stands ?_, rfl, ?_, sorted.output, ?_⟩
  · rcases List.mem_append.mp hs with hs | hs
    · rcases List.mem_append.mp hs with hs | hs
      · have globals : ∀ s ∈ [Setting.flag "-y", .flag "-hide_banner"], s.name ≠ "-vn" := by decide
        exact globals s hs
      · obtain ⟨input, hi, hs⟩ := List.mem_flatMap.mp hs
        obtain ⟨b, hb, rfl⟩ := List.mem_map.mp hi
        rcases List.mem_append.mp hs with hs | hs
        · exact (h.shaped b hb).optionPairs_name s hs
        · obtain rfl := List.mem_singleton.mp hs
          simp
    · rcases List.mem_append.mp hs with hs | hs
      · exact (outputs s hs).1
      · exact (ends.settings s hs).2
  · intro input hi
    refine ⟨fun s hs => (sorted.inputs input hi s hs).2, ?_⟩
    obtain ⟨b, hb, rfl⟩ := List.mem_map.mp hi
    rcases inputs b hb with isFile | ⟨length, path, options⟩
    · exact .inl isFile
    · exact .inr ⟨length, by rw [path, options]; rfl⟩
  · exact ends.destination_append fun mem => (outputs _ mem).2 rfl

end Graph

end Reel
