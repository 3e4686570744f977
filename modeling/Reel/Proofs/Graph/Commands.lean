import Reel.Proofs.Graph.Arity
import Reel.Proofs.Graph.WellFormed

/-!
# Commands say what the graph says

The words of a command are read by arity, so a path that looks like an option is still read as a
path. Read like that, a compiled graph's command binds every input under the number that the
graph's text names it by, however the inputs were listed; it takes out what the graph gives, in
the codecs that were asked for, with one setting of the quality. A two-pass encode is such a
command twice, alike up to the pass.
-/
namespace Reel

open Build

variable {α : Type} {t : Timeline α} {g : Graph α} {e : EncodeOptions} {codecs : Codecs}

/-- The words in front of an input, as options with their values. -/
def optionPairs : List String → List Setting
  | name :: value :: rest => .option name value :: optionPairs rest
  | _ => []

/-- How an input is bound: as it is, as a still image for some time, or as a generated source. -/
inductive Binding.Shaped : Binding → Prop
  | plain {b : Binding} : b.options = [] → Shaped b
  | still {b : Binding} (text : String) : b.options = ["-loop", "1", "-t", text] → Shaped b
  | generated {b : Binding} (text : String) : b.options = ["-f", "lavfi", "-t", text] → Shaped b

namespace Binding.Shaped

variable {b : Binding}

theorem words_optionPairs (h : b.Shaped) :
    (optionPairs b.options).flatMap Setting.words = Value.words b.options := by
  cases h with
  | plain h => rw [h]; rfl
  | still text h => rw [h]; rfl
  | generated text h => rw [h]; rfl

theorem optionPairs_read (h : b.Shaped) : ∀ s ∈ optionPairs b.options,
    s.Fits ∧ s.isFlag = false ∧ s.input? = none := by
  cases h with
  | plain h => simp [h, optionPairs]
  | still text h =>
      simp +decide [h, optionPairs, Setting.FitsBy, Setting.isFlag, Setting.input?, Setting.name]
  | generated text h =>
      simp +decide [h, optionPairs, Setting.FitsBy, Setting.isFlag, Setting.input?, Setting.name]

end Binding.Shaped

section Shapes

variable [Seconds α]

theorem Segments.shaped {p : Picture} {own : Bool} {i : Nat} {segments : List (Segment α)}
    {bs : List Binding} {ns : List (Node α)} {pictures sounds : List Label}
    (h : Segments p own i segments bs ns pictures sounds) : ∀ b ∈ bs, b.Shaped := by
  induction h with
  | nil => simp
  | @cons i s b n ms rest bs ns pictures sounds hp _ _ ih =>
      obtain ⟨options, ho, rfl⟩ := hp.binding
      refine List.forall_mem_cons.mpr ⟨?_, ih⟩
      unfold segmentOptions at ho
      split at ho
      · obtain ⟨text, -, ho⟩ := exists_of_bind_ok ho
        exact .still text (Except.ok.inj ho).symm
      · exact .plain (Except.ok.inj ho).symm

theorem Items.shaped {transition : Option α} {i input : Nat} {items : List (AudioItem α)}
    {bs : List Binding} {ns : List (Node α)} {labels : List Label}
    (h : Items transition i input items bs ns labels) : ∀ b ∈ bs, b.Shaped := by
  induction h with
  | nil => simp
  | cons hi _ ih =>
      refine List.forall_mem_cons.mpr ⟨?_, ih⟩
      rw [hi.binding]
      exact .plain rfl

theorem Soundtrack.shaped {T : α} {offsets : List α} {input : Nat} {sounds : List Label}
    {duration : α} {bs : List Binding} {ns : List (Node α)} {l : Label}
    (h : Soundtrack t T offsets input sounds duration bs ns l) : ∀ b ∈ bs, b.Shaped := by
  cases h with
  | own => simp
  | items _ _ _ items _ => exact items.shaped
  | silence k _ _ bound =>
      obtain ⟨text, -, rfl⟩ := bound
      exact List.forall_mem_singleton.mpr (.generated text rfl)

theorem Assembly.shaped (a : Assembly t g) : ∀ b ∈ g.inputs, b.Shaped := by
  rw [a.inputs_eq, List.forall_mem_append]
  exact ⟨a.segments.shaped, a.soundtrack.shaped⟩

end Shapes

/-- The one setting of the quality: the bitrate of two passes, or a constant quality in the way
that the codec has it. -/
inductive RateControl (e : EncodeOptions) (codec : String) : List Setting → Prop
  | bitrate {rate : String} : e.twoPass = true → e.videoBitrate.toText = .ok rate →
      RateControl e codec [.option "-b:v" rate]
  | vp9 {factor : String} : e.twoPass = false → codec = "libvpx-vp9" →
      e.vp9Crf.toText = .ok factor →
      RateControl e codec [.option "-crf" factor, .option "-b:v" "0"]
  | quantizer {scale : String} : e.twoPass = false → codec = "mpeg4" →
      e.qscale.toText = .ok scale → RateControl e codec [.option "-q:v" scale]
  | factor {factor : String} : e.twoPass = false → codec ≠ "libvpx-vp9" → codec ≠ "mpeg4" →
      e.crf.toText = .ok factor → RateControl e codec [.option "-crf" factor]

theorem rateArguments_eq_ok_iff {given : List Value} :
    Graph.rateArguments e codecs = .ok given ↔
      ∃ rate, RateControl e codecs.video rate ∧ given = rate.flatMap Setting.words := by
  constructor
  · intro h
    unfold Graph.rateArguments at h
    split at h
    · next two =>
        obtain ⟨rate, hr, h⟩ := exists_of_bind_ok h
        exact ⟨_, .bitrate two hr, (Except.ok.inj h).symm⟩
    · next single =>
        rw [Bool.not_eq_true] at single
        split at h
        · next vp9 =>
            obtain ⟨factor, hf, h⟩ := exists_of_bind_ok h
            exact ⟨_, .vp9 single vp9 hf, (Except.ok.inj h).symm⟩
        · next other =>
            split at h
            · next mpeg4 =>
                obtain ⟨scale, hs, h⟩ := exists_of_bind_ok h
                exact ⟨_, .quantizer single mpeg4 hs, (Except.ok.inj h).symm⟩
            · next neither =>
                obtain ⟨factor, hf, h⟩ := exists_of_bind_ok h
                exact ⟨_, .factor single other neither hf, (Except.ok.inj h).symm⟩
  · rintro ⟨rate, hr, rfl⟩
    unfold Graph.rateArguments
    cases hr with
    | bitrate two hr => rw [if_pos two, hr]; rfl
    | vp9 single vp9 hf => rw [if_neg (by simp [single]), if_pos vp9, hf]; rfl
    | quantizer single mpeg4 hs =>
        rw [if_neg (by simp [single]), if_neg (by simp [mpeg4]), if_pos mpeg4, hs]
        rfl
    | factor single other neither hf =>
        rw [if_neg (by simp [single]), if_neg other, if_neg neither, hf]
        rfl

/-- A setting of the output: it is written as its name is read, and binds no input. -/
def Setting.IsOutput (s : Setting) : Prop := s.Fits ∧ s.input? = none

theorem RateControl.isOutput {codec : String} {rate : List Setting}
    (h : RateControl e codec rate) : ∀ s ∈ rate, s.IsOutput := by
  cases h with
  | bitrate => simpa using ⟨rfl, rfl⟩
  | vp9 => simpa using ⟨⟨rfl, rfl⟩, rfl, rfl⟩
  | quantizer => simpa using ⟨rfl, rfl⟩
  | factor => simpa using ⟨rfl, rfl⟩

namespace Graph

/-- The setting that takes out the sound, or says that there is none. -/
def soundSetting (g : Graph α) : Setting :=
  match g.audio with
  | none => .flag "-an"
  | some sound => .option "-map" sound.pad

/-- How the sound is encoded, if there is any. -/
def soundCodec (g : Graph α) (e : EncodeOptions) (codecs : Codecs) : List Setting :=
  if g.audio.isSome then [.option "-c:a" codecs.audio, .option "-b:a" e.audioBitrate] else []

/-- How picture and sound are encoded, with a setting of the quality. -/
def encodingSettings (g : Graph α) (e : EncodeOptions) (codecs : Codecs) (rate : List Setting) :
    List Setting :=
  [.flag "-shortest", .option "-c:v" codecs.video, .option "-pix_fmt" "yuv420p"] ++
    (if codecs.video = "libx264" then
      [.option "-profile:v" "high", .option "-level" "4.0", .option "-preset" e.effectivePreset]
    else []) ++
    rate ++ g.soundCodec e codecs ++
    (if e.outputFormat = "mp4" then [.option "-movflags" "+faststart"] else [])

def outputSettings (g : Graph α) (e : EncodeOptions) (codecs : Codecs) (text : String)
    (rate : List Setting) : List Setting :=
  [.option "-filter_complex" text, .option "-map" g.video.pad, g.soundSetting] ++
    g.encodingSettings e codecs rate

/-- The command that writes a graph, with some more settings and a destination. -/
def reading (g : Graph α) (output : List Setting) (destination : Value) : Reading where
  globals := [.flag "-y", .flag "-hide_banner"]
  inputs := g.inputs.map fun b => (optionPairs b.options, b.path)
  output
  destination

theorem encodingSettings_isOutput {rate : List Setting} (h : ∀ s ∈ rate, s.IsOutput) :
    ∀ s ∈ g.encodingSettings e codecs rate, s.IsOutput := by
  simp only [encodingSettings, soundCodec, List.forall_mem_append]
  refine ⟨⟨⟨⟨?_, ?_⟩, h⟩, ?_⟩, ?_⟩
  · simpa using ⟨⟨rfl, rfl⟩, ⟨rfl, rfl⟩, rfl, rfl⟩
  · split
    · simpa using ⟨⟨rfl, rfl⟩, ⟨rfl, rfl⟩, rfl, rfl⟩
    · simp
  · split
    · simpa using ⟨⟨rfl, rfl⟩, rfl, rfl⟩
    · simp
  · split
    · simpa using ⟨rfl, rfl⟩
    · simp

theorem outputSettings_isOutput {text : String} {rate : List Setting}
    (h : ∀ s ∈ rate, s.IsOutput) :
    ∀ s ∈ g.outputSettings e codecs text rate, s.IsOutput := by
  have sound : g.soundSetting.IsOutput := by
    unfold soundSetting
    split
    · exact ⟨rfl, rfl⟩
    · exact ⟨rfl, rfl⟩
  rw [outputSettings, List.forall_mem_append]
  refine ⟨?_, encodingSettings_isOutput h⟩
  simpa using ⟨⟨rfl, rfl⟩, ⟨rfl, rfl⟩, sound⟩

theorem reading_sorted {output : List Setting} {destination : Value}
    (bound : g.inputs ≠ []) (shaped : ∀ b ∈ g.inputs, b.Shaped)
    (h : ∀ s ∈ output, s.IsOutput) : (g.reading output destination).Sorted where
  fits := by
    simp only [Reading.settings, reading, List.forall_mem_append]
    refine ⟨⟨by decide, ?_⟩, fun s hs => (h s hs).1⟩
    intro s hs
    obtain ⟨input, hi, hs⟩ := List.mem_flatMap.mp hs
    obtain ⟨b, hb, rfl⟩ := List.mem_map.mp hi
    rcases List.mem_append.mp hs with hs | hs
    · exact ((shaped b hb).optionPairs_read s hs).1
    · obtain rfl := List.mem_singleton.mp hs
      rfl
  globals := by simp [reading, Setting.isFlag]
  bound := by simpa [reading] using bound
  inputs := by
    intro input hi s hs
    obtain ⟨b, hb, rfl⟩ := List.mem_map.mp hi
    exact ((shaped b hb).optionPairs_read s hs).2
  output s hs := (h s hs).2

/-- However the inputs are listed, they are bound in the order of their indices. -/
theorem mergeSort_inputs (numbered : g.inputs.map Binding.index = List.range g.inputs.length)
    {inputs : List Binding} (perm : inputs.Perm g.inputs) :
    (inputs.mergeSort fun a b => decide (a.index ≤ b.index)) = g.inputs := by
  have ascending : g.inputs.Pairwise fun a b => decide (a.index ≤ b.index) = true := by
    have range := List.pairwise_lt_range (n := g.inputs.length)
    rw [← numbered, List.pairwise_map] at range
    exact range.imp fun lt => decide_eq_true (Nat.le_of_lt lt)
  have sorted : (inputs.mergeSort fun a b => decide (a.index ≤ b.index)).Pairwise
      fun a b => decide (a.index ≤ b.index) = true :=
    List.pairwise_mergeSort (fun a b c => by simpa using Nat.le_trans)
      (fun a b => by simpa using Nat.le_total ..) inputs
  refine ((List.mergeSort_perm ..).trans perm).eq_of_pairwise ?_ sorted ascending
  intro a b ha hb le ge
  have distinct : (g.inputs.map Binding.index).Nodup := numbered ▸ List.nodup_range
  have same : a.index = b.index := by
    simp only [decide_eq_true_eq] at le ge
    omega
  have ha := perm.mem_iff.mp (List.mem_mergeSort.mp ha)
  exact List.inj_on_of_nodup_map distinct ha hb same

theorem inputArguments_eq (numbered : g.inputs.map Binding.index = List.range g.inputs.length)
    (shaped : ∀ b ∈ g.inputs, b.Shaped) :
    g.inputArguments =
      ((g.inputs.map fun b => (optionPairs b.options, b.path)).flatMap
        Reading.inputSettings).flatMap Setting.words := by
  rw [inputArguments, mergeSort_inputs numbered (.refl _), List.flatMap_map, List.flatMap_assoc]
  refine List.flatMap_congr fun b hb => ?_
  rw [Binding.arguments, Reading.inputSettings, List.flatMap_append,
    (shaped b hb).words_optionPairs]
  simp [Value.words, Setting.words]

theorem mapArguments_eq :
    g.mapArguments = [.option "-map" g.video.pad, g.soundSetting].flatMap Setting.words := by
  unfold mapArguments soundSetting
  cases g.audio <;> rfl

theorem encodingArguments_eq_ok_iff {given : List Value} :
    g.encodingArguments e codecs = .ok given ↔ ∃ rate, RateControl e codecs.video rate ∧
      given = (g.encodingSettings e codecs rate).flatMap Setting.words := by
  have settings (rate : List Setting) :
      Value.words ["-shortest", "-c:v", codecs.video, "-pix_fmt", "yuv420p"] ++
          (if codecs.video = "libx264" then
            Value.words ["-profile:v", "high", "-level", "4.0", "-preset"] ++ [e.effectivePreset]
          else []) ++
          rate.flatMap Setting.words ++
          (if g.audio.isSome then Value.words ["-c:a", codecs.audio, "-b:a"] ++ [e.audioBitrate]
          else []) ++
          (if e.outputFormat = "mp4" then Value.words ["-movflags", "+faststart"] else []) =
        (g.encodingSettings e codecs rate).flatMap Setting.words := by
    simp only [encodingSettings, soundCodec, List.flatMap_append]
    congr 1
    · congr 1
      · congr 1
        congr 1
        split <;> rfl
      · split <;> rfl
    · split <;> rfl
  constructor
  · intro h
    obtain ⟨words, hr, h⟩ := exists_of_bind_ok h
    obtain ⟨rate, control, rfl⟩ := rateArguments_eq_ok_iff.mp hr
    exact ⟨rate, control, (Except.ok.inj h).symm.trans (settings rate)⟩
  · rintro ⟨rate, control, rfl⟩
    rw [← settings rate, encodingArguments, rateArguments_eq_ok_iff.mpr ⟨rate, control, rfl⟩]
    rfl

def baseWords (g : Graph α) (e : EncodeOptions) (codecs : Codecs) (text : String)
    (rate : List Setting) : List Value :=
  globalArguments ++ g.inputArguments ++
    (g.outputSettings e codecs text rate).flatMap Setting.words

theorem invocations_eq_ok_iff [Seconds α] (valid : e.validate = .ok ())
    (hc : e.codecs = .ok codecs) {outputPath sink : Value} {runs : List Invocation} :
    g.invocations e outputPath sink = .ok runs ↔
      ∃ text rate, g.filterComplex = .ok text ∧ RateControl e codecs.video rate ∧
        runs = if e.twoPass then
            twoPassInvocations (g.baseWords e codecs text rate) outputPath e.passLogPrefix sink
          else
            [{ arguments := g.baseWords e codecs text rate ++ [outputPath], outputPath }] := by
  have base (text : String) (rate : List Setting) :
      globalArguments ++ g.inputArguments ++ Value.words ["-filter_complex", text] ++
          g.mapArguments ++ (g.encodingSettings e codecs rate).flatMap Setting.words =
        g.baseWords e codecs text rate := by
    simp [baseWords, outputSettings, mapArguments_eq, Value.words, Setting.words]
  constructor
  · intro h
    obtain ⟨-, -, h⟩ := exists_of_bind_ok h
    obtain ⟨text, ht, h⟩ := exists_of_bind_ok h
    obtain ⟨codecs', hc', h⟩ := exists_of_bind_ok h
    obtain ⟨given, hg, h⟩ := exists_of_bind_ok h
    obtain rfl : codecs = codecs' := Except.ok.inj (hc.symm.trans hc')
    obtain ⟨rate, control, rfl⟩ := encodingArguments_eq_ok_iff.mp hg
    refine ⟨text, rate, ht, control, ?_⟩
    rw [← base]
    exact (Except.ok.inj h).symm
  · rintro ⟨text, rate, ht, control, rfl⟩
    have given := (encodingArguments_eq_ok_iff (g := g)).mpr ⟨rate, control, rfl⟩
    rw [invocations, valid, ht, hc, ← base]
    simp only [bind, Except.bind, given]
    rfl

end Graph

def rateNames : List String := ["-crf", "-b:v", "-q:v"]

/-- The names that say how sound is encoded. -/
def soundNames : List String := ["-c:a", "-b:a"]

def Setting.among (names : List String) (s : Setting) : Bool := names.contains s.name

/-- The command says what the graph says. Its inputs are the bindings under their indices, so
that the streams that nodes read are those of the files bound for them; its output takes out
picture and sound, in the codecs asked for, with one setting of the quality. -/
structure Reading.Reads (r : Reading) (g : Graph α) (e : EncodeOptions) (codecs : Codecs)
    (text : String) (rate : List Setting) (destination : Value) : Prop where
  globals : r.globals = [.flag "-y", .flag "-hide_banner"]
  count : r.inputs.length = g.inputs.length
  inputs : ∀ b ∈ g.inputs, ∃ before, r.inputs[b.index]? = some (before, b.path) ∧
    before.flatMap Setting.words = Value.words b.options
  streams : ∀ n ∈ g.nodes, ∀ k kind, .stream k kind ∈ n.inputs →
    ∃ b ∈ g.inputs, b.index = k ∧ ∃ before, r.inputs[k]? = some (before, b.path)
  outputs : r.output.take 3 =
    [.option "-filter_complex" text, .option "-map" g.video.pad, g.soundSetting]
  video : r.output.filter (Setting.among ["-c:v"]) = [.option "-c:v" codecs.video]
  rate : r.output.filter (Setting.among rateNames) = rate
  sound : r.output.filter (Setting.among soundNames) = g.soundCodec e codecs
  destination : r.destination = destination

theorem RateControl.filter {rate : List Setting} (control : RateControl e codecs.video rate) :
    rate.filter (Setting.among ["-c:v"]) = [] ∧ rate.filter (Setting.among rateNames) = rate ∧
      rate.filter (Setting.among soundNames) = [] := by
  cases control with
  | bitrate => exact ⟨rfl, rfl, rfl⟩
  | vp9 => exact ⟨rfl, rfl, rfl⟩
  | quantizer => exact ⟨rfl, rfl, rfl⟩
  | factor => exact ⟨rfl, rfl, rfl⟩

namespace Graph

theorem filter_soundCodec (g : Graph α) (e : EncodeOptions) (codecs : Codecs) :
    (g.soundCodec e codecs).filter (Setting.among ["-c:v"]) = [] ∧
      (g.soundCodec e codecs).filter (Setting.among rateNames) = [] ∧
      (g.soundCodec e codecs).filter (Setting.among soundNames) = g.soundCodec e codecs := by
  unfold soundCodec
  split
  · exact ⟨rfl, rfl, rfl⟩
  · exact ⟨rfl, rfl, rfl⟩

/-- In a graph's command one setting names the picture's codec, the quality is set as asked for,
and sound is encoded if there is any. -/
theorem filter_outputSettings (g : Graph α) (text : String) {rate : List Setting}
    (control : RateControl e codecs.video rate) :
    (g.outputSettings e codecs text rate).filter (Setting.among ["-c:v"]) =
        [.option "-c:v" codecs.video] ∧
      (g.outputSettings e codecs text rate).filter (Setting.among rateNames) = rate ∧
      (g.outputSettings e codecs text rate).filter (Setting.among soundNames) =
        g.soundCodec e codecs := by
  obtain ⟨rateVideo, rateRate, rateSound⟩ := control.filter
  obtain ⟨soundVideo, soundRate, soundSound⟩ := g.filter_soundCodec e codecs
  have sound : g.soundSetting.name = "-an" ∨ g.soundSetting.name = "-map" := by
    unfold soundSetting
    split
    · exact .inl rfl
    · exact .inr rfl
  simp only [outputSettings, encodingSettings, List.filter_append, rateVideo, rateRate, rateSound,
    soundVideo, soundRate, soundSound, apply_ite (List.filter _)]
  refine ⟨?_, ?_, ?_⟩
  · rcases sound with h | h <;> simp [Setting.among, h]
  · rcases sound with h | h <;> simp [Setting.among, rateNames, h]
  · rcases sound with h | h <;> simp [Setting.among, soundNames, h]

/-- Settings that say nothing about codecs, quality or inputs. -/
def Neutral (added : List Setting) : Prop :=
  ∀ s ∈ added, s.IsOutput ∧ s.among ("-c:v" :: rateNames ++ soundNames) = false

theorem Neutral.filter {added : List Setting} (h : Neutral added) {names : List String}
    (sub : ∀ name ∈ names, name ∈ "-c:v" :: rateNames ++ soundNames) :
    added.filter (Setting.among names) = [] := by
  rw [List.filter_eq_nil_iff]
  intro s hs mem
  have known : s.name ∈ names := by simpa [Setting.among] using mem
  have apart := (h s hs).2
  rw [Setting.among, List.contains_iff_mem.mpr (sub _ known)] at apart
  cases apart

/-- The inputs are numbered in order, every stream that is read is bound, and the words in front
of an input are options with their values. -/
structure Bound (g : Graph α) : Prop where
  numbered : g.inputs.map Binding.index = List.range g.inputs.length
  nonempty : g.inputs ≠ []
  shaped : ∀ b ∈ g.inputs, b.Shaped
  streams : ∀ n ∈ g.nodes, ∀ k kind, .stream k kind ∈ n.inputs → k < g.inputs.length

/-- The words of a graph with more settings behind them are those of its command. -/
theorem Bound.words_reading (h : g.Bound) (text : String) (rate added : List Setting)
    (destination : Value) :
    g.baseWords e codecs text rate ++ added.flatMap Setting.words ++ [destination] =
      (g.reading (g.outputSettings e codecs text rate ++ added) destination).words := by
  rw [baseWords, inputArguments_eq h.numbered h.shaped]
  simp [Reading.words, Reading.settings, reading, globalArguments, Setting.words]

theorem Bound.sorted (h : g.Bound) (text : String) {rate added : List Setting}
    (control : RateControl e codecs.video rate) (neutral : Neutral added) (destination : Value) :
    (g.reading (g.outputSettings e codecs text rate ++ added) destination).Sorted := by
  refine reading_sorted h.nonempty h.shaped ?_
  rw [List.forall_mem_append]
  exact ⟨outputSettings_isOutput control.isOutput, fun s hs => (neutral s hs).1⟩

/-- A graph's command with neutral settings behind it is read back, and says what the graph says. -/
theorem Bound.reads (h : g.Bound) (text : String) {rate added : List Setting}
    (control : RateControl e codecs.video rate) (neutral : Neutral added) (destination : Value) :
    ∃ r, Reading.ofWords? (g.baseWords e codecs text rate ++ added.flatMap Setting.words ++
        [destination]) = some r ∧ r.Reads g e codecs text rate destination := by
  have words : g.baseWords e codecs text rate ++ added.flatMap Setting.words ++ [destination] = _ :=
    h.words_reading text rate added destination
  have sorted := h.sorted text control neutral destination
  obtain ⟨numbered, -, shaped, bound⟩ := h
  have indices {k : Nat} (hk : k < g.inputs.length) : g.inputs[k].index = k := by
    have entry := congrArg (fun indices => indices[k]?) numbered
    simpa [hk] using entry
  have place {b : Binding} (hb : b ∈ g.inputs) :
      (g.inputs.map fun b => (optionPairs b.options, b.path))[b.index]? =
        some (optionPairs b.options, b.path) := by
    obtain ⟨k, hk, rfl⟩ := List.mem_iff_getElem.mp hb
    rw [indices hk, List.getElem?_map, List.getElem?_eq_getElem hk]
    rfl
  obtain ⟨video, rates, sound⟩ :=
    g.filter_outputSettings text control
  refine ⟨_, by rw [words, Reading.ofWords?_words sorted], ?_⟩
  exact {
    globals := rfl
    count := List.length_map ..
    inputs := fun b hb => ⟨_, place hb, (shaped b hb).words_optionPairs⟩
    streams := by
      intro n hn k kind hs
      have hk := bound n hn k kind hs
      have mem : g.inputs[k] ∈ g.inputs := List.getElem_mem hk
      have found := place mem
      rw [indices hk] at found
      exact ⟨g.inputs[k], mem, indices hk, _, found⟩
    outputs := rfl
    video := by
      rw [reading, List.filter_append, video, neutral.filter (by decide)]
      rfl
    rate := by
      rw [reading, List.filter_append, rates, neutral.filter (by decide), List.append_nil]
    sound := by
      rw [reading, List.filter_append, sound, neutral.filter (by decide), List.append_nil]
    destination := rfl }

end Graph

/-- The run is given by its words, and they say what the graph says. -/
def Invocation.Reads (run : Invocation) (g : Graph α) (e : EncodeOptions) (codecs : Codecs)
    (text : String) (rate : List Setting) (destination : Value) : Prop :=
  run.shellCommand = .null ∧ ∃ r, Reading.ofWords? run.arguments = some r ∧
    r.Reads g e codecs text rate destination

/-- The words that name the log of two passes, if a place for it is decided. -/
def EncodeOptions.logWords (e : EncodeOptions) : List Value :=
  if e.passLogPrefix.isNull then [] else ["-passlogfile", e.passLogPrefix]

/-- The runs that write a graph: one, or two that share their words up to the pass, of which the
first throws its output away. -/
inductive Graph.Writes (g : Graph α) (e : EncodeOptions) (codecs : Codecs) (text : String)
    (rate : List Setting) (outputPath sink : Value) : List Invocation → Prop
  | single {run : Invocation} : e.twoPass = false → run.pass = .null →
      run.Reads g e codecs text rate outputPath → Writes g e codecs text rate outputPath sink [run]
  | double {first second : Invocation} (base : List Value) : e.twoPass = true →
      first.pass = .int 1 → second.pass = .int 2 →
      first.arguments = base ++ Value.words ["-pass", "1"] ++ e.logWords ++
        Value.words ["-an", "-f", "null"] ++ [sink] →
      second.arguments = base ++ Value.words ["-pass", "2"] ++ e.logWords ++ [outputPath] →
      first.Reads g e codecs text rate sink → second.Reads g e codecs text rate outputPath →
      Writes g e codecs text rate outputPath sink [first, second]

def EncodeOptions.passSettings (e : EncodeOptions) (pass : String) : List Setting :=
  .option "-pass" pass ::
    if e.passLogPrefix.isNull then [] else [.option "-passlogfile" e.passLogPrefix]

theorem neutral_passSettings (e : EncodeOptions) (pass : String) :
    Graph.Neutral (e.passSettings pass) := by
  unfold EncodeOptions.passSettings
  split
  · simpa [Graph.Neutral] using ⟨⟨rfl, rfl⟩, rfl⟩
  · simpa [Graph.Neutral] using ⟨⟨⟨rfl, rfl⟩, rfl⟩, ⟨rfl, rfl⟩, rfl⟩

theorem words_passSettings (e : EncodeOptions) (pass : String) :
    (e.passSettings pass).flatMap Setting.words = Value.words ["-pass", pass] ++ e.logWords := by
  unfold EncodeOptions.passSettings EncodeOptions.logWords
  split <;> rfl

/-- The settings of the first of two passes, which throws its output away. -/
def EncodeOptions.discardSettings (e : EncodeOptions) : List Setting :=
  e.passSettings "1" ++ [.flag "-an", .option "-f" "null"]

theorem neutral_discardSettings (e : EncodeOptions) : Graph.Neutral e.discardSettings := by
  rw [EncodeOptions.discardSettings, Graph.Neutral, List.forall_mem_append]
  exact ⟨neutral_passSettings e "1", by simpa using ⟨⟨⟨rfl, rfl⟩, rfl⟩, ⟨rfl, rfl⟩, rfl⟩⟩

theorem words_discardSettings (e : EncodeOptions) :
    e.discardSettings.flatMap Setting.words =
      Value.words ["-pass", "1"] ++ e.logWords ++ Value.words ["-an", "-f", "null"] := by
  rw [EncodeOptions.discardSettings, List.flatMap_append, words_passSettings]
  rfl

/-- The two passes are one command with the settings of either pass behind it. -/
theorem twoPassInvocations_eq (base : List Value) (e : EncodeOptions) (outputPath sink : Value) :
    twoPassInvocations base outputPath e.passLogPrefix sink =
      [{ arguments := base ++ e.discardSettings.flatMap Setting.words ++ [sink], pass := .int 1 },
        { arguments := base ++ (e.passSettings "2").flatMap Setting.words ++ [outputPath]
          pass := .int 2, outputPath }] := by
  rw [words_discardSettings, words_passSettings]
  simp [twoPassInvocations, EncodeOptions.logWords]

theorem Graph.Bound.writes {text : String} {rate : List Setting} (h : g.Bound)
    (control : RateControl e codecs.video rate) (outputPath sink : Value) :
    g.Writes e codecs text rate outputPath sink
      (if e.twoPass then
        twoPassInvocations (g.baseWords e codecs text rate) outputPath e.passLogPrefix sink
      else [{ arguments := g.baseWords e codecs text rate ++ [outputPath], outputPath }]) := by
  cases two : e.twoPass with
  | false =>
      have neutral : Graph.Neutral [] := by simp [Graph.Neutral]
      have reads := h.reads text control neutral outputPath
      rw [List.flatMap_nil, List.append_nil] at reads
      exact .single two rfl ⟨rfl, reads⟩
  | true =>
      have first := h.reads text control (neutral_discardSettings e) sink
      have second := h.reads text control (neutral_passSettings e "2") outputPath
      rw [words_discardSettings, ← List.append_assoc, ← List.append_assoc] at first
      rw [words_passSettings, ← List.append_assoc] at second
      exact .double (g.baseWords e codecs text rate) two rfl rfl rfl rfl ⟨rfl, first⟩
        ⟨rfl, second⟩

theorem Assembly.bound [Seconds α] (a : Assembly t g) : g.Bound where
  numbered := a.numbered
  nonempty := by
    have count := a.segments.length.1
    have nonempty := List.length_pos_iff.mpr a.nonempty
    rw [a.inputs_eq]
    exact List.append_ne_nil_of_left_ne_nil (List.length_pos_iff.mp (by omega)) _
  shaped := a.shaped
  streams := a.wellFormed.bound

/-- A compiled graph, with its sound, another one or none, is written by the same runs however its
inputs are listed; they exist once its text and the quality can be written, and they say what the
graph says. -/
theorem invocations_read_back [Seconds α] (built : Graph.build t = .ok g)
    (valid : e.validate = .ok ()) {inputs : List Binding} (listed : inputs.Perm g.inputs)
    (audio : Option Label) (outputPath sink : Value) :
    ∃ codecs, e.codecs = .ok codecs ∧
      Graph.invocations { g with inputs, audio } e outputPath sink =
        Graph.invocations { g with audio } e outputPath sink ∧
      (∀ text rate, g.filterComplex = .ok text → RateControl e codecs.video rate →
        ∃ runs, Graph.invocations { g with audio } e outputPath sink = .ok runs) ∧
      ∀ runs, Graph.invocations { g with audio } e outputPath sink = .ok runs →
        ∃ text rate, g.filterComplex = .ok text ∧ RateControl e codecs.video rate ∧
          Graph.Writes { g with audio } e codecs text rate outputPath sink runs := by
  obtain ⟨a⟩ := assembly_of_build built
  obtain ⟨codecs, hc, -⟩ := exists_of_bind_ok valid
  have bound : Graph.Bound { g with audio } := { a.bound with }
  refine ⟨codecs, hc, ?_, ?_, ?_⟩
  · have order : Graph.inputArguments { g with inputs, audio } =
        Graph.inputArguments { g with audio } := by
      unfold Graph.inputArguments
      rw [Graph.mergeSort_inputs a.numbered listed, Graph.mergeSort_inputs a.numbered (.refl _)]
    unfold Graph.invocations
    rw [order]
    rfl
  · intro text rate ht control
    exact ⟨_, (Graph.invocations_eq_ok_iff valid hc).mpr ⟨text, rate, ht, control, rfl⟩⟩
  · intro runs h
    obtain ⟨text, rate, ht, control, rfl⟩ := (Graph.invocations_eq_ok_iff valid hc).mp h
    exact ⟨text, rate, ht, control, bound.writes control outputPath sink⟩

/-- A still image and a clip whose paths look like options. -/
def dashedSegments : List (Segment Rat) :=
  [{ path := "-y", kind := .image, duration := 3 }, { path := "-i", duration := 4 }]

def twoPassOptions : EncodeOptions where
  twoPass := true
  videoBitrate := "4M"
  passLogPrefix := "-an"

theorem invocations_read_back_dashed :
    ∃ g text, Graph.build (Timeline.plain dashedSegments .crossfade true 1) = .ok g ∧
      twoPassOptions.validate = .ok () ∧ g.inputs.reverse.Perm g.inputs ∧
      g.filterComplex = .ok text ∧
      Graph.invocations { g with inputs := g.inputs.reverse, audio := none } twoPassOptions
          "-pass" nullDevice =
        Graph.invocations { g with audio := none } twoPassOptions "-pass" nullDevice ∧
      ∃ runs, Graph.invocations { g with audio := none } twoPassOptions "-pass" nullDevice =
          .ok runs ∧
        ∃ codecs text rate, Graph.Writes { g with audio := none } twoPassOptions codecs text rate
          "-pass" nullDevice runs := by
  have given : (do
      let g ← Graph.build (Timeline.plain dashedSegments .crossfade true 1)
      g.filterComplex).isOk = true := by decide +kernel
  obtain ⟨text, h⟩ := exists_of_isOk given
  obtain ⟨g, built, written⟩ := exists_of_bind_ok h
  have valid : twoPassOptions.validate = .ok () := by decide
  obtain ⟨codecs, -, same, returns, reads⟩ :=
    invocations_read_back built valid (List.reverse_perm g.inputs) none "-pass" nullDevice
  obtain ⟨runs, hr⟩ := returns text _ written (.bitrate rfl rfl)
  obtain ⟨_, rate, -, -, writes⟩ := reads runs hr
  exact ⟨g, text, built, valid, List.reverse_perm g.inputs, written, same, runs, hr, codecs, _,
    rate, writes⟩

end Reel
