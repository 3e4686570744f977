import Reel.Proofs.Clip.Times

/-!
# What a clip asks for

The last command of a clip, read with the last word for each name, asks for the clip: its input,
its times, its rate, its filters and its codecs. Every pass keeps to the quality of the picture,
unless two passes are asked for together with VP9: then a constant quality is said behind the
bitrate, and replaces it.
-/
namespace Reel

namespace Setting

def valueFor? (name : String) : Setting → Option Value
  | flag _ => none
  | option given value => if given = name then some value else none

/-- The value of a name among settings, the last one if there are several. -/
def said? (name : String) (settings : List Setting) : Option Value :=
  (settings.filterMap (valueFor? name)).getLast?

variable {name : String}

@[simp] theorem said?_nil : said? name [] = none := rfl

theorem said?_append (first second : List Setting) :
    said? name (first ++ second) = (said? name second).or (said? name first) := by
  rw [said?, List.filterMap_append, List.getLast?_append, said?, said?]

theorem said?_cons (s : Setting) (rest : List Setting) :
    said? name (s :: rest) = (said? name rest).or (valueFor? name s) := by
  have one : said? name [s] = valueFor? name s := by
    rw [said?, List.filterMap_cons]
    cases valueFor? name s <;> rfl
  rw [← List.singleton_append, said?_append, one]

theorem said?_eq_none {settings : List Setting} (h : ∀ s ∈ settings, s.name ≠ name) :
    said? name settings = none := by
  have nothing : settings.filterMap (valueFor? name) = [] := by
    rw [List.filterMap_eq_nil_iff]
    intro s hs
    cases s with
    | flag given => rfl
    | option given value => exact if_neg (h _ hs)
  rw [said?, nothing]
  rfl

end Setting

namespace ClipJob

open Timecode Setting

variable {job : ClipJob} {files : Files} {time : Value} {name : String}

/-- The time is told by nothing if it is left out, and else by the text of what it is read as. A
number is shown by that text. -/
def Told (time : Value) (found : Option Value) : Prop :=
  if isAbsent time then found = none
  else ∃ d text, ofValue time = .ok d ∧ formatDecimal d = .ok text ∧ found = some (.text text) ∧
    ∀ q, d.toRat? = some q → Shows text (rounded q)

def containerCodecs? (job : ClipJob) : Option Codecs := containers.lookup job.encode.outputFormat

/-- The codec of the sound, if there is to be one. -/
def soundCodec? (job : ClipJob) : Option String :=
  if job.options.removeAudio then none
  else if job.options.extractOpus then some "libopus"
  else job.containerCodecs?.map Codecs.audio

/-- There is a picture, unless the sound is taken out alone. A sound that is removed is not. -/
def HasPicture (job : ClipJob) : Prop :=
  job.options.extractOpus = true → job.options.removeAudio = true

instance (job : ClipJob) : Decidable job.HasPicture := inferInstanceAs (Decidable (_ → _))

/-- The codec of the picture, if there is to be one. -/
def pictureCodec? (job : ClipJob) : Option String :=
  if job.HasPicture then
    if job.encode.vp9 then some "libvpx-vp9" else job.containerCodecs?.map Codecs.video
  else none

/-- The filters of the picture, if there is a picture and some filter. -/
def chain? (job : ClipJob) : Option String :=
  if job.HasPicture ∧ job.chain ≠ [] then some (String.intercalate "," job.chain) else none

structure Asked (job : ClipJob) (r : Reading) : Prop where
  inputs : r.inputs = [([], job.input)]
  destination : r.destination = job.output
  start : Told job.start (said? "-ss" r.output)
  finish : Told job.finish (said? "-to" r.output)
  rate : said? "-r" r.output =
    if job.options.fps.isNull then none else some (.text job.options.fps.shown)
  chain : said? "-vf" r.output = job.chain?.map .text
  silent : .flag "-an" ∈ r.output ↔ job.options.removeAudio = true
  sound : said? "-c:a" r.output = job.soundCodec?.map .text
  blind : .flag "-vn" ∈ r.output ↔ ¬ job.HasPicture
  picture : said? "-c:v" r.output = job.pictureCodec?.map .text
  /-- Nothing is said under another name. -/
  names : ∀ s ∈ r.output, IsSpoken s ∨ s.name ∈ passNames

/-- The command keeps to the quality of the picture: to the bitrate in a pass of two, and to the
constant quality of VP9 in a single pass. -/
structure Rated (job : ClipJob) (r : Reading) : Prop where
  bitrate : job.encode.twoPass = true →
    said? "-b:v" r.output = some (.text job.encode.videoBitrate.shown) ∧
    said? "-crf" r.output = none
  constant : job.encode.twoPass = false → job.encode.vp9 = true → job.HasPicture →
    said? "-crf" r.output = some (.text job.encode.vp9Crf.shown) ∧
    said? "-b:v" r.output = some "0"

theorem said?_timeSettings (given : String) (found : Option String) :
    said? name (timeSettings given found) = if given = name then found.map .text else none := by
  cases found with
  | none => simp [timeSettings]
  | some text => simp [timeSettings, said?_cons, valueFor?]

theorem told_of_timeText {found : Option String} (h : timeText time = .ok found) :
    Told time (found.map .text) := by
  have legible : time.isLegible = true := by
    obtain ⟨text, written, -⟩ := exists_of_bind_ok h
    exact isLegible_of_toText written
  rw [timeText_eq legible] at h
  rw [Told]
  split_ifs at h ⊢
  · obtain rfl := Except.ok.inj h
    rfl
  · obtain ⟨text, written, rfl⟩ := exists_of_map_ok h
    obtain ⟨d, read, written⟩ := exists_of_bind_ok written
    refine ⟨d, text, read, written, rfl, fun q value => ?_⟩
    have shown := formatDecimal_shows value
    rw [written] at shown
    split_ifs at shown
    obtain ⟨_, same, shows⟩ := shown
    rwa [Except.ok.inj same]

theorem takesSoundOnly_eq (job : ClipJob) : job.takesSoundOnly = !decide job.HasPicture := by
  rw [takesSoundOnly, ← decide_not, Bool.eq_iff_iff]
  simp [HasPicture]

variable {codecs : Codecs} {start finish : Option String} {added : List Setting}
  {destination : Value}

theorem Closing.said? (closing : Closing added)
    (other : name ∉ ["-pass", "-passlogfile", "-an", "-f"]) (output : List Setting) :
    Setting.said? name (output ++ added) = Setting.said? name output := by
  have nothing : Setting.said? name added = none :=
    said?_eq_none fun s hs same => other (same ▸ closing.names s hs)
  rw [said?_append, nothing, Option.none_or]

theorem codecs_eq (known : job.encode.codecs = .ok codecs) :
    job.containerCodecs?.map Codecs.audio = some codecs.audio ∧
    (if job.encode.vp9 then some "libvpx-vp9" else job.containerCodecs?.map Codecs.video) =
      some codecs.video := by
  unfold EncodeOptions.codecs at known
  unfold containerCodecs?
  cases found : containers.lookup job.encode.outputFormat with
  | none => rw [found] at known; cases known
  | some own =>
      rw [found] at known
      rw [← Except.ok.inj known]
      cases job.encode.vp9 <;> exact ⟨rfl, rfl⟩

theorem flag_mem_timeSettings (flag given : String) (found : Option String) :
    .flag flag ∉ timeSettings given found := by
  cases found <;> simp [timeSettings]

theorem flags_spoken (job : ClipJob) (codecs : Codecs) (start finish : Option String) :
    (.flag "-an" ∈ job.spoken codecs start finish ↔ job.options.removeAudio = true) ∧
    (.flag "-vn" ∈ job.spoken codecs start finish ↔ job.takesSoundOnly = true) := by
  cases silent : job.options.removeAudio <;> simp [spoken, flag_mem_timeSettings, silent]

section Said

variable (job : ClipJob) (codecs : Codecs) (start finish : Option String)

theorem said?_times :
    said? "-ss" (job.spoken codecs start finish) = start.map .text ∧
    said? "-to" (job.spoken codecs start finish) = finish.map .text := by
  simp [spoken, said?_append, said?_timeSettings, apply_ite (said? _), said?_cons, valueFor?]

theorem said?_picture :
    said? "-r" (job.spoken codecs start finish) =
      (if job.options.fps.isNull then none else some (.text job.options.fps.shown)) ∧
    said? "-vf" (job.spoken codecs start finish) =
      (if !job.takesSoundOnly && !job.chain.isEmpty then
        some (.text (String.intercalate "," job.chain)) else none) := by
  simp [spoken, said?_append, said?_timeSettings, apply_ite (said? _), said?_cons, valueFor?]

theorem said?_codecs :
    said? "-c:a" (job.spoken codecs start finish) = (if job.options.removeAudio then none
      else some (.text (if job.takesSoundOnly then "libopus" else codecs.audio))) ∧
    said? "-c:v" (job.spoken codecs start finish) =
      (if job.takesSoundOnly then none else some (.text codecs.video)) := by
  simp [spoken, said?_append, said?_timeSettings, apply_ite (said? _), said?_cons, valueFor?]

theorem said?_quality :
    said? "-crf" (job.spoken codecs start finish) =
      (if !job.takesSoundOnly && job.encode.vp9 then some (.text job.encode.vp9Crf.shown)
        else none) ∧
    said? "-b:v" (job.spoken codecs start finish) =
      (if !job.takesSoundOnly && job.encode.vp9 then some (.text "0")
        else if job.encode.twoPass then some (.text job.encode.videoBitrate.shown)
        else none) := by
  simp only [spoken, said?_append, said?_timeSettings, apply_ite (said? _), said?_cons, valueFor?]
  split <;> simp

end Said

theorem asked_of_closing (known : job.encode.codecs = .ok codecs)
    (hs : timeText job.start = .ok start) (hf : timeText job.finish = .ok finish)
    (closing : Closing added) (names : ∀ s ∈ added, s.name ∈ passNames) :
    job.Asked (job.reading (job.spoken codecs start finish ++ added) job.output) := by
  have times := said?_times job codecs start finish
  have picture := said?_picture job codecs start finish
  have chosen := said?_codecs job codecs start finish
  have flags := flags_spoken job codecs start finish
  obtain ⟨audio, video⟩ := codecs_eq known
  have unflagged {name : String} (other : name ∉ passNames) : .flag name ∉ added :=
    fun mem => other (names _ mem)
  have sounds : job.takesSoundOnly = true ↔ ¬ job.HasPicture := by simp [takesSoundOnly_eq]
  refine ⟨rfl, rfl, ?_, ?_, ?_, ?_, ?_, ?_, ?_, ?_, ?_⟩
  · rw [reading, closing.said? (by decide), times.1]
    exact told_of_timeText hs
  · rw [reading, closing.said? (by decide), times.2]
    exact told_of_timeText hf
  · rw [reading, closing.said? (by decide), picture.1]
  · rw [reading, closing.said? (by decide), picture.2, chain?, takesSoundOnly_eq]
    by_cases seen : job.HasPicture <;> cases job.chain <;> simp [seen]
  · rw [reading, List.mem_append, flags.1, or_iff_left (unflagged (by decide))]
  · rw [reading, closing.said? (by decide), chosen.1, soundCodec?, audio, takesSoundOnly]
    cases job.options.removeAudio <;> cases job.options.extractOpus <;> rfl
  · rw [reading, List.mem_append, flags.2, or_iff_left (unflagged (by decide)), sounds]
  · rw [reading, closing.said? (by decide), chosen.2, pictureCodec?, video, takesSoundOnly_eq]
    by_cases seen : job.HasPicture <;> simp [seen]
  · exact List.forall_mem_append.mpr ⟨fun s hs => .inl (spoken_isSpoken _ _ _ _ s hs),
      fun s hs => .inr (names s hs)⟩

theorem rated_iff (closing : Closing added) :
    job.Rated (job.reading (job.spoken codecs start finish ++ added) destination) ↔
      ¬ (job.encode.twoPass = true ∧ job.encode.vp9 = true ∧ job.HasPicture) := by
  obtain ⟨factor, rate⟩ := said?_quality job codecs start finish
  rw [← closing.said? (by decide)] at factor rate
  rw [takesSoundOnly_eq, Bool.not_not] at factor rate
  constructor
  -- with both, a constant quality is said, which a bitrate does not go with
  · rintro ⟨bitrate, -⟩ ⟨two, vp9, seen⟩
    obtain ⟨-, none⟩ := bitrate two
    rw [reading, factor, vp9, decide_eq_true seen] at none
    cases none
  · intro apart
    refine ⟨fun two => ?_, fun one vp9 seen => ?_⟩
    · have other : (decide job.HasPicture && job.encode.vp9) = false := by
        rw [Bool.and_eq_false_iff, decide_eq_false_iff_not]
        by_contra both
        simp only [not_or, not_not, Bool.not_eq_false] at both
        exact apart ⟨two, both.2, both.1⟩
      rw [other] at factor rate
      rw [two] at rate
      exact ⟨rate, factor⟩
    · rw [vp9, decide_eq_true seen] at factor rate
      exact ⟨factor, rate⟩

/-- The passes of a clip, and that the last one asks for it. -/
structure Requested (job : ClipJob) (runs : List Invocation) : Prop where
  passes : runs.map Invocation.pass =
    if job.encode.twoPass then [.int 1, .int 2] else [.null]
  last : ∃ i r, runs.getLast? = some i ∧ i.shellCommand = .null ∧
    Reading.ofWordsBy? flags i.arguments = some r ∧ job.Asked r

/-- Every pass keeps to the quality of the picture. -/
def KeepsRate (job : ClipJob) (runs : List Invocation) : Prop :=
  ∀ i ∈ runs, ∃ r, Reading.ofWordsBy? flags i.arguments = some r ∧ job.Rated r

theorem passes_commands (job : ClipJob) (output : List Setting) :
    (job.commands output).map Invocation.pass =
      if job.encode.twoPass then [.int 1, .int 2] else [.null] := by
  unfold commands
  split <;> rfl

/-- What runs for a clip asks for it in the last pass. All passes keep to the quality of the picture
just if no picture in VP9 is asked for in two passes. -/
theorem requested_and_keepsRate_iff {runs : List Invocation}
    (h : job.invocations files = .ok runs) :
    job.Requested runs ∧ (job.KeepsRate runs ↔
      ¬ (job.encode.twoPass = true ∧ job.encode.vp9 = true ∧ job.HasPicture)) := by
  obtain ⟨valid, legible⟩ := legible_of_invocations h
  obtain ⟨codecs, known⟩ := exists_codecs_of_validate valid
  rw [invocations_eq valid legible known] at h
  obtain ⟨start, hs, h⟩ := exists_of_bind_ok h
  obtain ⟨finish, hf, h⟩ := exists_of_bind_ok h
  obtain rfl := Except.ok.inj h
  have plain := spoken_plain job codecs start finish
  obtain ⟨i, added, last, closing, names, reads⟩ := job.last_command_reads plain
  have shell := (commands_read plain i (List.mem_of_getLast? last)).1
  refine ⟨⟨passes_commands .., i, _, last, shell, reads,
    asked_of_closing known hs hf closing names⟩, fun keeps => ?_, fun apart i hi => ?_⟩
  · obtain ⟨r, reads', rated⟩ := keeps i (List.mem_of_getLast? last)
    obtain rfl := Option.some.inj (reads.symm.trans reads')
    exact (rated_iff closing).mp rated
  · obtain ⟨-, added, destination, closing, reads⟩ := commands_read plain i hi
    exact ⟨_, reads, (rated_iff closing).mpr apart⟩

/-- A part of the walk, framed and silent, in two passes. -/
def framedWalk : ClipJob :=
  { walkClip "1:30" (.int 100) with
    encode := { twoPass := true, videoBitrate := "2M" }
    options := { crop := "640:360:0:0", scale := "1280:720", fps := "24", removeAudio := true } }

theorem framedWalk_requested : ∃ runs, framedWalk.invocations walkFiles = .ok runs ∧
    framedWalk.Requested runs ∧ framedWalk.KeepsRate runs := by
  have made : (framedWalk.invocations walkFiles).isOk = true := by decide +kernel
  obtain ⟨runs, made⟩ := exists_of_isOk made
  obtain ⟨requested, keeps⟩ := requested_and_keepsRate_iff made
  exact ⟨runs, made, requested, keeps.mpr (by decide)⟩

def bitrate? (i : Invocation) : Option Value :=
  (Reading.ofWordsBy? flags i.arguments).bind fun r => said? "-b:v" r.output

theorem KeepsRate.bitrate? {runs : List Invocation} (h : job.KeepsRate runs)
    (two : job.encode.twoPass = true) :
    ∀ i ∈ runs, ClipJob.bitrate? i = some (.text job.encode.videoBitrate.shown) := by
  intro i hi
  obtain ⟨r, reads, rated⟩ := h i hi
  rw [ClipJob.bitrate?, reads, Option.bind_some, (rated.bitrate two).1]

def ratedWalk : ClipJob :=
  { walkClip .null .null with
    encode := { twoPass := true, videoBitrate := "2M", vp9 := true } }

/-- The bitrate that was asked for is taken back in both passes. -/
theorem ratedWalk_not_keepsRate : ∃ runs, ratedWalk.invocations walkFiles = .ok runs ∧
    runs.map ClipJob.bitrate? = [some (.text "0"), some (.text "0")] ∧
    ¬ ratedWalk.KeepsRate runs := by
  have said : (ratedWalk.invocations walkFiles).map (List.map ClipJob.bitrate?) =
      .ok [some (.text "0"), some (.text "0")] := by decide +kernel
  obtain ⟨runs, made, said⟩ := exists_of_map_ok said
  refine ⟨runs, made, said, fun keeps => ?_⟩
  cases runs with
  | nil => cases said
  | cons i rest =>
      have kept := keeps.bitrate? rfl i (List.mem_cons_self ..)
      rw [(List.cons.inj said).1] at kept
      exact absurd kept (by decide +kernel)

end ClipJob

end Reel
