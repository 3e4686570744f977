import Reel.Proofs.Graph.Sizes
import Reel.Proofs.Graph.Written
import Reel.Proofs.Project.Words

/-!
# Bounds are written as positive numbers

A timeline with moderate durations is compiled and its graph is written, without a number on the
way that cannot be. Every stream is then cut at a number that is written in plain digits and is
greater than zero, and so is every time for which an input is read.
-/
namespace Reel

open Build Label Timecode

/-- The text writes a number greater than zero in plain digits. -/
def Timecode.WritesPositive (s : String) : Prop := ∃ q, Writes s q ∧ 0 < q

theorem format_writable {x : Double} (h : x.Writable) :
    ∃ s, Seconds.format x = .ok s ∧ WritesPositive s := by
  obtain ⟨s, q, written, writes, positive⟩ := format_within h (by norm_num [brief])
  exact ⟨s, written, q, writes, positive le_rfl⟩

def Error.Never (_ : Error) : Prop := False

theorem Yields.exists_ok {α : Type} {r : Except Error α} {post : α → Prop}
    (h : Yields Error.Never r post) : ∃ x, r = .ok x ∧ post x := by
  cases h with
  | ok hx => exact ⟨_, rfl, hx⟩
  | error never => exact never.elim

theorem Yields.mapM_mem {α β : Type} {stops : Error → Prop} {f : α → Except Error β}
    {post : β → Prop} {xs : List α} (h : ∀ x ∈ xs, Yields stops (f x) post) :
    Yields stops (xs.mapM f) fun ys => ∀ y ∈ ys, post y := by
  induction xs with
  | nil => exact .ok (by simp)
  | cons x rest ih =>
      rw [List.forall_mem_cons] at h
      rw [List.mapM_cons]
      exact h.1.bind fun y hy => (ih h.2).bind fun ys hys =>
        .ok (List.forall_mem_cons.mpr ⟨hy, hys⟩)

/-- The step does not cut, or cuts at a number greater than zero. -/
def CutsPositively (step : String × List String) : Prop :=
  step.1 ∈ ["trim", "atrim"] → ∃ bound, step.2 = ["0", bound] ∧ WritesPositive bound

/-- The filter is written, as a step that cuts at a number greater than zero if it cuts. -/
def Filter.Cuts (f : Filter Double) : Prop := Yields Error.Never f.written CutsPositively

namespace Argument

def Writable (a : Argument Double) : Prop := Yields Error.Never a.format fun _ => True

@[simp] theorem writable_word (s : String) : (word s).Writable := .ok trivial

theorem format_number {n : Int} (legible : (Value.int n).isLegible = true) :
    (number n : Argument Double).format = .ok (toString n) := by
  change (Value.int n).toText = _
  exact Value.toText_int legible

theorem writable_number {n : Int} (legible : (Value.int n).isLegible = true) :
    (number n).Writable := by
  unfold Writable
  rw [format_number legible]
  exact .ok trivial

@[simp] theorem writable_small {n : Int} (small : n.natAbs ≤ 2 ^ 41) : (number n).Writable :=
  writable_number (isLegible_small small)

theorem writable_seconds {x : Double} (h : x.Within 0 (2 ^ 72)) : (seconds x).Writable := by
  obtain ⟨s, -, written, -⟩ := format_within h le_rfl
  change Yields Error.Never (Seconds.format x) _
  rw [written]
  exact .ok trivial

end Argument

/-- The picture's size and rate can be written. -/
structure Picture.Legible (p : Picture) : Prop where
  width : (Argument.number p.width).Writable
  height : (Argument.number p.height).Writable
  rate : (Argument.literal p.fps).Writable

namespace Filter

variable {p : Picture} {x T : Double}

theorem cuts_cut (h : x.Writable) (name : String) : (cut name x).Cuts := by
  obtain ⟨bound, written, positive⟩ := format_writable h
  have cutting : (cut name x).written = .ok (name, ["0", bound]) := by
    have zero := Argument.format_number (isLegible_small (n := 0) (by decide))
    simp only [Filter.written, cut, List.mapM_cons, List.mapM_nil, zero]
    rw [Argument.format, written]
    rfl
  unfold Cuts
  rw [cutting]
  exact .ok fun _ => ⟨bound, rfl, positive⟩

/-- A filter that does not cut is written if its arguments are. -/
theorem cuts_of_writable {f : Filter Double} (other : f.name ∉ ["trim", "atrim"])
    (positional : ∀ a ∈ f.positional, a.Writable)
    (options : ∀ option ∈ f.options, option.2.Writable) : f.Cuts := by
  unfold Cuts Filter.written
  refine (Yields.mapM_mem positional).bind fun texts _ => ?_
  have each : ∀ option ∈ f.options, Yields Error.Never (do
      return option.1 ++ "=" ++ (← option.2.format)) fun _ => True :=
    fun option mem => (options option mem).bind fun text _ => .ok trivial
  exact (Yields.mapM_mem each).bind fun pairs _ => .ok fun cutting => (other cutting).elim

variable {p : Picture} {rate : Int} {x T : Double}

theorem cuts_restartClock (name : String) (other : name ∉ ["trim", "atrim"]) :
    (restartClock name : Filter Double).Cuts :=
  cuts_of_writable other (by simp [restartClock]) (by simp [restartClock])

theorem cuts_audioFormat : (audioFormat : Filter Double).Cuts :=
  cuts_of_writable (by decide) (by simp [audioFormat]) (by
    simp +decide [audioFormat, sampleRate, -Prod.forall])

theorem cuts_silence : (silence : Filter Double).Cuts :=
  cuts_of_writable (by decide) (by simp [silence]) (by
    simp +decide [silence, sampleRate])

theorem segmentFilters_cut (legible : p.Legible) (h : x.Writable) :
    ∀ f ∈ segmentFilters p x, f.Cuts := by
  have scale : ∀ a ∈ ([.number p.width, .number p.height] : List (Argument Double)),
      a.Writable := by
    simp [legible.width, legible.height]
  simp only [segmentFilters, List.forall_mem_cons, List.not_mem_nil,
    IsEmpty.forall_iff, implies_true, and_true]
  refine ⟨cuts_cut h _, cuts_restartClock _ (by decide), cuts_of_writable (by simp) scale (by simp),
    cuts_of_writable (by simp) scale (by simp),
    cuts_of_writable (by simp) (by simp [legible.rate]) (by simp),
    cuts_of_writable (by simp) (by simp) (by simp)⟩

theorem outputFilters_cut (legible : p.Legible) :
    ∀ f ∈ (outputFilters p : List (Filter Double)), f.Cuts := by
  simp only [outputFilters, List.forall_mem_cons, List.not_mem_nil,
    IsEmpty.forall_iff, implies_true, and_true]
  exact ⟨cuts_of_writable (by simp) (by simp [legible.rate]) (by simp),
    cuts_of_writable (by simp) (by simp) (by simp),
    cuts_of_writable (by simp) (by simp +decide) (by simp)⟩

theorem soundFilters_cut (h : x.Writable) : ∀ f ∈ soundFilters x, f.Cuts := by
  simp only [soundFilters, List.forall_mem_cons, List.not_mem_nil,
    IsEmpty.forall_iff, implies_true, and_true]
  exact ⟨cuts_cut h _, cuts_restartClock _ (by decide), cuts_audioFormat⟩

theorem alignment_cut (h : x.Writable) : ∀ f ∈ alignment x, f.Cuts := by
  simp only [alignment, List.forall_mem_cons, List.not_mem_nil,
    IsEmpty.forall_iff, implies_true, and_true]
  exact ⟨cuts_of_writable (by simp) (by simp) (by simp), cuts_cut h _⟩

theorem itemFilters_cut {fade fadeStart : Double} (h : x.Writable) (fades : fade.Within 0 (2 ^ 72))
    (starts : fadeStart.Within 0 (2 ^ 72)) : ∀ f ∈ itemFilters x fade fadeStart, f.Cuts := by
  have fade' := Argument.writable_seconds fades
  have fadeStart' := Argument.writable_seconds starts
  simp only [itemFilters, List.forall_mem_cons, List.not_mem_nil,
    IsEmpty.forall_iff, implies_true, and_true]
  exact ⟨cuts_cut h _, cuts_restartClock _ (by decide),
    cuts_of_writable (by simp) (by simp) (by simp +decide [fade']),
    cuts_of_writable (by simp) (by simp) (by simp [fade', fadeStart']), cuts_audioFormat⟩

theorem pictureFade_cuts {offset : Double} (h : T.Within 0 (2 ^ 72))
    (starts : offset.Within 0 (2 ^ 72)) : (pictureFade T offset).Cuts :=
  cuts_of_writable (by simp [pictureFade]) (by simp [pictureFade]) (by
    simp [pictureFade, Argument.writable_seconds h, Argument.writable_seconds starts])

theorem soundFade_cuts (h : T.Within 0 (2 ^ 72)) : (soundFade T).Cuts :=
  cuts_of_writable (by simp [soundFade]) (by simp [soundFade]) (by
    simp [soundFade, Argument.writable_seconds h])

theorem concatenation_cuts (lane : StreamKind) {count : Nat} (few : count ≤ 2 ^ 41) :
    (concatenation lane count : Filter Double).Cuts := by
  have counted : (Argument.number count).Writable := Argument.writable_small (by simpa using few)
  cases lane <;>
    exact cuts_of_writable (by simp [concatenation]) (by simp [concatenation]) (by
      simp +decide [concatenation, counted])

end Filter

/-- All filters of the node are written, and cut at numbers greater than zero. -/
def Node.Cuts (n : Node Double) : Prop := ∀ f ∈ n.filters, f.Cuts

/-- The text of every time behind an input's option is a number greater than zero. -/
def Binding.Timed (b : Binding) : Prop :=
  ∀ s ∈ optionPairs b.options, s.name = "-t" →
    ∃ bound, s = .option "-t" (.text bound) ∧ WritesPositive bound

section Parts

variable {p : Picture} {ns : List (Node Double)} {bs : List Binding} {l : Label}
  {offsets : List Double} {T : Double}

theorem concatNode_cuts (kind : LabelKind) (lane : StreamKind) {labels : List Label} (k : Nat)
    (few : labels.length ≤ 2 ^ 41) : (concatNode kind lane labels k : Node Double).Cuts := by
  simpa [Node.Cuts, concatNode] using Filter.concatenation_cuts lane few

theorem SoundOf.cuts {i : Nat} {s : Segment Double} {m : Node Double} (h : SoundOf i s m)
    (lasting : s.duration.Writable) : m.Cuts := by
  cases h with
  | own => exact Filter.soundFilters_cut lasting
  | silent => exact List.forall_mem_cons.mpr ⟨Filter.cuts_silence, Filter.soundFilters_cut lasting⟩

theorem Segments.cut {own : Bool} {i : Nat} {segments : List (Segment Double)}
    {pictures sounds : List Label} (h : Segments p own i segments bs ns pictures sounds)
    (legible : p.Legible) (lasting : ∀ s ∈ segments, s.duration.Writable) :
    ∀ n ∈ ns, n.Cuts := by
  induction h with
  | nil => simp
  | cons picture sound _ ih =>
      rw [List.forall_mem_cons] at lasting
      obtain ⟨k, rfl⟩ := picture.node
      rw [List.forall_mem_cons, List.forall_mem_append]
      refine ⟨Filter.segmentFilters_cut legible lasting.1, ?_, ih lasting.2⟩
      cases sound with
      | without => simp
      | node sound => simpa using sound.cuts lasting.1

theorem Fade.cut {offset : Double} {i : Nat} {current next : Label} {lane : StreamKind}
    (h : Fade T offset i current next lane ns l) (transition : T.Within brief longest)
    (starts : offset.Moderate) : ∀ n ∈ ns, n.Cuts := by
  have fades : T.Within 0 (2 ^ 72) := transition.mono (by norm_num [brief]) (by norm_num [longest])
  cases h with
  | picture k =>
      have starts' : offset.Within 0 (2 ^ 72) := starts.mono le_rfl (by norm_num)
      simpa [Node.Cuts, pictureFadeNode] using Filter.pictureFade_cuts fades starts'
  | sound j k =>
      rw [List.forall_mem_cons, List.forall_mem_singleton]
      refine ⟨Filter.alignment_cut (add_writable starts transition), ?_⟩
      simpa [Node.Cuts, soundFadeNode] using Filter.soundFade_cuts fades

theorem Fades.cut {lane : StreamKind} {i : Nat} {current : Label} {rest : List (Label × Double)}
    (h : Fades lane T i current rest ns l) (transition : T.Within brief longest)
    (starts : ∀ pair ∈ rest, pair.2.Moderate) : ∀ n ∈ ns, n.Cuts := by
  induction h with
  | done => simp
  | fade first _ ih =>
      rw [List.forall_mem_cons] at starts
      rw [List.forall_mem_append]
      exact ⟨first.cut transition starts.1, ih starts.2⟩

theorem Joined.cut {mode : JoinMode} {lane : StreamKind} {labels : List Label}
    (h : Joined mode lane T offsets labels ns l) (few : labels.length ≤ 2 ^ 41)
    (transition : 2 ≤ labels.length → T.Within brief longest)
    (starts : 2 ≤ labels.length → ∀ offset ∈ offsets, offset.Moderate) : ∀ n ∈ ns, n.Cuts := by
  cases h with
  | only => simp
  | concat k => simpa using concatNode_cuts _ lane k few
  | fades _ faded =>
      refine faded.cut (transition (by simp)) fun pair hp => ?_
      exact starts (by simp) pair.2 (List.of_mem_zip hp).2

theorem Items.cut {transition : Option Double} {i input : Nat} {items : List (AudioItem Double)}
    {labels : List Label} (h : Items transition i input items bs ns labels)
    (fades : ∀ T, transition = some T → T.Within 0 longest)
    (lasting : ∀ item ∈ items, item.duration.Within brief longest) :
    (∀ n ∈ ns, n.Cuts) ∧ labels.length = items.length := by
  induction h with
  | nil => simp
  | @cons i input item b n rest bs ns labels first _ ih =>
      rw [List.forall_mem_cons] at lasting
      obtain ⟨T, k, given, rfl⟩ := first.node
      obtain ⟨cut, count⟩ := ih lasting.2
      rw [List.forall_mem_cons]
      refine ⟨⟨?_, cut⟩, by simp [count]⟩
      have whole : item.duration.Within 0 longest :=
        lasting.1.mono (by norm_num [brief]) le_rfl
      have high : longest ≤ 2 ^ 72 := by norm_num [longest]
      have fade := fade_within (fades T given) whole
      have start := left_moderate whole fade exact_longest (by norm_num [longest])
      exact Filter.itemFilters_cut (lasting.1.mono le_rfl high) (fade.mono le_rfl high)
        (start.mono le_rfl high)

theorem Items.plain {transition : Option Double} {i input : Nat} {items : List (AudioItem Double)}
    {labels : List Label} (h : Items transition i input items bs ns labels) :
    ∀ b ∈ bs, b.options = [] := by
  induction h with
  | nil => simp
  | cons first _ ih => exact List.forall_mem_cons.mpr ⟨by rw [first.binding], ih⟩

theorem Segments.timed {own : Bool} {i : Nat} {segments : List (Segment Double)}
    {pictures sounds : List Label} (h : Segments p own i segments bs ns pictures sounds)
    (lasting : ∀ s ∈ segments, s.duration.Writable) : ∀ b ∈ bs, b.Timed := by
  induction h with
  | nil => simp
  | cons picture _ _ ih =>
      rw [List.forall_mem_cons] at lasting
      obtain ⟨options, given, rfl⟩ := picture.binding
      refine List.forall_mem_cons.mpr ⟨?_, ih lasting.2⟩
      unfold segmentOptions at given
      split at given
      · obtain ⟨text, written, positive⟩ := format_writable lasting.1
        rw [written] at given
        obtain rfl := Except.ok.inj given
        simpa +decide [Binding.Timed, optionPairs, Setting.name] using positive
      · obtain rfl := Except.ok.inj given
        simp [Binding.Timed, optionPairs]

end Parts

/-- The durations of the timeline were found out and are moderate, as is all else of it that a
graph is written with. -/
structure Timeline.Measured (t : Timeline Double) : Prop where
  nonempty : t.segments ≠ []
  segments : ∀ s ∈ t.segments, s.duration.Within brief longest
  items : t.useTrackAudio = false →
    ∀ item ∈ t.audioItems, item.duration.Within brief longest
  folded : t.audioPath = .null
  fewSegments : t.segments.length ≤ 2 ^ 41
  fewItems : t.useTrackAudio = false → t.audioItems.length ≤ 2 ^ 41
  transition : ∃ T, t.transition = some T ∧ T.Within brief longest
  picture : ∃ p, pictureOf t = .ok p ∧ p.Legible
  rate : ∃ rate, t.fps = .int rate

namespace Timeline.Measured

variable {t : Timeline Double} {g : Graph Double} {T : Double}

theorem within (h : t.Measured) :
    ∀ d ∈ t.segments.map Segment.duration, d.Within 0 longest := by
  rw [List.forall_mem_map]
  exact fun s hs => (h.segments s hs).mono (by norm_num [brief]) le_rfl

theorem writable (h : t.Measured) : ∀ s ∈ t.segments, s.duration.Writable :=
  fun s hs => (h.segments s hs).mono le_rfl (by norm_num [longest])

/-- The fades of several segments take some time, those of a single one none. -/
theorem fade_within (h : t.Measured) (hT : fadeOf t = .ok T) :
    T.Within 0 longest ∧ (2 ≤ t.segments.length → T.Within brief longest) := by
  obtain ⟨transition, given, within⟩ := h.transition
  unfold fadeOf at hT
  split at hT
  · next few =>
      obtain rfl := Except.ok.inj hT
      exact ⟨zero_within (by norm_num [longest]), fun many => by omega⟩
  · rw [given] at hT
    obtain rfl := Except.ok.inj hT
    exact ⟨within.mono (by norm_num [brief]) le_rfl, fun _ => within⟩

theorem offsets_moderate (h : t.Measured) (hT : fadeOf t = .ok T) :
    ∀ offset ∈ crossfadeOffsets (t.segments.map Segment.duration) T, offset.Moderate :=
  crossfadeOffsets_moderate h.within (h.fade_within hT).1 (by simpa using h.fewSegments)

theorem silence_writable (h : t.Measured) (hT : fadeOf t = .ok T) :
    (Seconds.max shortestSilence
      (composedDuration t.joinMode T (t.segments.map Segment.duration))).Writable :=
  Reel.silence_writable
    (composedDuration_moderate _ h.within (h.fade_within hT).1 (by simpa using h.fewSegments))

theorem sequence (h : t.Measured) : t.audioSequence = .ok t.audioItems := by
  unfold audioSequence
  rw [h.folded]
  split
  · next none => rw [List.isEmpty_iff.mp none]
  · rfl

theorem not_le_zero {x : Double} {high : ℚ} (h : x.Within brief high) :
    Seconds.le x Seconds.zero = false := by
  obtain ⟨v, hv, long, -⟩ := h.between
  refine Double.not_le_of_lt ?_
  rw [Double.lt_eq (x := Seconds.zero) (v := 0) rfl hv, decide_eq_true_iff]
  exact lt_of_lt_of_le (by norm_num [brief]) long

theorem formatted {x : Double} (h : x.Writable) :
    Yields Error.Never (Seconds.format x) fun _ => True := by
  obtain ⟨s, written, -⟩ := format_writable h
  rw [written]
  exact .ok trivial

theorem buildStops (h : t.Measured) : BuildStops t Error.Never where
  empty none := h.nonempty none
  unresolved s hs le := by
    rw [not_le_zero (h.segments s hs)] at le
    cases le
  picture := by
    obtain ⟨p, given, -⟩ := h.picture
    rw [given]
    exact .ok trivial
  fade := by
    obtain ⟨T, given, -⟩ := h.transition
    unfold fadeOf
    rw [given]
    split <;> exact .ok trivial
  segments s hs := by
    unfold segmentOptions
    split
    · exact (formatted (h.writable s hs)).bind fun text _ => .ok trivial
    · exact .ok trivial
  sound policy T hT := {
    sequence := by
      rw [h.sequence]
      exact .ok trivial
    transition := by
      obtain ⟨T, given, -⟩ := h.transition
      rw [given]
      exact .ok trivial
    items := fun items given item hi le => by
      obtain rfl := Except.ok.inj (h.sequence.symm.trans given)
      rw [not_le_zero (h.items policy item hi)] at le
      cases le
    silence := formatted (h.silence_writable hT) }

theorem exists_build (h : t.Measured) : ∃ g, Graph.build t = .ok g ∧ Nonempty (Assembly t g) :=
  (build_yields_of h.buildStops).exists_ok

theorem soundtrack_cut (h : t.Measured) {input : Nat} {sounds : List Label} {bs : List Binding}
    {ns : List (Node Double)} {l : Label} (hT : fadeOf t = .ok T)
    (count : sounds.length ≤ t.segments.length)
    (track : Soundtrack t T (crossfadeOffsets (t.segments.map Segment.duration) T) input sounds
      (composedDuration t.joinMode T (t.segments.map Segment.duration)) bs ns l) :
    (∀ n ∈ ns, n.Cuts) ∧ ∀ b ∈ bs, b.Timed := by
  cases track with
  | own policy joined =>
      refine ⟨joined.cut (count.trans h.fewSegments)
        (fun many => (h.fade_within hT).2 (by omega)) fun _ => h.offsets_moderate hT, by simp⟩
  | items policy given _ items sequence =>
      obtain rfl := Except.ok.inj (h.sequence.symm.trans given)
      have fades : ∀ T, t.transition = some T → T.Within 0 longest := by
        obtain ⟨transition, given, within⟩ := h.transition
        rintro T same
        obtain rfl := Option.some.inj (given.symm.trans same)
        exact within.mono (by norm_num [brief]) le_rfl
      obtain ⟨cut, labels⟩ := items.cut fades (h.items policy)
      refine ⟨?_, fun b hb => ?_⟩
      · rw [List.forall_mem_append]
        refine ⟨cut, ?_⟩
        cases sequence with
        | only => simp
        | several k => simpa using concatNode_cuts _ .audio k (labels.trans_le (h.fewItems policy))
      · have plain := items.plain b hb
        simp [Binding.Timed, plain, optionPairs]
  | silence k policy given bound =>
      have lasting := h.silence_writable hT
      obtain ⟨text, written, positive⟩ := format_writable lasting
      obtain ⟨same, given, rfl⟩ := bound
      obtain rfl := Except.ok.inj (written.symm.trans given)
      refine ⟨?_, ?_⟩
      · simpa [Node.Cuts] using Filter.soundFilters_cut lasting
      · simpa +decide [Binding.Timed, optionPairs, Setting.name] using positive

theorem assembly_cut (h : t.Measured) (a : Assembly t g) :
    (∀ n ∈ g.nodes, n.Cuts) ∧ ∀ b ∈ g.inputs, b.Timed := by
  obtain ⟨p, given, legible⟩ := h.picture
  obtain rfl := Except.ok.inj (given.symm.trans a.picture_eq)
  obtain ⟨-, pictures, sounds⟩ := a.segments.length
  have count : a.sounds.length ≤ t.segments.length := by
    rw [sounds]
    split <;> omega
  obtain ⟨soundNodes, soundInputs⟩ := h.soundtrack_cut a.fade_eq count a.soundtrack
  rw [a.nodes_eq, a.inputs_eq]
  simp only [List.forall_mem_append, List.forall_mem_singleton]
  refine ⟨⟨⟨⟨a.segments.cut legible h.writable, ?_⟩, soundNodes⟩, ?_⟩,
    a.segments.timed h.writable, soundInputs⟩
  · exact a.join.cut (pictures.trans_le h.fewSegments)
      (fun many => (h.fade_within a.fade_eq).2 (by omega)) fun _ => h.offsets_moderate a.fade_eq
  · exact Filter.outputFilters_cut legible

/-- The text of the graph is read back, and every step in it that cuts does so at a number greater
than zero. -/
theorem exists_text (h : t.Measured) (a : Assembly t g) :
    ∃ text parts, g.filterComplex = .ok text ∧ Part.readAll? text = some parts ∧
      ∀ part ∈ parts, ∀ step ∈ part.steps, CutsPositively step := by
  have each : ∀ n ∈ g.nodes, Yields Error.Never n.part
      fun part => ∀ step ∈ part.steps, CutsPositively step := fun n hn =>
    (Yields.mapM_mem ((h.assembly_cut a).1 n hn)).bind fun steps cut => .ok cut
  obtain ⟨parts, written, cut⟩ := (Yields.mapM_mem each).exists_ok
  have given : ∃ text, g.filterComplex = .ok text := by
    rw [Graph.filterComplex_eq, written]
    exact ⟨_, rfl⟩
  obtain ⟨text, given⟩ := given
  obtain ⟨rate, whole⟩ := h.rate
  obtain ⟨same, written', read⟩ := a.readAll?_filterComplex whole given
  obtain rfl := Except.ok.inj (written.symm.trans written')
  exact ⟨text, parts, given, read, cut⟩

end Timeline.Measured

/-- The command is read back with one graph, whose steps cut at numbers greater than zero, and the
time of every setting is such a number. -/
def Invocation.Bounded (i : Invocation) : Prop :=
  ∃ r text parts, Reading.ofWords? i.arguments = some r ∧
    r.output.filter (Setting.among ["-filter_complex"]) = [.option "-filter_complex" (.text text)] ∧
    Part.readAll? text = some parts ∧
    (∀ part ∈ parts, ∀ step ∈ part.steps, CutsPositively step) ∧
    ∀ s ∈ r.settings, s.name = "-t" →
      ∃ bound, s = .option "-t" (.text bound) ∧ WritesPositive bound

namespace Graph

variable {t : Timeline Double} {g : Graph Double} {e : EncodeOptions} {codecs : Codecs}

theorem untimed_outputSettings (g : Graph Double) (text : String) {rate : List Setting}
    (control : RateControl e codecs.video rate) :
    ∀ s ∈ g.outputSettings e codecs text rate, s.name ≠ "-t" := by
  have sound : g.soundSetting.name ≠ "-t" := by
    unfold soundSetting
    split <;> simp [Setting.name]
  have quality : ∀ s ∈ rate, s.name ≠ "-t" := by cases control <;> simp [Setting.name]
  simp only [outputSettings, encodingSettings, soundCodec, List.forall_mem_append]
  refine ⟨?_, ⟨⟨⟨?_, ?_⟩, quality⟩, ?_⟩, ?_⟩
  · simpa [Setting.name] using sound
  · simp [Setting.name]
  all_goals split <;> simp [Setting.name]

theorem exists_rateControl (format codec : String) :
    ∃ rate, RateControl { outputFormat := format } codec rate := by
  by_cases vp9 : codec = "libvpx-vp9"
  · exact ⟨_, .vp9 rfl vp9 (Value.toText_int (isLegible_small (by decide)))⟩
  by_cases mpeg4 : codec = "mpeg4"
  · exact ⟨_, .quantizer rfl mpeg4 (Value.toText_int (isLegible_small (by decide)))⟩
  · exact ⟨_, .factor rfl vp9 mpeg4 (Value.toText_int (isLegible_small (by decide)))⟩

/-- A graph of moderate durations is written in any container that is known. -/
theorem exists_bounded (h : t.Measured) (a : Assembly t g) {format : String}
    (known : EncodeOptions.codecs { outputFormat := format } = .ok codecs) (output sink : Value) :
    ∃ runs, g.invocations { outputFormat := format } output sink = .ok runs ∧
      ∀ i ∈ runs, i.Bounded := by
  obtain ⟨text, parts, written, read, cut⟩ := h.exists_text a
  obtain ⟨rate, control⟩ := exists_rateControl format codecs.video
  have valid : EncodeOptions.validate { outputFormat := format } = .ok () := by
    rw [EncodeOptions.validate, known]
    rfl
  refine ⟨_, (invocations_eq_ok_iff valid known).mpr ⟨text, rate, written, control, rfl⟩, ?_⟩
  rw [if_neg (by simp), List.forall_mem_singleton]
  have words : g.baseWords { outputFormat := format } codecs text rate ++
      [].flatMap Setting.words ++ [output] = _ := a.bound.words_reading text rate [] output
  rw [List.flatMap_nil, List.append_nil, List.append_nil] at words
  have neutral : Neutral [] := by simp [Neutral]
  have sorted := a.bound.sorted text control neutral output
  rw [List.append_nil] at sorted
  refine ⟨g.reading (g.outputSettings _ codecs text rate) output, text, parts, ?_,
    g.filter_graph text control, read, cut, ?_⟩
  · dsimp only
    rw [words, Reading.ofWords?_words sorted]
  · intro s hs named
    simp only [Reading.settings, reading, List.mem_append, List.mem_flatMap, List.mem_map] at hs
    rcases hs with (hs | ⟨input, ⟨b, hb, rfl⟩, hs⟩) | hs
    · have others : ∀ s ∈ [Setting.flag "-y", .flag "-hide_banner"], s.name ≠ "-t" := by decide
      exact (others s hs named).elim
    · rcases List.mem_append.mp hs with hs | hs
      · exact (h.assembly_cut a).2 b hb s hs named
      · obtain rfl := List.mem_singleton.mp hs
        simp [Setting.name] at named
    · exact (untimed_outputSettings g text control s hs named).elim

end Graph

end Reel
