import Reel.Proofs.Graph.Notation
import Reel.Proofs.Graph.WellFormed
import Reel.Proofs.Number.Plain

/-!
# What a compiled graph writes can be read back

A node is written as a part: the texts of its pads, and the names of its filters with their
formatted arguments. The construction uses filters of a dozen shapes only, whose names are fixed
and whose arguments are numbers and fixed words, and pads that are labels and streams. All of
them are plain text, so no part of a compiled graph holds a mark where it would be cut.
-/
namespace Reel

open Build Label

section Parts

variable {α : Type} [Seconds α]

/-- A filter's name and its arguments as they are written. -/
def Filter.written (f : Filter α) : Except Error (String × List String) := do
  let positional ← f.positional.mapM Argument.format
  let options ← f.options.mapM fun (key, argument) => do
    return key ++ "=" ++ (← argument.format)
  return (f.name, positional ++ options)

/-- The part that a node is written as. -/
def Node.part (n : Node α) : Except Error Part := do
  return { inputs := n.inputs.map Source.text, steps := ← n.filters.mapM Filter.written
           output := n.output.text }

theorem mapM_eq_map {β γ δ : Type} {f : β → Except Error γ} {g : β → Except Error δ} {h : δ → γ}
    (each : ∀ x, f x = (g x).map h) (xs : List β) :
    xs.mapM f = (xs.mapM g).map (List.map h) := by
  induction xs with
  | nil => rfl
  | cons x rest ih =>
      rw [List.mapM_cons, List.mapM_cons, each, ih]
      cases g x with
      | error e => rfl
      | ok y => cases rest.mapM g <;> rfl

theorem ofList_stepChars (name : String) (arguments : List String) :
    String.ofList (Part.stepChars (name, arguments)) =
      if arguments.isEmpty then name else name ++ "=" ++ String.intercalate ":" arguments := by
  rw [← String.toList_inj, String.toList_ofList]
  cases arguments with
  | nil => rfl
  | cons a rest => simp [Part.stepChars, String.toList_intercalate]

theorem Filter.render_eq (f : Filter α) :
    f.render = f.written.map fun step => String.ofList (Part.stepChars step) := by
  unfold Filter.render Filter.written
  cases f.positional.mapM Argument.format with
  | error e => rfl
  | ok positional =>
      cases f.options.mapM fun (key, argument) => do
        return key ++ "=" ++ (← Argument.format argument) with
      | error e => rfl
      | ok options => exact congrArg Except.ok (ofList_stepChars f.name _).symm

theorem Node.render_eq (n : Node α) :
    n.render = n.part.map fun p => String.ofList p.chars := by
  unfold Node.render Node.part
  rw [mapM_eq_map Filter.render_eq]
  cases n.filters.mapM Filter.written with
  | error e => rfl
  | ok steps =>
      refine congrArg Except.ok ?_
      have pads : (n.inputs.map Source.pad).flatMap String.toList =
          (n.inputs.map Source.text).flatMap Part.padChars := by
        simp [List.flatMap_map, Source.pad, Part.padChars]
      have body : (steps.map fun step => String.ofList (Part.stepChars step)).map String.toList =
          steps.map Part.stepChars := by
        simp
      rw [← String.toList_inj, String.toList_ofList]
      simp only [String.toList_append, String.toList_join, String.toList_intercalate, pads, body,
        Part.chars, Part.bodyChars, Label.pad, Part.padChars]
      simp

theorem Graph.filterComplex_eq (g : Graph α) :
    g.filterComplex = (g.nodes.mapM Node.part).map fun parts =>
      String.ofList ([';'].intercalate (parts.map Part.chars)) := by
  unfold Graph.filterComplex
  rw [mapM_eq_map Node.render_eq]
  cases g.nodes.mapM Node.part with
  | error e => rfl
  | ok parts =>
      refine congrArg Except.ok ?_
      rw [← String.toList_inj]
      simp [String.toList_intercalate, Function.comp_def]

end Parts

theorem IsPlainText.avoids {s : String} (h : IsPlainText s) {marks : List Char}
    (apart : marks.all fun c => !isPlainChar c) : Avoids marks s := by
  intro c hc hs
  have plain := h c hs
  have mark := List.all_eq_true.mp apart c hc
  simp [plain] at mark

/-- However the argument is written, it is written in plain text. -/
def Argument.IsPlain (a : Argument Double) : Prop :=
  ∀ text, a.format = .ok text → IsPlainText text

/-- The names in the filter are plain, and so is all that it is written with. -/
@[mk_iff]
structure Filter.IsPlain (f : Filter Double) : Prop where
  name : IsPlainText f.name
  positional : ∀ a ∈ f.positional, a.IsPlain
  options : ∀ option ∈ f.options, IsPlainText option.1 ∧ option.2.IsPlain

namespace Argument

@[simp] theorem isPlain_seconds (x : Double) : (seconds x).IsPlain := by
  intro text h
  have written : Timecode.format (.real x) = .ok text := h
  exact Timecode.isPlainText_format written

@[simp] theorem isPlain_number (n : Int) : (number n : Argument Double).IsPlain := by
  intro text h
  have shown : (Value.int n).toText = .ok text := h
  unfold Value.toText at shown
  split at shown
  · have digits : (Value.int n).shown = toString n := by
      simp [Value.shown, Value.quoted, Value.quotedChars]
    obtain rfl := Except.ok.inj shown
    rw [digits]
    exact isPlainText_toString n
  · cases shown

@[simp] theorem isPlain_word {s : String} :
    (word s : Argument Double).IsPlain ↔ IsPlainText s := by
  refine ⟨fun h => h s rfl, fun h text ht => ?_⟩
  obtain rfl := Except.ok.inj ht
  exact h

end Argument

section Filters

variable {p : Picture} {rate : Int}

theorem rate_isPlain (hp : p.fps = .int rate) :
    (Argument.literal p.fps : Argument Double).IsPlain := by
  rw [hp]
  exact Argument.isPlain_number rate

theorem segmentFilters_isPlain (hp : p.fps = .int rate) (duration : Double) :
    ∀ f ∈ segmentFilters p duration, f.IsPlain := by
  simp +decide [segmentFilters, Filter.isPlain_iff, cut, restartClock, rate_isPlain hp]

theorem outputFilters_isPlain (hp : p.fps = .int rate) :
    ∀ f ∈ (outputFilters p : List (Filter Double)), f.IsPlain := by
  simp +decide [outputFilters, Filter.isPlain_iff, rate_isPlain hp]

theorem soundFilters_isPlain (duration : Double) : ∀ f ∈ soundFilters duration, f.IsPlain := by
  simp +decide [soundFilters, Filter.isPlain_iff, cut, restartClock, audioFormat,
    -Prod.forall]

theorem itemFilters_isPlain (duration fade fadeStart : Double) :
    ∀ f ∈ itemFilters duration fade fadeStart, f.IsPlain := by
  simp +decide [itemFilters, Filter.isPlain_iff, cut, restartClock, audioFormat,
    -Prod.forall]

theorem silence_isPlain : (silence : Filter Double).IsPlain := by
  simp +decide [silence, Filter.isPlain_iff]

theorem pictureFade_isPlain (T offset : Double) : (pictureFade T offset).IsPlain := by
  simp +decide [pictureFade, Filter.isPlain_iff]

theorem soundFade_isPlain (T : Double) : (soundFade T).IsPlain := by
  simp +decide [soundFade, Filter.isPlain_iff]

theorem alignment_isPlain (finish : Double) : ∀ f ∈ alignment finish, f.IsPlain := by
  simp +decide [alignment, Filter.isPlain_iff, cut]

theorem concatenation_isPlain (lane : StreamKind) (count : Nat) :
    (concatenation lane count : Filter Double).IsPlain := by
  simp +decide [concatenation, Filter.isPlain_iff]

end Filters

section Shapes

variable {α : Type} [Seconds α] {p : Picture} {transition : Option α} {ns : List (Node α)}
  {bs : List Binding} {l : Label}

/-- The nodes that the construction lays down. -/
inductive Node.Laid (p : Picture) (transition : Option α) : Node α → Prop
  | picture {i : Nat} {s : Segment α} {b : Binding} {n : Node α} :
      PictureOf p i s b n → Laid p transition n
  | sound {i : Nat} {s : Segment α} {m : Node α} : SoundOf i s m → Laid p transition m
  | fade {T offset : α} {i : Nat} {current next l : Label} {lane : StreamKind}
      {ns : List (Node α)} {n : Node α} :
      Fade T offset i current next lane ns l → n ∈ ns → Laid p transition n
  | concat (kind : LabelKind) (lane : StreamKind) (labels : List Label) (k : Nat) :
      Laid p transition (concatNode kind lane labels k)
  | item {i input : Nat} {item : AudioItem α} {b : Binding} {n : Node α} :
      ItemOf transition i input item b n → Laid p transition n
  | silence (length : α) (input k : Nat) :
      Laid p transition { inputs := [.stream input .audio], filters := soundFilters length
                          output := .single .silenceFill k }
  | output (joined : Label) (k : Nat) : Laid p transition (outputNode p joined k)

theorem Segments.laid {own : Bool} {i : Nat} {segments : List (Segment α)}
    {pictures sounds : List Label} (h : Segments p own i segments bs ns pictures sounds) :
    ∀ n ∈ ns, n.Laid p transition := by
  induction h with
  | nil => simp
  | cons picture sound _ ih =>
      rw [List.forall_mem_cons, List.forall_mem_append]
      refine ⟨.picture picture, ?_, ih⟩
      cases sound with
      | without => simp
      | node sound => simpa using Node.Laid.sound sound

theorem Fades.laid {lane : StreamKind} {T : α} {i : Nat} {current : Label}
    {rest : List (Label × α)} (h : Fades lane T i current rest ns l) :
    ∀ n ∈ ns, n.Laid p transition := by
  induction h with
  | done => simp
  | fade first _ ih =>
      rw [List.forall_mem_append]
      exact ⟨fun n hn => .fade first hn, ih⟩

theorem Joined.laid {mode : JoinMode} {lane : StreamKind} {T : α} {offsets : List α}
    {labels : List Label} (h : Joined mode lane T offsets labels ns l) :
    ∀ n ∈ ns, n.Laid p transition := by
  cases h with
  | only => simp
  | concat k => simpa using Node.Laid.concat ..
  | fades _ faded => exact faded.laid

theorem Items.laid {i input : Nat} {items : List (AudioItem α)} {labels : List Label}
    (h : Items transition i input items bs ns labels) : ∀ n ∈ ns, n.Laid p transition := by
  induction h with
  | nil => simp
  | cons first _ ih => exact List.forall_mem_cons.mpr ⟨.item first, ih⟩

theorem Soundtrack.laid {t : Timeline α} {T : α} {offsets : List α} {input : Nat}
    {sounds : List Label} {duration : α}
    (h : Soundtrack t T offsets input sounds duration bs ns l) :
    ∀ n ∈ ns, n.Laid p t.transition := by
  cases h with
  | own _ joined => exact joined.laid
  | items _ _ _ items sequence =>
      rw [List.forall_mem_append]
      refine ⟨items.laid, ?_⟩
      cases sequence with
      | only => simp
      | several k => simpa using Node.Laid.concat ..
  | silence k => simpa using Node.Laid.silence ..

theorem Assembly.laid {t : Timeline α} {g : Graph α} (a : Assembly t g) :
    ∀ n ∈ g.nodes, n.Laid a.picture t.transition := by
  rw [a.nodes_eq]
  simp only [List.forall_mem_append, List.forall_mem_singleton]
  exact ⟨⟨⟨a.segments.laid, a.join.laid⟩, a.soundtrack.laid⟩, .output a.joined a.last⟩

end Shapes

theorem LabelKind.isPlainText_stem (kind : LabelKind) : IsPlainText kind.stem := by
  intro c hc
  have letter := kind.stem_isAlpha c hc
  simp [isPlainChar, Char.isAlphanum, letter]

theorem Label.isPlainText_counted (kind : LabelKind) (index k : Nat) :
    IsPlainText (counted kind index k).text :=
  kind.isPlainText_stem.append (isPlainText_repr index)

theorem Label.isPlainText_single (kind : LabelKind) (k : Nat) :
    IsPlainText (single kind k).text :=
  kind.isPlainText_stem

structure Node.IsPlain (n : Node Double) : Prop where
  filtered : n.filters ≠ []
  filters : ∀ f ∈ n.filters, f.IsPlain
  output : IsPlainText n.output.text

theorem SoundOf.isPlain {i : Nat} {s : Segment Double} {m : Node Double} (h : SoundOf i s m) :
    m.IsPlain := by
  cases h with
  | own k _ =>
      exact ⟨by simp [soundFilters], soundFilters_isPlain s.duration, isPlainText_counted _ _ _⟩
  | silent k _ =>
      refine ⟨by simp, ?_, isPlainText_counted _ _ _⟩
      exact List.forall_mem_cons.mpr ⟨silence_isPlain, soundFilters_isPlain s.duration⟩

theorem Fade.isPlain {T offset : Double} {i : Nat} {current next l : Label} {lane : StreamKind}
    {ns : List (Node Double)} (h : Fade T offset i current next lane ns l) :
    ∀ n ∈ ns, n.IsPlain := by
  cases h with
  | picture k =>
      rw [List.forall_mem_singleton]
      exact ⟨by simp [pictureFadeNode], by simpa [pictureFadeNode] using pictureFade_isPlain T offset,
        isPlainText_counted _ _ _⟩
  | sound j k =>
      rw [List.forall_mem_cons, List.forall_mem_singleton]
      refine ⟨⟨by simp [alignmentNode, alignment], alignment_isPlain _, isPlainText_counted _ _ _⟩, ?_⟩
      exact ⟨by simp [soundFadeNode], by simpa [soundFadeNode] using soundFade_isPlain T,
        isPlainText_counted _ _ _⟩

theorem Node.Laid.isPlain {p : Picture} {rate : Int} (hp : p.fps = .int rate)
    {transition : Option Double} {n : Node Double} (h : n.Laid p transition) : n.IsPlain := by
  cases h with
  | @picture i s b _ h =>
      obtain ⟨k, rfl⟩ := h.node
      exact ⟨by simp [segmentFilters], segmentFilters_isPlain hp s.duration,
        isPlainText_counted _ _ _⟩
  | sound h => exact h.isPlain
  | fade h hn => exact h.isPlain n hn
  | concat kind lane labels k =>
      exact ⟨by simp [concatNode], by simpa [concatNode] using concatenation_isPlain lane _,
        isPlainText_single _ _⟩
  | @item i input item b _ h =>
      obtain ⟨T, k, -, rfl⟩ := h.node
      exact ⟨by simp [itemFilters], itemFilters_isPlain _ _ _, isPlainText_counted _ _ _⟩
  | silence length input k =>
      exact ⟨by simp [soundFilters], soundFilters_isPlain length, isPlainText_single _ _⟩
  | output joined k =>
      exact ⟨by simp [outputNode, outputFilters], outputFilters_isPlain hp, isPlainText_single _ _⟩

theorem Filter.IsPlain.of_written {f : Filter Double} (h : f.IsPlain)
    {step : String × List String} (written : f.written = .ok step) :
    IsPlainText step.1 ∧ ∀ a ∈ step.2, Avoids (Part.outerMarks ++ [',', ':']) a := by
  obtain ⟨texts, positional, written⟩ := exists_of_bind_ok written
  obtain ⟨pairs, options, written⟩ := exists_of_bind_ok written
  obtain rfl := Except.ok.inj written
  refine ⟨h.name, fun a ha => ?_⟩
  rcases List.mem_append.mp ha with ha | ha
  · obtain ⟨argument, mem, format⟩ := exists_of_mem_mapM positional a ha
    exact (h.positional argument mem a format).avoids (by decide)
  · obtain ⟨⟨key, argument⟩, mem, pair⟩ := exists_of_mem_mapM options a ha
    obtain ⟨text, format, pair⟩ := exists_of_bind_ok pair
    obtain rfl := Except.ok.inj pair
    obtain ⟨plainKey, plainValue⟩ := h.options _ mem
    have before : Avoids (Part.outerMarks ++ [',', ':']) key := plainKey.avoids (by decide)
    have between : Avoids (Part.outerMarks ++ [',', ':']) "=" := by decide
    have behind : Avoids (Part.outerMarks ++ [',', ':']) text :=
      (plainValue text format).avoids (by decide)
    exact (before.append between).append behind

/-- A plain node is written as a clean part, if no pad that it reads holds an outer mark. -/
theorem Node.IsPlain.clean {n : Node Double} (h : n.IsPlain)
    (inputs : ∀ s ∈ n.inputs, Avoids Part.outerMarks s.text) {p : Part} (written : n.part = .ok p) :
    p.Clean := by
  obtain ⟨steps, filters, written⟩ := exists_of_bind_ok written
  obtain rfl := Except.ok.inj written
  have plain : ∀ step ∈ steps, IsPlainText step.1 ∧
      ∀ a ∈ step.2, Avoids (Part.outerMarks ++ [',', ':']) a := by
    intro step hs
    obtain ⟨f, hf, given⟩ := exists_of_mem_mapM filters step hs
    exact (h.filters f hf).of_written given
  refine ⟨by simpa using inputs, ?_, fun step hs => (plain step hs).1.avoids (by decide),
    fun step hs => (plain step hs).2, h.output.avoids (by decide)⟩
  have filtered := List.length_pos_iff.mpr h.filtered
  rw [← length_of_mapM filters] at filtered
  exact List.length_pos_iff.mp filtered

theorem pictureOf_fps {t : Timeline Double} {p : Picture} (h : pictureOf t = .ok p) :
    p.fps = t.fps := by
  obtain ⟨width, -, h⟩ := exists_of_bind_ok h
  obtain ⟨height, -, h⟩ := exists_of_bind_ok h
  obtain rfl := Except.ok.inj h
  rfl

theorem Source.avoids_stream (input : Nat) (kind : StreamKind) :
    Avoids Part.outerMarks (Source.stream input kind).text := by
  have number : Avoids Part.outerMarks (toString input) :=
    (isPlainText_repr input).avoids (by decide)
  have colon : Avoids Part.outerMarks ":" := by decide
  have lane : Avoids Part.outerMarks kind.text := by cases kind <;> decide
  exact (number.append colon).append lane

namespace Assembly

variable {t : Timeline Double} {g : Graph Double}

theorem isPlain (a : Assembly t g) {rate : Int} (hr : t.fps = .int rate) :
    ∀ n ∈ g.nodes, n.IsPlain :=
  fun n hn => (a.laid n hn).isPlain ((pictureOf_fps a.picture_eq).trans hr)

/-- A pad that a node reads is a stream or the label of another node. -/
theorem avoids_inputs (a : Assembly t g) {rate : Int} (hr : t.fps = .int rate) {n : Node Double}
    (hn : n ∈ g.nodes) : ∀ s ∈ n.inputs, Avoids Part.outerMarks s.text := by
  intro s hs
  cases s with
  | stream input kind => exact Source.avoids_stream input kind
  | output l =>
      obtain ⟨k, hk, rfl⟩ := List.mem_iff_getElem.mp hn
      obtain ⟨j, before, rfl⟩ := a.wellFormed.earlier k hk l hs
      exact (a.isPlain hr _ (List.getElem_mem _)).output.avoids (by decide)

theorem readAll?_filterComplex (a : Assembly t g) {rate : Int} (hr : t.fps = .int rate)
    {text : String} (written : g.filterComplex = .ok text) :
    ∃ parts, g.nodes.mapM Node.part = .ok parts ∧ Part.readAll? text = some parts := by
  rw [Graph.filterComplex_eq] at written
  cases given : g.nodes.mapM Node.part with
  | error e =>
      rw [given] at written
      cases written
  | ok parts =>
      rw [given] at written
      obtain rfl := Except.ok.inj written
      refine ⟨parts, rfl, Part.readAll?_intercalate ?_ ?_⟩
      · have count := length_of_mapM given
        rw [a.nodes_eq, List.length_append, List.length_singleton] at count
        exact List.length_pos_iff.mp (by omega)
      · intro p hp
        obtain ⟨n, hn, hp⟩ := exists_of_mem_mapM given p hp
        exact (a.isPlain hr n hn).clean (a.avoids_inputs hr hn) hp

end Assembly

end Reel
