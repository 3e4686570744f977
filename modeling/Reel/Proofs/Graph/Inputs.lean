import Reel.Proofs.Graph.Fades

/-!
# Which input each node reads

A segment's own sound is read from the input that has the segment's number, and nobody asks which
input the segment was bound to. That is right because segments are bound before anything else, one
input each, in the order of playback: their number is the number of their input. Audio items are
bound behind them, or silence in their place.
-/
namespace Reel

open Build Label

variable {α : Type}

section Parts

theorem Sequence.of_one {ns : List (Node α)} {labels : List Label} {l : Label}
    (h : Sequence labels ns l) (one : labels.length = 1) : labels = [l] := by
  cases h with
  | only => rfl
  | several _ many => exact (many one).elim

theorem Sequence.of_several {ns : List (Node α)} {labels : List Label} {l : Label}
    (h : Sequence labels ns l) (many : labels.length ≠ 1) :
    ∃ k, ns = [concatNode .audioSequence .audio labels k] ∧ l = .single .audioSequence k := by
  cases h with
  | only => exact (many rfl).elim
  | several k _ => exact ⟨k, rfl, rfl⟩

variable [Seconds α] {p : Picture} {own : Bool} {i input : Nat} {bs : List Binding}
  {ns : List (Node α)}

theorem Segments.get {segments : List (Segment α)} {pictures sounds : List Label}
    (h : Segments p own i segments bs ns pictures sounds) {j : Nat} {s : Segment α}
    (place : segments[j]? = some s) :
    ∃ b n, bs[j]? = some b ∧ n ∈ ns ∧ PictureOf p (i + j) s b n ∧
      (own = true → ∃ m, m ∈ ns ∧ sounds[j]? = some m.output ∧ SoundOf (i + j) s m) := by
  induction h generalizing j with
  | nil => simp at place
  | @cons i first b n ms rest bs ns pictures sounds hp hs _ ih =>
      cases j with
      | zero =>
          obtain rfl : first = s := by simpa using place
          refine ⟨b, n, rfl, List.mem_cons_self, hp, fun policy => ?_⟩
          cases hs with
          | without => cases policy
          | @node m hm => exact ⟨m, by simp, rfl, hm⟩
      | succ j =>
          obtain ⟨b', n', bound, node, picture, sound⟩ := ih (by simpa using place)
          rw [Nat.add_right_comm] at picture sound
          refine ⟨b', n', by simpa using bound, by simp [node], picture, fun policy => ?_⟩
          obtain ⟨m, mem, label, hm⟩ := sound policy
          refine ⟨m, by simp [mem], ?_, hm⟩
          cases hs with
          | without => cases policy
          | node _ => simpa using label

theorem Items.length {transition : Option α} {items : List (AudioItem α)} {labels : List Label}
    (h : Items transition i input items bs ns labels) :
    bs.length = items.length ∧ labels.length = items.length := by
  induction h with
  | nil => exact ⟨rfl, rfl⟩
  | cons _ _ ih => exact ⟨by simp [ih.1], by simp [ih.2]⟩

theorem Items.get {transition : Option α} {items : List (AudioItem α)} {labels : List Label}
    (h : Items transition i input items bs ns labels) {j : Nat} {item : AudioItem α}
    (place : items[j]? = some item) :
    ∃ b n, bs[j]? = some b ∧ n ∈ ns ∧ labels[j]? = some n.output ∧
      ItemOf transition (i + j) (input + j) item b n := by
  induction h generalizing j with
  | nil => simp at place
  | @cons i input first b n rest bs ns labels hi _ ih =>
      cases j with
      | zero =>
          obtain rfl : first = item := by simpa using place
          exact ⟨b, n, rfl, List.mem_cons_self, rfl, hi⟩
      | succ j =>
          obtain ⟨b', n', bound, node, label, item⟩ := ih (by simpa using place)
          rw [Nat.add_right_comm i, Nat.add_right_comm input] at item
          exact ⟨b', n', by simpa using bound, by simp [node], by simpa using label, item⟩

section Soundtracks

variable {t : Timeline α} {T : α} {offsets : List α} {sounds : List Label} {duration : α}
  {l : Label}

theorem Soundtrack.of_segments (h : Soundtrack t T offsets input sounds duration bs ns l)
    (own : t.useTrackAudio = true) : bs = [] ∧ Joined t.joinMode .audio T offsets sounds ns l := by
  cases h with
  | own _ joined => exact ⟨rfl, joined⟩
  | items policy => rw [own] at policy; cases policy
  | silence _ policy => rw [own] at policy; cases policy

/-- Where segments do not bring their sound, the soundtrack is made of audio items or of silence. -/
theorem Soundtrack.of_others (h : Soundtrack t T offsets input sounds duration bs ns l)
    (policy : t.useTrackAudio = false) : ∃ items, t.audioSequence = .ok items ∧
      (items ≠ [] → ∃ labels ms ks, ns = ms ++ ks ∧ Items t.transition 0 input items bs ms labels ∧
        Sequence labels ks l) ∧
      (items = [] → ∃ b n, bs = [b] ∧ SilenceBound (Seconds.max shortestSilence duration) input b ∧
        ns = [n] ∧ n.inputs = [.stream input .audio] ∧ n.output = l ∧ l.text = "silent") := by
  cases h with
  | own own => rw [policy] at own; cases own
  | @items items bs ms ks labels l _ given nonempty hi hs =>
      exact ⟨items, given, fun _ => ⟨labels, ms, ks, rfl, hi, hs⟩, fun none => (nonempty none).elim⟩
  | silence k _ given hb =>
      exact ⟨[], given, fun some => (some rfl).elim,
        fun _ => ⟨_, _, rfl, hb, rfl, rfl, rfl, rfl⟩⟩

end Soundtracks

end Parts

variable [Seconds α]

/-- The chain has a filter that cuts at a duration, with the duration as it is written. -/
def Node.CutAt (n : Node α) (name : String) (duration : α) : Prop :=
  ∃ f ∈ n.filters, f = cut name duration ∧
    f.render = (Seconds.format duration).map fun text => name ++ "=0:" ++ text

theorem cut_render (name : String) (duration : α) :
    (cut name duration).render =
      (Seconds.format duration).map fun text => name ++ "=0:" ++ text := by
  have start : (Argument.number 0 : Argument α).format = .ok "0" := by
    have digits : (Value.int 0).toText = .ok "0" := by decide +kernel
    exact digits
  have finish : (Argument.seconds duration).format = Seconds.format duration := rfl
  simp only [Filter.render, cut, List.mapM_cons, List.mapM_nil, start, finish]
  cases Seconds.format duration with
  | error e => rfl
  | ok text =>
      refine congrArg Except.ok ?_
      simp [← String.toList_inj]

theorem Node.cutAt_of_mem {n : Node α} {name : String} {duration : α}
    (h : cut name duration ∈ n.filters) : n.CutAt name duration :=
  ⟨_, h, rfl, cut_render name duration⟩

namespace Graph

variable (g : Graph α)

/-- The graph has a node of the name that reads the sources and nothing else. -/
def Reads (name : String) (sources : List Source) (n : Node α) : Prop :=
  g.node? name = some n ∧ n.inputs = sources

/-- A segment is bound to the input of its index, which its picture is read from. A still image is
shown for as long as its picture is cut at, by the same text. -/
structure BindsSegment (i : Nat) (s : Segment α) : Prop where
  binding : ∃ b, g.inputs[i]? = some b ∧ b.path = s.path ∧ b.synthetic = false ∧
    (s.isImage = true → ∃ text, Seconds.format s.duration = .ok text ∧
      b.options = ["-loop", "1", "-t", text]) ∧
    (s.isImage = false → b.options = [])
  picture : ∃ n, g.Reads ("v" ++ toString i) [.stream i .video] n ∧ n.CutAt "trim" s.duration

/-- The sound of a segment under a label: that of its input if it has any, else silence that is cut
where the picture is. -/
structure SoundsAs (i : Nat) (s : Segment α) (l : Label) : Prop where
  own : s.isImage = false → s.hasAudio.truthy = true → l.text = "a" ++ toString i ∧
    ∃ n, g.Reads l.text [.stream i .audio] n ∧ n.CutAt "atrim" s.duration
  silent : s.isImage = true ∨ s.hasAudio.truthy = false → l.text = "asil" ++ toString i ∧
    ∃ n, g.Reads l.text [] n ∧ n.CutAt "atrim" s.duration

/-- The sounds of the segments in order are joined into what the graph gives out. -/
structure PlaysSegments (t : Timeline α) : Prop where
  inputs : g.inputs.length = t.segments.length
  lanes : ∃ labels T ns l, labels.length = t.segments.length ∧
    (∀ i s label, t.segments[i]? = some s → labels[i]? = some label → g.SoundsAs i s label) ∧
    Joined t.joinMode .audio T (crossfadeOffsets (t.segments.map Segment.duration) T) labels ns l ∧
    (∀ n ∈ ns, n ∈ g.nodes) ∧ g.audio = some l

/-- The audio items are bound behind a number of inputs and played one after the other. -/
structure PlaysItems (bound : Nat) (items : List (AudioItem α)) : Prop where
  inputs : g.inputs.length = bound + items.length
  item : ∀ j item, items[j]? = some item →
    g.inputs[bound + j]? = some { index := bound + j, path := item.path } ∧
    ∃ n, g.Reads ("aseq" ++ toString j) [.stream (bound + j) .audio] n
  only : items.length = 1 → ∃ n, g.node? "aseq0" = some n ∧ g.audio = some n.output
  several : items.length ≠ 1 → ∃ n, ∃ labels : List Label,
    g.Reads "audio" (labels.map .output) n ∧
    labels.map Label.text = (List.range items.length).map (fun j => "aseq" ++ toString j) ∧
    n.filters = [concatenation .audio items.length] ∧ g.audio = some n.output

/-- Generated silence is bound behind a number of inputs, as the only generated source. -/
structure PlaysSilence (bound : Nat) : Prop where
  inputs : g.inputs.length = bound + 1
  binding : ∃ b, g.inputs[bound]? = some b ∧ b.synthetic = true ∧ b.path = silenceSource ∧
    ∀ i b', g.inputs[i]? = some b' → b'.synthetic = true → i = bound
  sound : ∃ n, g.Reads "silent" [.stream bound .audio] n ∧ g.audio = some n.output

end Graph

theorem segmentOptions_ok {s : Segment α} {options : List String}
    (h : segmentOptions s = .ok options) :
    (s.isImage = true → ∃ text, Seconds.format s.duration = .ok text ∧
      options = ["-loop", "1", "-t", text]) ∧ (s.isImage = false → options = []) := by
  unfold segmentOptions at h
  split at h
  · next image =>
      obtain ⟨text, written, h⟩ := exists_of_bind_ok h
      exact ⟨fun _ => ⟨text, written, (Except.ok.inj h).symm⟩, by simp [image]⟩
  · next other => exact ⟨fun image => (other image).elim, fun _ => (Except.ok.inj h).symm⟩

namespace Assembly

variable {t : Timeline α} {g : Graph α}

theorem reads (a : Assembly t g) {n : Node α} (hn : n ∈ g.nodes) :
    g.Reads n.output.text n.inputs n :=
  ⟨a.node?_eq hn, rfl⟩

theorem mem_nodes_of_segment (a : Assembly t g) {n : Node α} (hn : n ∈ a.segmentNodes) :
    n ∈ g.nodes := by
  rw [a.nodes_eq]
  simp [hn]

theorem bindsSegment (a : Assembly t g) {i : Nat} {s : Segment α}
    (place : t.segments[i]? = some s) : g.BindsSegment i s := by
  obtain ⟨b, n, bound, node, hp, -⟩ := a.segments.get place
  rw [Nat.zero_add] at hp
  obtain ⟨⟨options, given, rfl⟩, k, rfl⟩ := hp
  have first : i < a.segmentInputs.length := (List.getElem?_eq_some_iff.mp bound).1
  constructor
  · refine ⟨{ index := i, path := s.path, options }, ?_, rfl, rfl, segmentOptions_ok given⟩
    rw [a.inputs_eq, List.getElem?_append_left first, bound]
  · refine ⟨_, a.reads (a.mem_nodes_of_segment node), Node.cutAt_of_mem ?_⟩
    exact List.mem_cons_self

theorem soundsAs (a : Assembly t g) (own : t.useTrackAudio = true) {i : Nat} {s : Segment α}
    {l : Label} (place : t.segments[i]? = some s) (lane : a.sounds[i]? = some l) :
    g.SoundsAs i s l := by
  obtain ⟨-, -, -, -, -, sound⟩ := a.segments.get place
  obtain ⟨m, node, label, hm⟩ := sound own
  rw [Nat.zero_add] at hm
  obtain rfl := Option.some.inj (label.symm.trans lane)
  have reads := a.reads (a.mem_nodes_of_segment node)
  cases hm with
  | own k plays =>
      obtain ⟨image, audible⟩ : s.isImage = false ∧ s.hasAudio.truthy = true := by simpa using plays
      refine ⟨fun _ _ => ⟨rfl, _, reads, Node.cutAt_of_mem List.mem_cons_self⟩, ?_⟩
      simp [image, audible]
  | silent k mute =>
      refine ⟨fun image audible => by simp [image, audible] at mute, fun _ => ⟨rfl, _, reads, ?_⟩⟩
      exact Node.cutAt_of_mem (List.mem_cons_of_mem _ List.mem_cons_self)

theorem inputs_length (a : Assembly t g) :
    g.inputs.length = t.segments.length + a.soundInputs.length := by
  rw [a.inputs_eq, List.length_append, a.segments.length.1]

/-- What is bound for the sound stands behind the segments. -/
theorem getElem?_inputs (a : Assembly t g) (j : Nat) :
    g.inputs[t.segments.length + j]? = a.soundInputs[j]? := by
  rw [a.inputs_eq, ← a.segments.length.1, List.getElem?_append_right (by omega)]
  congr 1
  omega

theorem playsSegments (a : Assembly t g) (own : t.useTrackAudio = true) : g.PlaysSegments t := by
  obtain ⟨none, joined⟩ := a.soundtrack.of_segments own
  have sounds := a.segments.length.2.2
  rw [if_pos own] at sounds
  refine ⟨by rw [a.inputs_length, none, List.length_nil, Nat.add_zero], a.sounds, a.T,
    a.soundNodes, a.sound, sounds, fun i s l place lane => a.soundsAs own place lane, joined,
    fun n hn => a.mem_nodes_of_sound hn, a.audio_eq⟩

theorem itemNamed (a : Assembly t g) {items : List (AudioItem α)} {labels : List Label}
    {bs : List Binding} {ns : List (Node α)} (laid : ∀ n ∈ ns, n ∈ g.nodes)
    (h : Items t.transition 0 t.segments.length items bs ns labels) {j : Nat} {item : AudioItem α}
    (place : items[j]? = some item) : ∃ n, labels[j]? = some n.output ∧
      n.output.text = "aseq" ++ toString j ∧
        g.Reads n.output.text [.stream (t.segments.length + j) .audio] n := by
  obtain ⟨b, n, -, node, label, hn⟩ := h.get place
  have reads := a.reads (laid n node)
  obtain ⟨T, k, -, rfl⟩ := hn.node
  rw [Nat.zero_add] at label reads
  exact ⟨_, label, rfl, reads⟩

theorem playsItems (a : Assembly t g) {items : List (AudioItem α)} {labels : List Label}
    {ns ms : List (Node α)} (split : a.soundNodes = ns ++ ms)
    (hi : Items t.transition 0 t.segments.length items a.soundInputs ns labels)
    (hs : Sequence labels ms a.sound) : g.PlaysItems t.segments.length items := by
  obtain ⟨bindings, count⟩ := hi.length
  have laid : ∀ n ∈ ns ++ ms, n ∈ g.nodes := fun n hn => a.mem_nodes_of_sound (split ▸ hn)
  have named {j : Nat} {item : AudioItem α} (place : items[j]? = some item) :=
    a.itemNamed (fun n hn => laid n (List.mem_append_left _ hn)) hi place
  refine ⟨by rw [a.inputs_length, bindings], fun j item place => ⟨?_, ?_⟩, fun one => ?_,
    fun more => ?_⟩
  · obtain ⟨b, n, bound, -, -, hn⟩ := hi.get place
    rw [a.getElem?_inputs, bound, hn.binding]
  · obtain ⟨n, -, text, reads⟩ := named place
    exact ⟨n, text ▸ reads⟩
  · obtain ⟨item, rfl⟩ := List.length_eq_one_iff.mp one
    obtain ⟨n, label, text, reads⟩ := named (j := 0) rfl
    have zero : "aseq" ++ toString 0 = "aseq0" := by decide +kernel
    rw [text, zero] at reads
    rw [hs.of_one count] at label
    exact ⟨n, reads.1, a.audio_eq.trans label⟩
  · have texts : labels.map Label.text =
        (List.range items.length).map (fun j => "aseq" ++ toString j) := by
      refine List.ext_getElem (by simp [count]) fun j hj hk => ?_
      obtain ⟨n, label, text, -⟩ :=
        named (List.getElem?_eq_getElem (show j < items.length by simpa using hk))
      rw [List.getElem_map, List.getElem_map, List.getElem_range, ← text]
      rw [List.getElem?_eq_getElem (by simpa using hj)] at label
      exact congrArg Label.text (Option.some.inj label)
    obtain ⟨k, rfl, sound⟩ := hs.of_several (count ▸ more)
    have node := a.reads (laid (concatNode .audioSequence .audio labels k) (by simp))
    refine ⟨_, labels, node, texts, ?_, ?_⟩
    · rw [← count]
      rfl
    · rw [a.audio_eq, sound]
      rfl

theorem segment_not_synthetic (a : Assembly t g) {i : Nat} {b : Binding}
    (place : g.inputs[i]? = some b) (first : i < t.segments.length) : b.synthetic = false := by
  obtain ⟨b', bound, -, file, -⟩ := (a.bindsSegment (List.getElem?_eq_getElem first)).binding
  rw [bound] at place
  exact Option.some.inj place ▸ file

theorem playsSilence (a : Assembly t g) {b : Binding} {n : Node α} {length : α}
    (bound : a.soundInputs = [b]) (silent : SilenceBound length t.segments.length b)
    (nodes : a.soundNodes = [n]) (inputs : n.inputs = [.stream t.segments.length .audio])
    (output : n.output = a.sound) (name : a.sound.text = "silent") :
    g.PlaysSilence t.segments.length := by
  obtain ⟨text, -, rfl⟩ := silent
  have count := a.inputs_length
  rw [bound, List.length_singleton] at count
  have reads := a.reads (a.mem_nodes_of_sound (n := n) (by simp [nodes]))
  rw [inputs, output, name] at reads
  have last := a.getElem?_inputs 0
  rw [Nat.add_zero, bound] at last
  refine ⟨count, ⟨_, last, rfl, rfl, fun i b place synthetic => ?_⟩, n, reads, output ▸ a.audio_eq⟩
  · have inside := (List.getElem?_eq_some_iff.mp place).1
    by_contra other
    have file := a.segment_not_synthetic place (by omega)
    rw [file] at synthetic
    cases synthetic

end Assembly

/-- Which inputs a compiled graph has and which nodes read them. Inputs are numbered as they are
bound, the segments first: a segment's picture, and its own sound, is read from the input of the
segment's index. No input is bound for the segments' own sounds; the audio items, or silence if
there are none, are bound behind the segments and read from there. -/
theorem build_inputs {t : Timeline α} {g : Graph α} (h : Graph.build t = .ok g) :
    g.inputs.map Binding.index = List.range g.inputs.length ∧
      (∀ i s, t.segments[i]? = some s → g.BindsSegment i s) ∧
      (t.useTrackAudio = true → g.PlaysSegments t) ∧
      (t.useTrackAudio = false → ∃ items, t.audioSequence = .ok items ∧
        (items ≠ [] → g.PlaysItems t.segments.length items) ∧
        (items = [] → g.PlaysSilence t.segments.length)) := by
  obtain ⟨a⟩ := assembly_of_build h
  refine ⟨a.numbered, fun i s place => a.bindsSegment place, a.playsSegments, fun policy => ?_⟩
  obtain ⟨items, given, some, none⟩ := a.soundtrack.of_others policy
  rw [a.segments.length.1] at some none
  refine ⟨items, given, fun nonempty => ?_, fun empty => ?_⟩
  · obtain ⟨labels, ns, ms, split, hi, hs⟩ := some nonempty
    exact a.playsItems split hi hs
  · obtain ⟨b, n, bound, silent, nodes, inputs, output, name⟩ := none empty
    exact a.playsSilence bound silent nodes inputs output name

def clipAndImage : List (Segment Rat) :=
  [{ path := "walk.mp4", duration := 3, hasAudio := .bool true },
    { path := "map.png", kind := .image, duration := 1 / 2 }]

def walkAndMap (ownSound : Bool) : Timeline Rat :=
  { Timeline.plain clipAndImage .crossfade ownSound 1 with
    audioItems := [{ path := "song.mp3", duration := 2 }, { path := "tune.mp3", duration := 5 }] }

theorem walkAndMap_inputs :
    (∃ g, Graph.build (walkAndMap true) = .ok g ∧ g.inputs.length = 2 ∧
      g.BindsSegment 1 { path := "map.png", kind := .image, duration := 1 / 2 }) ∧
    ∃ g, Graph.build (walkAndMap false) = .ok g ∧
      g.inputs.map Binding.index = [0, 1, 2, 3] ∧ g.PlaysItems 2
        [{ path := "song.mp3", duration := 2 }, { path := "tune.mp3", duration := 5 }] := by
  constructor
  · obtain ⟨g, h⟩ := exists_of_isOk (r := Graph.build (walkAndMap true)) (by decide +kernel)
    obtain ⟨-, segments, own, -⟩ := build_inputs h
    exact ⟨g, h, (own rfl).inputs, segments 1 _ rfl⟩
  · obtain ⟨g, h⟩ := exists_of_isOk (r := Graph.build (walkAndMap false)) (by decide +kernel)
    obtain ⟨numbers, -, -, others⟩ := build_inputs h
    obtain ⟨items, given, some, -⟩ := others rfl
    obtain rfl := Except.ok.inj given
    have plays := some (List.cons_ne_nil _ _)
    refine ⟨g, h, ?_, plays⟩
    rw [numbers, plays.inputs]
    rfl

end Reel
