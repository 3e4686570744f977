import Reel.Proofs.Graph.Assembly
import Reel.Proofs.Graph.Wiring

/-!
# Compiled graphs are well-formed

A graph is well-formed if it can be run as it stands: nodes follow their inputs, every label is
given once and taken once, every stream that is read is bound and every binding is read, and
pictures never meet sound. Each part that the construction lays down keeps the books of labels
and streams, so whatever it accepts is well-formed.
-/
namespace Reel

open Build Label

variable {α : Type}

namespace Graph

def given (g : Graph α) : List Label := g.video :: g.audio.toList

/-- How often the output of a graph's node is taken: by nodes, and by what is given out. -/
def taken (g : Graph α) (l : Label) : Nat :=
  (g.nodes.flatMap Node.labels).count l + g.given.count l

/-- The nodes form an acyclic graph in which each label is assigned once and used once. -/
structure WellFormed (g : Graph α) : Prop where
  /-- A node's label bears the place of the node. -/
  serials : ∀ k (h : k < g.nodes.length), g.nodes[k].output.serial = k
  distinct : (g.nodes.map fun n => n.output.text).Nodup
  /-- A label is read behind the node that gives it. -/
  earlier : ∀ k (h : k < g.nodes.length), ∀ l, .output l ∈ g.nodes[k].inputs →
    ∃ j, ∃ before : j < k, g.nodes[j].output = l
  numbered : g.inputs.map Binding.index = List.range g.inputs.length
  /-- A stream is read from an input that is bound. -/
  bound : ∀ n ∈ g.nodes, ∀ i kind, .stream i kind ∈ n.inputs → i < g.inputs.length
  streams : (g.nodes.flatMap Node.streams).Nodup
  /-- Every binding is read. -/
  drawn : ∀ b ∈ g.inputs, ∃ n ∈ g.nodes, ∃ kind, .stream b.index kind ∈ n.inputs
  lanes : ∀ n ∈ g.nodes, n.InLane
  /-- Every output is taken exactly once. -/
  once : ∀ n ∈ g.nodes, g.taken n.output = 1
  video : g.video ∈ g.nodes.map Node.output ∧ g.video.lane = .video
  audio : ∀ l ∈ g.audio, l ∈ g.nodes.map Node.output ∧ l.lane = .audio

end Graph

section Filters

variable {f : Filter α}

theorem segmentFilters_lane {p : Picture} {duration : α} (h : f ∈ segmentFilters p duration) :
    f.lane? = some .video := by
  simp only [segmentFilters, List.mem_cons, List.not_mem_nil, or_false] at h
  rcases h with rfl | rfl | rfl | rfl | rfl | rfl <;> rfl

theorem outputFilters_lane {p : Picture} (h : f ∈ outputFilters p) : f.lane? = some .video := by
  simp only [outputFilters, List.mem_cons, List.not_mem_nil, or_false] at h
  rcases h with rfl | rfl | rfl <;> rfl

theorem soundFilters_lane {duration : α} (h : f ∈ soundFilters duration) :
    f.lane? = some .audio := by
  simp only [soundFilters, List.mem_cons, List.not_mem_nil, or_false] at h
  rcases h with rfl | rfl | rfl <;> rfl

theorem itemFilters_lane {duration fade fadeStart : α}
    (h : f ∈ itemFilters duration fade fadeStart) : f.lane? = some .audio := by
  simp only [itemFilters, List.mem_cons, List.not_mem_nil, or_false] at h
  rcases h with rfl | rfl | rfl | rfl | rfl <;> rfl

theorem alignment_lane {finish : α} (h : f ∈ alignment finish) : f.lane? = some .audio := by
  simp only [alignment, List.mem_cons, List.not_mem_nil, or_false] at h
  rcases h with rfl | rfl <;> rfl

theorem concatenation_lane (lane : StreamKind) (count : Nat) :
    (concatenation lane count : Filter α).lane? = some lane := by
  cases lane <;> rfl

end Filters

theorem LabelKind.joinKind_lane (lane : StreamKind) : (joinKind lane).lane = lane := by
  cases lane <;> rfl

/-- A concatenation of labels of one lane works in that lane. -/
theorem concatNode_inLane {kind : LabelKind} {lane : StreamKind} (hk : kind.lane = lane)
    {labels : List Label} (hl : ∀ l ∈ labels, l.lane = lane) (k : Nat) :
    (concatNode kind lane labels k : Node α).InLane where
  inputs := by
    intro s hs
    obtain ⟨l, h, rfl⟩ := List.mem_map.mp hs
    exact (hl l h).trans hk.symm
  filters := by
    intro f hf
    rw [List.mem_singleton.mp hf, concatenation_lane]
    exact congrArg some hk.symm

theorem concatNode_labels (kind : LabelKind) (lane : StreamKind) (labels : List Label) (k : Nat) :
    (concatNode kind lane labels k : Node α).labels = labels := by
  simp [concatNode, Node.labels, List.filterMap_map]

theorem concatNode_streams (kind : LabelKind) (lane : StreamKind) (labels : List Label) (k : Nat) :
    (concatNode kind lane labels k : Node α).streams = [] := by
  simp [concatNode, Node.streams, List.filterMap_map]

theorem concatNode_balanced (low : Nat) {kind : LabelKind} {lane : StreamKind}
    (hk : kind.lane = lane) {labels : List Label} (hl : ∀ l ∈ labels, l.lane = lane) (k : Nat) :
    Balanced low low labels [(concatNode kind lane labels k : Node α)] [.single kind k] :=
  .node low (concatNode_labels _ _ _ _) (concatNode_streams _ _ _ _) (concatNode_inLane hk hl k)

theorem Fade.balanced (low : Nat) [Seconds α] {T offset : α} {i : Nat} {current next l : Label}
    {lane : StreamKind} {ns : List (Node α)} (h : Fade T offset i current next lane ns l)
    (hc : current.lane = lane) (hn : next.lane = lane) :
    Balanced low low [current, next] ns [l] ∧ l.lane = lane := by
  cases h with
  | picture k =>
      refine ⟨.node low rfl rfl ⟨?_, ?_⟩, rfl⟩
      · exact List.forall_mem_cons.mpr ⟨hc, List.forall_mem_singleton.mpr hn⟩
      · exact List.forall_mem_singleton.mpr rfl
  | sound j k =>
      have aligned : Balanced low low [current] [alignmentNode T offset i current j]
          [.counted .audioAlign i j] := by
        exact .node low rfl rfl
          ⟨List.forall_mem_singleton.mpr hc, fun f hf => alignment_lane hf⟩
      have faded : Balanced low low [.counted .audioAlign i j, next]
          [soundFadeNode T offset i (.counted .audioAlign i j) next k]
          [.counted .audioCrossfade i k] := by
        refine .node low rfl rfl ⟨?_, ?_⟩
        · exact List.forall_mem_cons.mpr ⟨rfl, List.forall_mem_singleton.mpr hn⟩
        · exact List.forall_mem_singleton.mpr rfl
      exact ⟨(aligned.frame [next]).trans faded, rfl⟩

theorem Fades.balanced (low : Nat) [Seconds α] {lane : StreamKind} {T : α} {i : Nat}
    {current last : Label} {rest : List (Label × α)} {ns : List (Node α)}
    (h : Fades lane T i current rest ns last) (hc : current.lane = lane)
    (hr : ∀ l ∈ rest.map Prod.fst, l.lane = lane) :
    Balanced low low (current :: rest.map Prod.fst) ns [last] ∧ last.lane = lane := by
  induction h with
  | done i current => exact ⟨.refl low _, hc⟩
  | @fade i current next l last offset rest ns ms hf _ ih =>
      rw [List.map_cons, List.forall_mem_cons] at hr
      obtain ⟨first, hl⟩ := hf.balanced low hc hr.1
      obtain ⟨others, hlast⟩ := ih hl hr.2
      exact ⟨(first.frame (rest.map Prod.fst)).trans others, hlast⟩

/-- A lane is joined into one stream from all its streams, if there is an offset for each. -/
theorem Joined.balanced (low : Nat) [Seconds α] {mode : JoinMode} {lane : StreamKind} {T : α}
    {offsets : List α} {labels : List Label} {ns : List (Node α)} {l : Label}
    (h : Joined mode lane T offsets labels ns l) (enough : labels.length ≤ offsets.length + 1)
    (hl : ∀ l ∈ labels, l.lane = lane) :
    Balanced low low labels ns [l] ∧ l.lane = lane := by
  cases h with
  | only => exact ⟨.refl low _, hl l (by simp)⟩
  | concat k _ =>
      exact ⟨concatNode_balanced low (LabelKind.joinKind_lane lane) hl k,
        LabelKind.joinKind_lane lane⟩
  | @fades first second last rest _ _ hf =>
      have whole : ((second :: rest).zip offsets).map Prod.fst = second :: rest :=
        List.map_fst_zip (by simpa using enough)
      rw [List.forall_mem_cons] at hl
      have joined := hf.balanced low hl.1 (by rw [whole]; exact hl.2)
      rw [whole] at joined
      exact joined

theorem Sequence.balanced (low : Nat) {labels : List Label} {ns : List (Node α)} {l : Label}
    (h : Sequence labels ns l) (hl : ∀ l ∈ labels, l.lane = .audio) :
    Balanced low low labels ns [l] ∧ l.lane = .audio := by
  cases h with
  | only => exact ⟨.refl low _, hl l (by simp)⟩
  | several k _ => exact ⟨concatNode_balanced low rfl hl k, rfl⟩

theorem SoundOf.inputs {i : Nat} {s : Segment α} {m : Node α} (h : SoundOf i s m) :
    m.inputs = [.stream i .audio] ∨ m.inputs = [] := by
  cases h with
  | own k _ => exact .inl rfl
  | silent k _ => exact .inr rfl

theorem SoundOf.inLane {i : Nat} {s : Segment α} {m : Node α} (h : SoundOf i s m) :
    m.InLane ∧ m.output.lane = .audio := by
  cases h with
  | own k _ =>
      exact ⟨⟨List.forall_mem_singleton.mpr rfl, fun f hf => soundFilters_lane hf⟩, rfl⟩
  | silent k _ =>
      refine ⟨⟨by simp, List.forall_mem_cons.mpr ⟨rfl, fun f hf => soundFilters_lane hf⟩⟩, rfl⟩

variable [Seconds α]

theorem PictureOf.inputs {p : Picture} {i : Nat} {s : Segment α} {b : Binding} {n : Node α}
    (h : PictureOf p i s b n) : n.inputs = [.stream i .video] := by
  obtain ⟨k, rfl⟩ := h.node
  rfl

theorem PictureOf.inLane {p : Picture} {i : Nat} {s : Segment α} {b : Binding} {n : Node α}
    (h : PictureOf p i s b n) : n.InLane ∧ n.output.lane = .video := by
  obtain ⟨k, rfl⟩ := h.node
  exact ⟨⟨List.forall_mem_singleton.mpr rfl, fun f hf => segmentFilters_lane hf⟩, rfl⟩

/-- A segment draws on its own input: its picture, and its sound if that is asked for. -/
theorem OwnSound.balanced {p : Picture} {own : Bool} {i : Nat} {s : Segment α} {b : Binding}
    {n : Node α} {ms : List (Node α)} (hs : OwnSound i s own ms) (hp : PictureOf p i s b n) :
    Balanced i (i + 1) [] (n :: ms) (n.output :: ms.map Node.output) ∧
      ∀ l ∈ ms.map Node.output, l.lane = .audio := by
  have picture : Balanced i (i + 1) [] [n] [n.output] := .source hp.inputs hp.inLane.1
  cases hs with
  | without => exact ⟨picture, by simp⟩
  | @node m hm =>
      refine ⟨?_, by simpa using hm.inLane.2⟩
      have lanes : ∀ n' ∈ [n, m], n'.InLane :=
        List.forall_mem_cons.mpr ⟨hp.inLane.1, List.forall_mem_singleton.mpr hm.inLane.1⟩
      -- Picture and sound draw on two streams of one input, so their intervals are one.
      rcases hm.inputs with own | silent
      · have wired := picture.wired.beside (.node (a := []) (n := m) (by simp [Node.labels, own]))
        refine ⟨wired, ⟨by omega, ?_, ?_, fun j hj hj' => ?_⟩, lanes⟩
        · simp [Node.streams, hp.inputs, own]
        · simp [Node.streams, hp.inputs, own]
        · have : j = i := by omega
          exact ⟨.video, by simp [Node.streams, hp.inputs, this]⟩
      · exact picture.beside (.node (i + 1) (by simp [Node.labels, silent])
          (by simp [Node.streams, silent]) hm.inLane.1)

theorem Segments.balanced {p : Picture} {own : Bool} {i : Nat} {segments : List (Segment α)}
    {bs : List Binding} {ns : List (Node α)} {pictures sounds : List Label}
    (h : Segments p own i segments bs ns pictures sounds) :
    Balanced i (i + bs.length) [] ns (pictures ++ sounds) ∧
      (∀ l ∈ pictures, l.lane = .video) ∧ ∀ l ∈ sounds, l.lane = .audio := by
  induction h with
  | nil i => exact ⟨.refl i [], by simp, by simp⟩
  | @cons i s b n ms rest bs ns pictures sounds hp hs _ ih =>
      obtain ⟨others, hpictures, hsounds⟩ := ih
      obtain ⟨first, hown⟩ := hs.balanced hp
      refine ⟨?_, List.forall_mem_cons.mpr ⟨hp.inLane.2, hpictures⟩,
        List.forall_mem_append.mpr ⟨hown, hsounds⟩⟩
      -- Outputs lie open in the order of the nodes, pictures and sounds mixed.
      have order : (n.output :: ms.map Node.output ++ (pictures ++ sounds)).Perm
          (n.output :: pictures ++ (ms.map Node.output ++ sounds)) := by
        simp only [List.cons_append]
        refine List.Perm.cons _ ?_
        simp only [← List.append_assoc]
        exact List.perm_append_comm.append_right sounds
      have count : i + 1 + bs.length = i + (b :: bs).length := by
        rw [List.length_cons]
        omega
      rw [← count]
      exact (first.beside others).after order

theorem ItemOf.balanced {transition : Option α} {i input : Nat} {item : AudioItem α}
    {b : Binding} {n : Node α} (h : ItemOf transition i input item b n) :
    Balanced input (input + 1) [] [n] [n.output] ∧ n.output.lane = .audio := by
  obtain ⟨T, k, -, rfl⟩ := h.node
  refine ⟨.source rfl ⟨List.forall_mem_singleton.mpr rfl, fun f hf => ?_⟩, rfl⟩
  exact itemFilters_lane hf

theorem Items.balanced {transition : Option α} {i input : Nat} {items : List (AudioItem α)}
    {bs : List Binding} {ns : List (Node α)} {labels : List Label}
    (h : Items transition i input items bs ns labels) :
    Balanced input (input + bs.length) [] ns labels ∧ ∀ l ∈ labels, l.lane = .audio := by
  induction h with
  | nil i input => exact ⟨.refl input [], by simp⟩
  | @cons i input item b n rest bs ns labels hi _ ih =>
      obtain ⟨first, hn⟩ := hi.balanced
      obtain ⟨others, hl⟩ := ih
      refine ⟨?_, List.forall_mem_cons.mpr ⟨hn, hl⟩⟩
      have count : input + 1 + bs.length = input + (b :: bs).length := by
        rw [List.length_cons]
        omega
      rw [← count]
      exact first.beside others

/-- A soundtrack takes the segments' own sounds, of which there are none if it is of another
policy. -/
theorem Soundtrack.balanced {t : Timeline α} {T : α} {offsets : List α} {input : Nat}
    {sounds : List Label} {duration : α} {bs : List Binding} {ns : List (Node α)} {l : Label}
    (h : Soundtrack t T offsets input sounds duration bs ns l)
    (enough : sounds.length ≤ offsets.length + 1) (hl : ∀ l ∈ sounds, l.lane = .audio)
    (foreign : t.useTrackAudio = false → sounds = []) :
    Balanced input (input + bs.length) sounds ns [l] ∧ l.lane = .audio := by
  cases h with
  | own _ hj => exact hj.balanced input enough hl
  | items policy _ _ hi hs =>
      obtain ⟨drawn, lanes⟩ := hi.balanced
      obtain ⟨joined, lane⟩ := hs.balanced (input + bs.length) lanes
      rw [foreign policy]
      exact ⟨drawn.trans joined, lane⟩
  | silence k policy _ _ =>
      rw [foreign policy]
      exact ⟨.source rfl ⟨List.forall_mem_singleton.mpr rfl, fun f hf => soundFilters_lane hf⟩, rfl⟩

namespace Assembly

variable {t : Timeline α} {g : Graph α}

/-- The nodes of a compiled graph keep the books: nothing is open but what is given out. -/
theorem balanced (a : Assembly t g) :
    Balanced 0 g.inputs.length [] g.nodes [g.video, a.sound] ∧ a.sound.lane = .audio := by
  obtain ⟨hbs, hpictures, hsounds⟩ := a.segments.length
  obtain ⟨segments, pictureLane, soundLane⟩ := a.segments.balanced
  have offsets := length_crossfadeOffsets (t.segments.map Segment.duration) a.T
  rw [List.length_map] at offsets
  obtain ⟨joined, joinedLane⟩ := a.join.balanced a.segmentInputs.length (by omega) pictureLane
  have count : a.sounds.length ≤ t.segments.length := by
    rw [hsounds]
    split <;> omega
  have foreign (policy : t.useTrackAudio = false) : a.sounds = [] := by
    rw [policy] at hsounds
    exact List.eq_nil_of_length_eq_zero hsounds
  obtain ⟨soundtrack, lane⟩ := a.soundtrack.balanced (by omega) soundLane foreign
  have output : Balanced g.inputs.length g.inputs.length [a.joined]
      [(outputNode a.picture a.joined a.last : Node α)] [.single .videoOut a.last] :=
    .node _ rfl rfl
      ⟨List.forall_mem_singleton.mpr joinedLane, fun f hf => outputFilters_lane hf⟩
  rw [Nat.zero_add] at segments
  have total : a.segmentInputs.length + a.soundInputs.length = g.inputs.length := by
    rw [a.inputs_eq, List.length_append]
  rw [total] at soundtrack
  refine ⟨?_, lane⟩
  rw [a.nodes_eq, a.video_eq, List.append_assoc, List.append_assoc]
  have lanes := (joined.beside soundtrack).trans (output.frame [a.sound])
  rw [List.append_assoc] at lanes
  exact segments.trans lanes

theorem given_eq (a : Assembly t g) : g.given = [g.video, a.sound] := by
  rw [Graph.given, a.audio_eq, Option.toList_some]

theorem outputs_nodup (a : Assembly t g) : (g.nodes.map Node.output).Nodup := by
  have texts := a.distinct
  rw [← Function.comp_def Label.text Node.output, ← List.map_map] at texts
  exact texts.of_map

theorem given_mem (a : Assembly t g) {l : Label} (h : l ∈ g.given) :
    l ∈ g.nodes.map Node.output := by
  have books := a.balanced.1.wired.balance
  rw [← a.given_eq] at books
  simpa using books.mem_iff.mp (List.mem_append_right _ h)

theorem wellFormed (a : Assembly t g) : g.WellFormed where
  serials := by
    intro k h
    have place := congrArg (fun serials => serials[k]?) a.serials
    simpa [h] using place
  distinct := a.distinct
  earlier := by
    intro k h l hl
    have split : g.nodes = g.nodes.take k ++ g.nodes[k] :: g.nodes.drop (k + 1) := by
      rw [List.getElem_cons_drop, List.take_append_drop]
    rcases a.balanced.1.wired.earlier split (Node.mem_labels.mpr hl) with none | given
    · cases none
    · obtain ⟨n, hn, rfl⟩ := List.mem_map.mp given
      obtain ⟨j, hj, rfl⟩ := List.mem_iff_getElem.mp hn
      rw [List.length_take] at hj
      exact ⟨j, by omega, by rw [List.getElem_take]⟩
  numbered := a.numbered
  bound := by
    intro n hn i kind hs
    have read := List.mem_flatMap_of_mem hn (Node.mem_streams.mpr hs)
    exact (a.balanced.1.draws.bounds (i, kind) read).2
  streams := a.balanced.1.draws.once
  drawn := by
    intro b hb
    have range : b.index ∈ List.range g.inputs.length :=
      a.numbered ▸ List.mem_map_of_mem hb
    obtain ⟨kind, hk⟩ := a.balanced.1.draws.each b.index (Nat.zero_le _) (List.mem_range.mp range)
    obtain ⟨n, hn, hs⟩ := List.mem_flatMap.mp hk
    exact ⟨n, hn, kind, Node.mem_streams.mp hs⟩
  lanes := a.balanced.1.lanes
  once := by
    intro n hn
    have books := a.balanced.1.wired.balance
    rw [← a.given_eq, List.nil_append] at books
    rw [Graph.taken, ← List.count_append, books.count_eq]
    exact List.count_eq_one_of_mem a.outputs_nodup (List.mem_map_of_mem hn)
  video := by
    refine ⟨a.given_mem (by simp [Graph.given]), ?_⟩
    rw [a.video_eq]
    rfl
  audio := by
    intro l hl
    refine ⟨a.given_mem (List.mem_cons_of_mem _ (Option.mem_toList.mpr hl)), ?_⟩
    rw [a.audio_eq] at hl
    obtain rfl := Option.some.inj hl
    exact a.balanced.2

end Assembly

/-- Whatever the compilation accepts, it compiles into a well-formed graph. -/
theorem build_wellFormed {t : Timeline α} {g : Graph α} (h : Graph.build t = .ok g) :
    g.WellFormed := by
  obtain ⟨a⟩ := assembly_of_build h
  exact a.wellFormed

/-- A clip with sound, a still image and a silent clip. -/
def mixedSegments : List (Segment Double) :=
  [{ path := "walk.mp4", duration := Double.round 3, hasAudio := .bool true },
    { path := "map.png", kind := .image, duration := Double.round (5 / 2) },
    { path := "summit.mp4", duration := Double.round 4 }]

theorem build_wellFormed_mixed :
    ∃ g, Graph.build (Timeline.plain mixedSegments .crossfade true (Double.round 1)) = .ok g ∧
      g.WellFormed := by
  have accepted : (Graph.build (Timeline.plain mixedSegments .crossfade true
      (Double.round 1))).isOk = true := by decide +kernel
  obtain ⟨g, h⟩ := exists_of_isOk accepted
  exact ⟨g, h, build_wellFormed h⟩

end Reel
