import Reel.Proofs.Graph.Fades
import Reel.Proofs.Graph.Offsets
import Reel.Proofs.Graph.Written

/-!
# The fades between pictures

The starts of fades are one list, and the fades are laid down in one fold that takes the entries
of the list at shifted places. Over exact times each start has a closed form. In a compiled graph
the fades of pictures are one chain: each takes up what the fade before it gave, brings in the
next segment and starts at its own entry of the list.
-/
namespace Reel

open Build Label

section Starts

variable {T : Rat} {durations : List Rat}

theorem getElem_crossfadeOffsets {k : Nat} (h : k < (crossfadeOffsets durations T).length) :
    (crossfadeOffsets durations T)[k] = max 0 ((durations.take (k + 1)).sum - T) := by
  have count := length_crossfadeOffsets durations T
  have entry := getElem?_crossfadeOffsets T durations k (by omega)
  rw [List.getElem?_eq_getElem h] at entry
  exact Option.some.inj entry

theorem nonneg_of_mem_crossfadeOffsets {o : Rat} (h : o ∈ crossfadeOffsets durations T) :
    0 ≤ o := by
  obtain ⟨k, hk, rfl⟩ := List.getElem_of_mem h
  rw [getElem_crossfadeOffsets hk]
  exact le_max_left _ _

theorem sum_take_le_sum_take (positive : ∀ d ∈ durations, 0 < d) {i j : Nat} (h : i ≤ j) :
    (durations.take i).sum ≤ (durations.take j).sum := by
  obtain ⟨more, rfl⟩ := Nat.exists_eq_add_of_le h
  have rest : 0 ≤ ((durations.drop i).take more).sum :=
    sum_take_nonneg (fun d hd => positive d (List.mem_of_mem_drop hd)) more
  rw [List.take_add, List.sum_append]
  linarith

/-- A later fade starts no earlier, since more segments precede it. -/
theorem pairwise_crossfadeOffsets (positive : ∀ d ∈ durations, 0 < d) :
    (crossfadeOffsets durations T).Pairwise (· ≤ ·) := by
  rw [List.pairwise_iff_getElem]
  intro i j hi hj before
  rw [getElem_crossfadeOffsets hi, getElem_crossfadeOffsets hj]
  have more := sum_take_le_sum_take positive (Nat.succ_le_succ before.le)
  exact max_le_max_left 0 (sub_le_sub_right more T)

end Starts

variable {α : Type} [Seconds α]

/-- The name of the picture that the segments up to an index are joined into. -/
def fadedName : Nat → String
  | 0 => "v0"
  | i + 1 => "xv" ++ toString (i + 1)

theorem fadedName_of_pos {i : Nat} (h : 0 < i) : fadedName i = "xv" ++ toString i := by
  obtain ⟨j, rfl⟩ := Nat.exists_eq_add_of_lt h
  rw [Nat.zero_add]
  rfl

theorem fadedName_zero : fadedName 0 = "v" ++ toString 0 := by decide +kernel

/-- The node fades into a segment from all that precede it, from an offset on and for a time. -/
structure Node.FadesTo (n : Node α) (i : Nat) (T offset : α) : Prop where
  name : n.output.text = "xv" ++ toString i
  reads : ∃ running next, n.inputs = [.output running, .output next] ∧
    running.text = fadedName (i - 1) ∧ next.text = "v" ++ toString i
  filters : n.filters = [pictureFade T offset]
  carries : n.offset = some offset
  written : n.render = do
    let length ← Seconds.format T
    let start ← Seconds.format offset
    return "[" ++ fadedName (i - 1) ++ "][v" ++ toString i ++ "]" ++
      "xfade=transition=fade:duration=" ++ length ++ ":offset=" ++ start ++
      "[xv" ++ toString i ++ "]"

theorem pictureFade_render (T offset : α) : (pictureFade T offset).render = do
    let length ← Seconds.format T
    let start ← Seconds.format offset
    return "xfade=transition=fade:duration=" ++ length ++ ":offset=" ++ start := by
  have fade : (Argument.word "fade" : Argument α).format = .ok "fade" := rfl
  have seconds (x : α) : (Argument.seconds x).format = Seconds.format x := rfl
  simp only [Filter.render, pictureFade, List.mapM_nil, List.mapM_cons, fade, seconds]
  cases Seconds.format T with
  | error e => rfl
  | ok length =>
      cases Seconds.format offset with
      | error e => rfl
      | ok start =>
          refine congrArg Except.ok ?_
          simp [← String.toList_inj]

theorem pictureFadeNode_fadesTo {T offset : α} {i : Nat} {running next : Label} (k : Nat)
    (before : running.text = fadedName (i - 1)) (segment : next.text = "v" ++ toString i) :
    (pictureFadeNode T offset i running next k).FadesTo i T offset where
  name := rfl
  reads := ⟨running, next, rfl, before, segment⟩
  filters := rfl
  carries := rfl
  written := by
    have name : (counted .videoCrossfade i k).text = "xv" ++ toString i := rfl
    simp only [pictureFadeNode, Node.render, List.mapM_cons, List.mapM_nil, pictureFade_render]
    cases Seconds.format T with
    | error e => rfl
    | ok length =>
        cases Seconds.format offset with
        | error e => rfl
        | ok start =>
            refine congrArg Except.ok ?_
            simp [← String.toList_inj, Source.pad, Source.text, Label.pad, before, segment, name]

/-- A fold of fades takes up what precedes a segment, and brings in one segment after the other. -/
theorem Fades.fadesTo {T : α} {i : Nat} {current last : Label} {rest : List (Label × α)}
    {ns : List (Node α)} (h : Fades .video T i current rest ns last) (behind : 0 < i)
    (running : current.text = fadedName (i - 1))
    (names : ∀ (j : Nat) (pair : Label × α), rest[j]? = some pair →
      pair.1.text = "v" ++ toString (i + j)) :
    ns.length = rest.length ∧ last.text = fadedName (i - 1 + rest.length) ∧
      ∀ j pair, rest[j]? = some pair → ∃ n : Node α,
        ns[j]? = some n ∧ n.FadesTo (i + j) T pair.2 := by
  generalize lane : StreamKind.video = kind at h
  induction h with
  | done i current => exact ⟨rfl, running, fun j pair place => by simp at place⟩
  | @fade i current next l last offset rest ns ms hf _ ih =>
      subst lane
      cases hf with
      | picture k =>
          obtain ⟨count, ends, each⟩ := ih (Nat.succ_pos i) (fadedName_of_pos behind).symm
            fun j pair place => by
              rw [Nat.add_right_comm]
              exact names (j + 1) pair place
          refine ⟨by simp [count], ?_, fun j pair place => ?_⟩
          · rw [ends, List.length_cons]
            congr 1
            omega
          · cases j with
            | zero =>
                obtain rfl : (next, offset) = pair := by simpa using place
                exact ⟨_, rfl, pictureFadeNode_fadesTo k running (names 0 _ rfl)⟩
            | succ j =>
                obtain ⟨n, node, fades⟩ := each j pair (by simpa using place)
                rw [Nat.add_right_comm] at fades
                exact ⟨n, by simpa using node, fades⟩

/-- Pictures joined by fades, one fade for each picture behind the first. -/
theorem Joined.fadesTo {T : α} {offsets : List α} {labels : List Label} {ns : List (Node α)}
    {last : Label} (h : Joined .crossfade .video T offsets labels ns last)
    (count : offsets.length = labels.length - 1)
    (names : ∀ (j : Nat) (l : Label), labels[j]? = some l → l.text = "v" ++ toString j) :
    ns.length = offsets.length ∧ last.text = fadedName offsets.length ∧
      ∀ j offset, offsets[j]? = some offset → ∃ n : Node α,
        ns[j]? = some n ∧ n.FadesTo (j + 1) T offset := by
  cases h with
  | only =>
      obtain rfl := List.eq_nil_of_length_eq_zero count
      exact ⟨rfl, (names 0 last rfl).trans fadedName_zero.symm, fun j offset place => by
        simp at place⟩
  | concat _ mode => cases mode
  | @fades first second last rest ns _ hf =>
      have pairs : ((second :: rest).zip offsets).length = offsets.length := by
        rw [List.length_zip, count]
        simp
      obtain ⟨nodes, ends, each⟩ := hf.fadesTo Nat.one_pos
        ((names 0 first rfl).trans fadedName_zero.symm) fun j (next, offset) place => by
          rw [Nat.add_comm]
          exact names (j + 1) next (List.getElem?_zip_eq_some.mp place).1
      rw [pairs] at nodes ends
      rw [Nat.sub_self, Nat.zero_add] at ends
      refine ⟨nodes, ends, fun j offset place => ?_⟩
      have inside : j < ((second :: rest).zip offsets).length :=
        pairs ▸ (List.getElem?_eq_some_iff.mp place).1
      have pair := List.getElem?_eq_getElem inside
      have starts := (List.getElem?_zip_eq_some.mp pair).2
      rw [place] at starts
      obtain ⟨n, node, fades⟩ := each j _ pair
      rw [Nat.add_comm, ← Option.some.inj starts] at fades
      exact ⟨n, node, fades⟩

/-- Only a fade of pictures begins with the filter that fades pictures. -/
theorem Node.Laid.kind_of_xfade {p : Picture} {transition : Option α} {n : Node α}
    (h : n.Laid p transition) (fades : n.operation = "xfade") :
    n.output.kind = .videoCrossfade := by
  cases h with
  | picture hp =>
      obtain ⟨k, rfl⟩ := hp.node
      simp [Node.operation, segmentFilters, cut] at fades
  | sound hs => cases hs <;> simp [Node.operation, soundFilters, Build.silence, cut] at fades
  | fade hf hn =>
      cases hf with
      | picture k =>
          rw [List.mem_singleton.mp hn]
          rfl
      | sound j k =>
          rcases List.mem_pair.mp hn with rfl | rfl
          · simp [Node.operation, alignmentNode, alignment] at fades
          · simp [Node.operation, soundFadeNode, soundFade] at fades
  | concat => simp [Node.operation, concatNode, concatenation] at fades
  | item hi =>
      obtain ⟨T, k, -, rfl⟩ := hi.node
      simp [Node.operation, itemFilters, cut] at fades
  | silence => simp [Node.operation, soundFilters, cut] at fades
  | output => simp [Node.operation, outputNode, outputFilters] at fades

/-- The fades of a graph's pictures in the order of its nodes, over some number of segments: one
for each start, and the picture that goes out is the last of the chain. -/
structure Graph.FadesInTurn (g : Graph α) (segments : Nat) (T : α) (offsets : List α) :
    Prop where
  names : g.crossfades.map (fun n => n.output.text) =
    (List.range (segments - 1)).map fun i => "xv" ++ toString (i + 1)
  starts : g.crossfades.map Node.offset = offsets.map some
  fades : ∀ i offset, offsets[i]? = some offset →
    ∃ n : Node α, g.crossfades[i]? = some n ∧ n.FadesTo (i + 1) T offset
  out : ∃ n, ∃ l : Label, g.node? "vout" = some n ∧ n.output = g.video ∧
    n.inputs = [.output l] ∧ l.text = fadedName (segments - 1)

namespace Assembly

variable {t : Timeline α} {g : Graph α}

theorem picture_name (a : Assembly t g) (j : Nat) (l : Label) (place : a.pictures[j]? = some l) :
    l.text = "v" ++ toString j := by
  have of := a.segments.picture_get place
  rw [Nat.zero_add] at of
  rw [Label.text, List.mem_singleton.mp of.kind, of.index]
  rfl

theorem pictures_fadesTo (a : Assembly t g) (mode : t.joinMode = .crossfade) {offsets : List α}
    (h : crossfadeOffsets (t.segments.map Segment.duration) a.T = offsets) :
    offsets.length = t.segments.length - 1 ∧ a.pictureNodes.length = offsets.length ∧
      a.joined.text = fadedName offsets.length ∧ ∀ j offset, offsets[j]? = some offset →
        ∃ n : Node α, a.pictureNodes[j]? = some n ∧ n.FadesTo (j + 1) a.T offset := by
  have starts : offsets.length = t.segments.length - 1 := by
    rw [← h, length_crossfadeOffsets, List.length_map]
  have join := a.join
  rw [mode, h] at join
  exact ⟨starts, join.fadesTo (by rw [starts, a.segments.length.2.1]) a.picture_name⟩

theorem crossfades_eq (a : Assembly t g) (mode : t.joinMode = .crossfade) :
    g.crossfades = a.pictureNodes := by
  have others {ns : List (Node α)} (sub : ∀ n ∈ ns, n ∈ g.nodes)
      (kinds : ∀ n ∈ ns, n.output.kind ≠ .videoCrossfade) :
      ns.filter (fun n => n.operation == "xfade") = [] := by
    refine List.filter_eq_nil_iff.mpr fun n hn fades => kinds n hn ?_
    exact (a.laid n (sub n hn)).kind_of_xfade (by simpa using fades)
  have pictures : a.pictureNodes.filter (fun n => n.operation == "xfade") = a.pictureNodes := by
    obtain ⟨-, count, -, each⟩ := a.pictures_fadesTo mode rfl
    refine List.filter_eq_self.mpr fun n hn => ?_
    obtain ⟨j, hj, rfl⟩ := List.getElem_of_mem hn
    obtain ⟨n, node, fades⟩ := each j _ (List.getElem?_eq_getElem (count ▸ hj))
    rw [List.getElem?_eq_getElem hj] at node
    rw [Option.some.inj node, Node.operation, fades.filters]
    rfl
  have nodes := a.nodes_eq
  rw [Graph.crossfades, Graph.nodesByOperation, nodes, List.filter_append, List.filter_append,
    List.filter_append, pictures, others, others, others]
  · simp
  · exact fun n hn => by rw [nodes]; simp [List.mem_singleton.mp hn]
  · exact fun n hn => by rw [List.mem_singleton.mp hn]; simp [outputNode, single]
  · exact fun n hn => a.mem_nodes_of_sound hn
  · intro n hn fades
    have kind := a.soundtrack.kind_mem n hn
    rw [fades] at kind
    revert kind
    decide
  · exact fun n hn => by rw [nodes]; simp [hn]
  · intro n hn fades
    have kind := a.segments.kind_mem n hn
    rw [fades] at kind
    revert kind
    decide

theorem fadesInTurn (a : Assembly t g) (mode : t.joinMode = .crossfade) :
    g.FadesInTurn t.segments.length a.T
      (crossfadeOffsets (t.segments.map Segment.duration) a.T) := by
  generalize h : crossfadeOffsets (t.segments.map Segment.duration) a.T = offsets
  obtain ⟨starts, count, ends, each⟩ := a.pictures_fadesTo mode h
  have node {j : Nat} (hj : j < a.pictureNodes.length) (bound : j < offsets.length) :
      a.pictureNodes[j].FadesTo (j + 1) a.T offsets[j] := by
    obtain ⟨n, place, fades⟩ := each j _ (List.getElem?_eq_getElem bound)
    rw [List.getElem?_eq_getElem hj] at place
    exact Option.some.inj place ▸ fades
  have last : outputNode a.picture a.joined a.last ∈ g.nodes := by
    rw [a.nodes_eq]
    simp
  rw [starts] at ends
  constructor
  · rw [a.crossfades_eq mode]
    refine List.ext_getElem (by simp [count, starts]) fun j hj _ => ?_
    rw [List.length_map] at hj
    rw [List.getElem_map, List.getElem_map, List.getElem_range]
    exact (node hj (count ▸ hj)).name
  · rw [a.crossfades_eq mode]
    refine List.ext_getElem (by simp [count]) fun j hj bound => ?_
    rw [List.length_map] at hj bound
    rw [List.getElem_map, List.getElem_map]
    exact (node hj bound).carries
  · rw [a.crossfades_eq mode]
    exact each
  · exact ⟨_, a.joined, a.node?_eq last, a.video_eq.symm, rfl, ends⟩

end Assembly

/-- The starts of fades over exact times, and the fades of pictures in a graph. Each fade starts one
transition before the end of the segments that precede it, never before zero and never before an
earlier fade. A timeline whose segments are faded is compiled into one fade less than it has
segments, each of which fades the next segment into all that precede it, from its start on. -/
theorem crossfades_in_turn :
    (∀ (durations : List Rat) (T : Rat), (∀ d ∈ durations, 0 < d) → 0 ≤ T →
      (crossfadeOffsets durations T).length = durations.length - 1 ∧
        (∀ k, k + 1 < durations.length →
          (crossfadeOffsets durations T)[k]? = some (max 0 ((durations.take (k + 1)).sum - T))) ∧
        (∀ o ∈ crossfadeOffsets durations T, 0 ≤ o) ∧
        (crossfadeOffsets durations T).Pairwise (· ≤ ·)) ∧
    ∀ (α : Type) [Seconds α] (t : Timeline α) (g : Graph α), Graph.build t = .ok g →
      t.joinMode = .crossfade → ∃ T, (2 ≤ t.segments.length → t.transition = some T) ∧
        g.FadesInTurn t.segments.length T
          (crossfadeOffsets (t.segments.map Segment.duration) T) := by
  constructor
  · intro durations T positive _
    exact ⟨length_crossfadeOffsets durations T, getElem?_crossfadeOffsets T durations,
      fun o => nonneg_of_mem_crossfadeOffsets, pairwise_crossfadeOffsets positive⟩
  · intro α _ t g built mode
    obtain ⟨a⟩ := assembly_of_build built
    exact ⟨a.T, a.transition_eq, a.fadesInTurn mode⟩

/-- Two segments that end within the first transition, and two that do not. -/
def briefSegments : List (Segment Rat) :=
  [{ path := "spark.png", kind := .image, duration := 1 / 4 },
    { path := "map.png", kind := .image, duration := 1 / 2 },
    { path := "walk.mp4", duration := 3 }, { path := "summit.mp4", duration := 4 }]

theorem brief_crossfades_in_turn :
    (crossfadeOffsets [1 / 4, 1 / 2, 3, 4] (1 : Rat)).Pairwise (· ≤ ·) ∧
      crossfadeOffsets [1 / 4, 1 / 2, 3, 4] (1 : Rat) = [0, 0, 11 / 4] ∧
      ∃ g, Graph.build (Timeline.plain briefSegments .crossfade true 1) = .ok g ∧
        g.FadesInTurn 4 1 [0, 0, 11 / 4] := by
  obtain ⟨starts, graphs⟩ := crossfades_in_turn
  obtain ⟨-, -, -, ordered⟩ :=
    starts [1 / 4, 1 / 2, 3, 4] 1 (by decide +kernel) (by decide +kernel)
  obtain ⟨g, h⟩ := exists_of_isOk
    (r := Graph.build (Timeline.plain briefSegments .crossfade true 1)) (by decide +kernel)
  obtain ⟨T, hT, fades⟩ := graphs Rat _ g h rfl
  obtain rfl : 1 = T := Option.some.inj (hT (by decide))
  have values : crossfadeOffsets [1 / 4, 1 / 2, 3, 4] (1 : Rat) = [0, 0, 11 / 4] := by
    decide +kernel
  exact ⟨ordered, values, g, h, values ▸ fades⟩

end Reel
