import Reel.Proofs.Graph.WellFormed

/-!
# One size and one rate

The picture of every segment is brought to the size and the rate of the timeline before it meets
another. What is known of a picture is followed through the filters of a node and from node to
node, and of a node that reads others only where these all carry the same. So in a compiled graph
the joins are shown to read pictures of one size and one rate.
-/
namespace Reel

open Build Label

structure Frame where
  size : Option (Value × Value) := none
  rate : Option Value := none

/-- The frame of a picture with all that is asked for. -/
def Picture.frame (p : Picture) : Frame where
  size := some (.int p.width, .int p.height)
  rate := some p.fps

section Reading

variable {α : Type}

/-- The filters that leave the size and the rate of a picture as they are. -/
def Filter.keepingNames : List String := ["trim", "setpts", "format", "setsar", "concat", "xfade"]

/-- What is known of a picture behind a filter. A scaled picture may be larger than asked for, as
it keeps its aspect, and only cropping settles its size. -/
def Filter.frame (f : Filter α) (given : Frame) : Frame :=
  match f.name, f.positional with
  | "crop", [.literal width, .literal height] => { given with size := some (width, height) }
  | "fps", [.literal rate] => { given with rate := some rate }
  | name, _ => if name ∈ keepingNames then given else {}

/-- What is known of a picture behind all filters of a node. -/
def Node.frame (n : Node α) (given : Frame) : Frame :=
  n.filters.foldl (fun frame f => f.frame frame) given

/-- A label carries a picture of which this much is known: nothing is known of bound inputs, and
all outputs that a node reads have to carry the same. -/
inductive Carries (nodes : List (Node α)) : Label → Frame → Prop
  | source {n : Node α} : n ∈ nodes → (∀ l, .output l ∉ n.inputs) →
      Carries nodes n.output (n.frame {})
  | node {n : Node α} {labels : List Label} {given : Frame} : n ∈ nodes → labels ≠ [] →
      n.inputs = labels.map .output → (∀ l ∈ labels, Carries nodes l given) →
      Carries nodes n.output (n.frame given)

/-- A filter that sets a size or a rate sets that of the picture. -/
@[mk_iff]
structure Filter.Fits (p : Picture) (f : Filter α) : Prop where
  size : f.name = "scale" ∨ f.name = "crop" → f.positional = [.number p.width, .number p.height]
  rate : f.name = "fps" → f.positional = [.literal p.fps]

/-- A node asks for no other picture, reads no other and carries no other. -/
structure Node.Framed (p : Picture) (nodes : List (Node α)) (n : Node α) : Prop where
  fits : ∀ f ∈ n.filters, f.Fits p
  reads : ∀ l, .output l ∈ n.inputs → Carries nodes l p.frame
  carries : Carries nodes n.output p.frame

/-- All nodes that give pictures are framed. -/
abbrev Framed (p : Picture) (nodes ns : List (Node α)) : Prop :=
  ∀ n ∈ ns, n.output.lane = .video → n.Framed p nodes

end Reading

section Parts

variable {α : Type} {p : Picture} {nodes ns : List (Node α)}

theorem Node.Framed.of_labels {n : Node α} (mem : n ∈ nodes) {labels : List Label}
    (nonempty : labels ≠ []) (inputs : n.inputs = labels.map .output)
    (each : ∀ l ∈ labels, Carries nodes l p.frame) (same : n.frame p.frame = p.frame)
    (fits : ∀ f ∈ n.filters, f.Fits p) : n.Framed p nodes where
  fits := fits
  reads l hl := by
    rw [inputs] at hl
    obtain ⟨l', hl', ⟨⟩⟩ := List.mem_map.mp hl
    exact each l hl'
  carries := by simpa only [same] using Carries.node mem nonempty inputs each

theorem outputNode_framed {joined : Label} {k : Nat} (mem : outputNode p joined k ∈ nodes)
    (carried : Carries nodes joined p.frame) :
    (outputNode p joined k : Node α).Framed p nodes :=
  .of_labels mem (List.cons_ne_nil joined []) rfl (List.forall_mem_singleton.mpr carried) rfl
    (by simp [outputNode, outputFilters, Filter.fits_iff])

variable [Seconds α]

theorem PictureOf.framed {i : Nat} {s : Segment α} {b : Binding} {n : Node α}
    (h : PictureOf p i s b n) (mem : n ∈ nodes) : n.Framed p nodes := by
  have streams : ∀ l, .output l ∉ n.inputs := by simp [h.inputs]
  have carries := Carries.source mem streams
  obtain ⟨k, rfl⟩ := h.node
  refine ⟨?_, fun l hl => (streams l hl).elim, ?_⟩
  · simp [segmentFilters, Filter.fits_iff, cut, restartClock]
  · simpa [Node.frame, segmentFilters, Filter.frame, Filter.keepingNames, cut, restartClock,
      Argument.number, Picture.frame] using carries

theorem Segments.framed {own : Bool} {i : Nat} {segments : List (Segment α)} {bs : List Binding}
    {pictures sounds : List Label} (h : Segments p own i segments bs ns pictures sounds)
    (laid : ns ⊆ nodes) :
    (∀ l ∈ pictures, Carries nodes l p.frame) ∧ Framed p nodes ns := by
  induction h with
  | nil => simp [Framed]
  | cons picture own _ ih =>
      obtain ⟨here, laid⟩ := List.cons_subset.mp laid
      obtain ⟨-, behind⟩ := List.append_subset.mp laid
      obtain ⟨others, rest⟩ := ih behind
      have first := picture.framed here
      refine ⟨List.forall_mem_cons.mpr ⟨first.carries, others⟩, ?_⟩
      rw [Framed, List.forall_mem_cons, List.forall_mem_append]
      refine ⟨fun _ => first, fun m hm video => ?_, rest⟩
      have audio := (own.balanced picture).2 _ (List.mem_map_of_mem hm)
      cases video.symm.trans audio

theorem Fades.framed {T : α} {i : Nat} {current last : Label} {rest : List (Label × α)}
    (h : Fades .video T i current rest ns last) (laid : ns ⊆ nodes)
    (first : Carries nodes current p.frame)
    (others : ∀ l ∈ rest.map Prod.fst, Carries nodes l p.frame) :
    Carries nodes last p.frame ∧ Framed p nodes ns := by
  induction h with
  | done => exact ⟨first, by simp [Framed]⟩
  | @fade i current next l last offset rest ns ms fade _ ih =>
      obtain ⟨here, behind⟩ := List.append_subset.mp laid
      rw [List.map_cons, List.forall_mem_cons] at others
      cases fade with
      | picture k =>
          have both : ∀ l ∈ [current, next], Carries nodes l p.frame :=
            List.forall_mem_cons.mpr ⟨first, List.forall_mem_singleton.mpr others.1⟩
          have faded : (pictureFadeNode T offset i current next k).Framed p nodes :=
            .of_labels (here (List.mem_singleton_self _)) (List.cons_ne_nil _ _) rfl both rfl
              (by simp [pictureFadeNode, pictureFade, Filter.fits_iff])
          obtain ⟨joined, rest⟩ := ih behind faded.carries others.2
          exact ⟨joined, List.forall_mem_cons.mpr ⟨fun _ => faded, rest⟩⟩

theorem Joined.framed {mode : JoinMode} {T : α} {offsets : List α} {labels : List Label}
    {l : Label} (h : Joined mode .video T offsets labels ns l) (laid : ns ⊆ nodes)
    (each : ∀ l ∈ labels, Carries nodes l p.frame) :
    Carries nodes l p.frame ∧ Framed p nodes ns := by
  cases h with
  | only => exact ⟨each l (by simp), by simp [Framed]⟩
  | @concat first second rest k _ =>
      have joined : (concatNode (joinKind .video) .video (first :: second :: rest) k).Framed p
          nodes :=
        .of_labels (laid (List.mem_singleton_self _)) (List.cons_ne_nil _ _) rfl each rfl
          (by simp [concatNode, concatenation, Filter.fits_iff])
      exact ⟨joined.carries, List.forall_mem_singleton.mpr fun _ => joined⟩
  | @fades first second last rest _ _ faded =>
      rw [List.forall_mem_cons] at each
      refine faded.framed laid each.1 fun l hl => each.2 l ?_
      obtain ⟨pair, mem, rfl⟩ := List.mem_map.mp hl
      exact (List.of_mem_zip mem).1

theorem Soundtrack.lane_eq {t : Timeline α} {T : α} {offsets : List α} {input : Nat}
    {sounds : List Label} {duration : α} {bs : List Binding} {l : Label}
    (h : Soundtrack t T offsets input sounds duration bs ns l) :
    ∀ n ∈ ns, n.output.lane = .audio := by
  have audio : ∀ kind ∈ soundtrackKinds, kind.lane = .audio := by decide
  exact fun n hn => audio _ (h.kind_mem n hn)

/-- All pictures in a compiled graph have the size and the rate that the timeline asks for. -/
theorem Assembly.framed {t : Timeline α} {g : Graph α} (a : Assembly t g) :
    Framed a.picture g.nodes g.nodes := by
  have laid : a.segmentNodes ++ a.pictureNodes ++ a.soundNodes ++
      [outputNode a.picture a.joined a.last] ⊆ g.nodes := by
    rw [a.nodes_eq]
    exact List.Subset.refl _
  simp only [List.append_subset] at laid
  obtain ⟨⟨⟨segments, pictures⟩, -⟩, output⟩ := laid
  obtain ⟨each, first⟩ := a.segments.framed segments
  obtain ⟨joined, second⟩ := a.join.framed pictures each
  intro n hn video
  rw [a.nodes_eq] at hn
  simp only [List.mem_append, List.mem_singleton] at hn
  rcases hn with ((hn | hn) | hn) | rfl
  · exact first n hn video
  · exact second n hn video
  · cases video.symm.trans (a.soundtrack.lane_eq n hn)
  · exact outputNode_framed (output (List.mem_singleton_self _)) joined

end Parts

end Reel
