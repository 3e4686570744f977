import Reel.Proofs.Graph.Assembly

/-!
# Where fades are found

A graph finds the node of a label by its text. In a compiled graph that is the only node with
the text, so the nodes of each fade are found under the names that the fade was given.
-/
namespace Reel

open Build Label

variable {α : Type}

theorem Graph.node?_of_distinct {g : Graph α}
    (distinct : (g.nodes.map fun n => n.output.text).Nodup)
    {n : Node α} (hn : n ∈ g.nodes) : g.node? n.output.text = some n := by
  unfold Graph.node?
  cases found : g.nodes.find? fun m => m.output.text == n.output.text with
  | none => simpa using List.find?_eq_none.mp found n hn
  | some m =>
      -- The first node with the text is this one, since no other has it.
      have text : m.output.text = n.output.text := by simpa using List.find?_some found
      have same := List.inj_on_of_nodup_map distinct (List.mem_of_find?_eq_some found) hn text
      rw [same]

/-- The label is one that the segment of an index got, of one of the given kinds. -/
structure Label.OfSegment (l : Label) (kinds : List LabelKind) (i : Nat) : Prop where
  kind : l.kind ∈ kinds
  index : l.index = some (toString i)

variable [Seconds α]

theorem Segments.picture_get {p : Picture} {own : Bool} {i : Nat} {segments : List (Segment α)}
    {bs : List Binding} {ns : List (Node α)} {pictures sounds : List Label}
    (h : Segments p own i segments bs ns pictures sounds) {j : Nat} {l : Label}
    (place : pictures[j]? = some l) : l.OfSegment [.videoSegment] (i + j) := by
  induction h generalizing j with
  | nil => simp at place
  | @cons i s b n ms rest bs ns pictures sounds hp _ _ ih =>
      cases j with
      | zero =>
          obtain rfl : n.output = l := by simpa using place
          exact ⟨by simp [hp.output.1], hp.output.2⟩
      | succ j =>
          rw [← Nat.add_assoc, Nat.add_right_comm]
          exact ih (by simpa using place)

theorem Segments.sound_get {p : Picture} {own : Bool} {i : Nat} {segments : List (Segment α)}
    {bs : List Binding} {ns : List (Node α)} {pictures sounds : List Label}
    (h : Segments p own i segments bs ns pictures sounds) (policy : own = true) {j : Nat}
    {l : Label} (place : sounds[j]? = some l) :
    l.OfSegment [.trackAudio, .trackSilence] (i + j) := by
  induction h generalizing j with
  | nil => simp at place
  | @cons i s b n ms rest bs ns pictures sounds _ hs _ ih =>
      cases hs with
      | without => cases policy
      | @node m hm =>
          cases j with
          | zero =>
              obtain rfl : m.output = l := by simpa using place
              cases hm with
              | own => exact ⟨by simp [counted], rfl⟩
              | silent => exact ⟨by simp [counted], rfl⟩
          | succ j =>
              rw [← Nat.add_assoc, Nat.add_right_comm]
              exact ih (by simpa using place)

theorem Fades.get {lane : StreamKind} {T : α} {i : Nat} {current last : Label}
    {rest : List (Label × α)} {ns : List (Node α)} (h : Fades lane T i current rest ns last)
    {j : Nat} {next : Label} {offset : α} (place : rest[j]? = some (next, offset)) :
    ∃ running l ms, Fade T offset (i + j) running next lane ms l ∧ ∀ n ∈ ms, n ∈ ns := by
  induction h generalizing j with
  | done => simp at place
  | @fade i current first l last o rest ns ms hf _ ih =>
      cases j with
      | zero =>
          obtain ⟨rfl, rfl⟩ : first = next ∧ o = offset := by simpa using place
          exact ⟨current, l, ns, hf, fun n hn => List.mem_append_left _ hn⟩
      | succ j =>
          obtain ⟨running, l', ks, hk, sub⟩ := ih (by simpa using place)
          rw [Nat.add_right_comm] at hk
          exact ⟨running, l', ks, hk, fun n hn => List.mem_append_right _ (sub n hn)⟩

theorem Joined.fade {lane : StreamKind} {T : α} {offsets : List α} {labels : List Label}
    {ns : List (Node α)} {l : Label} (h : Joined .crossfade lane T offsets labels ns l) {i : Nat}
    {next : Label} {offset : α} (hl : labels[i + 1]? = some next)
    (ho : offsets[i]? = some offset) :
    ∃ running l ms, Fade T offset (i + 1) running next lane ms l ∧ ∀ n ∈ ms, n ∈ ns := by
  cases h with
  | only => simp at hl
  | concat _ mode => cases mode
  | @fades first second last rest ns _ hf =>
      have found : ((second :: rest).zip offsets)[i]? = some (next, offset) :=
        List.getElem?_zip_eq_some.mpr ⟨by simpa using hl, ho⟩
      rw [Nat.add_comm i 1]
      exact hf.get found

namespace Assembly

variable {t : Timeline α} {g : Graph α}

theorem transition_eq (a : Assembly t g) (several : 2 ≤ t.segments.length) :
    t.transition = some a.T := by
  have fade := a.fade_eq
  rw [fadeOf, if_neg (by omega)] at fade
  exact (needed_yields t.transition).of_ok fade

theorem node?_eq (a : Assembly t g) {n : Node α} (hn : n ∈ g.nodes) :
    g.node? n.output.text = some n :=
  Graph.node?_of_distinct a.distinct hn

theorem mem_nodes_of_picture (a : Assembly t g) {n : Node α} (hn : n ∈ a.pictureNodes) :
    n ∈ g.nodes := by
  rw [a.nodes_eq]
  simp [hn]

theorem mem_nodes_of_sound (a : Assembly t g) {n : Node α} (hn : n ∈ a.soundNodes) :
    n ∈ g.nodes := by
  rw [a.nodes_eq]
  simp [hn]

end Assembly

end Reel
