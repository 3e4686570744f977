import Mathlib
import Reel.Graph

/-!
# Wiring of nodes

Nodes are wired one behind the other if each takes the labels it reads from those that are open
and leaves its own output open. A label is then read after it is given, and never twice. The
streams that nodes draw from bound inputs are accounted for by intervals of input numbers.
-/
namespace Reel

variable {α : Type}

def LabelKind.lane : LabelKind → StreamKind
  | .videoSegment | .videoCrossfade | .videoConcat | .videoOut => .video
  | .trackAudio | .trackSilence | .audioItem | .audioCrossfade | .audioAlign | .audioConcat
  | .audioSequence | .silenceFill => .audio

def Label.lane (l : Label) : StreamKind := l.kind.lane

def Source.lane : Source → StreamKind
  | .stream _ kind => kind
  | .output label => label.lane

namespace Filter

def pictureNames : List String :=
  ["trim", "setpts", "scale", "crop", "fps", "format", "setsar", "xfade"]

def soundNames : List String :=
  ["atrim", "asetpts", "aformat", "anullsrc", "apad", "afade", "acrossfade"]

/-- The lane of a concatenation: it has streams of one kind and none of the other. -/
def concatLane? : List (String × Argument α) → Option StreamKind
  | [_, ("v", .literal (.int 1)), ("a", .literal (.int 0))] => some .video
  | [_, ("v", .literal (.int 0)), ("a", .literal (.int 1))] => some .audio
  | _ => none

def lane? (f : Filter α) : Option StreamKind :=
  if f.name ∈ pictureNames then some .video
  else if f.name ∈ soundNames then some .audio
  else if f.name = "concat" then concatLane? f.options
  else none

end Filter

namespace Node

def labels (n : Node α) : List Label :=
  n.inputs.filterMap fun
    | .output l => some l
    | .stream .. => none

def streams (n : Node α) : List (Nat × StreamKind) :=
  n.inputs.filterMap fun
    | .output _ => none
    | .stream input kind => some (input, kind)

theorem mem_labels {n : Node α} {l : Label} : l ∈ n.labels ↔ Source.output l ∈ n.inputs := by
  rw [labels, List.mem_filterMap]
  constructor
  · rintro ⟨s, hs, h⟩
    cases s with
    | stream i kind => cases h
    | output m => exact Option.some.inj h ▸ hs
  · exact fun h => ⟨_, h, rfl⟩

theorem mem_streams {n : Node α} {i : Nat} {kind : StreamKind} :
    (i, kind) ∈ n.streams ↔ Source.stream i kind ∈ n.inputs := by
  rw [streams, List.mem_filterMap]
  constructor
  · rintro ⟨s, hs, h⟩
    cases s with
    | stream j other =>
        cases h
        exact hs
    | output m => cases h
  · exact fun h => ⟨_, h, rfl⟩

/-- A node works in the lane of its output: so does each of its filters, and what it reads
belongs to that lane. -/
structure InLane (n : Node α) : Prop where
  inputs : ∀ s ∈ n.inputs, s.lane = n.output.lane
  filters : ∀ f ∈ n.filters, f.lane? = some n.output.lane

end Node

/-- The nodes lead from one collection of open labels to another. -/
inductive Wired : List Label → List (Node α) → List Label → Prop
  | nil {before after : List Label} : before.Perm after → Wired before [] after
  | cons {before rest after : List Label} {n : Node α} {ns : List (Node α)} :
      before.Perm (n.labels ++ rest) → Wired (n.output :: rest) ns after →
      Wired before (n :: ns) after

namespace Wired

variable {a b c : List Label} {ns ms : List (Node α)}

theorem refl (a : List Label) : Wired a ([] : List (Node α)) a := .nil (.refl a)

theorem before (p : c.Perm a) (h : Wired a ns b) : Wired c ns b := by
  cases h with
  | nil q => exact .nil (p.trans q)
  | cons q h => exact .cons (p.trans q) h

theorem after (h : Wired a ns b) (p : b.Perm c) : Wired a ns c := by
  induction h with
  | nil q => exact .nil (q.trans p)
  | cons q _ ih => exact .cons q (ih p)

theorem trans (h : Wired a ns b) (k : Wired b ms c) : Wired a (ns ++ ms) c := by
  induction h with
  | nil p => exact k.before p
  | cons p _ ih => exact .cons p (ih k)

theorem frame (h : Wired a ns b) (rest : List Label) : Wired (a ++ rest) ns (b ++ rest) := by
  induction h with
  | nil p => exact .nil (p.append_right rest)
  | cons p _ ih =>
      refine .cons ?_ ih
      have framed := p.append_right rest
      rw [List.append_assoc] at framed
      exact framed

theorem beside {a' b' : List Label} (h : Wired a ns b) (k : Wired a' ms b') :
    Wired (a ++ a') (ns ++ ms) (b ++ b') := by
  -- The second row is framed by what the first leaves open, in either order of the two.
  refine (h.frame a').trans (Wired.before List.perm_append_comm ?_)
  exact (k.frame b).after List.perm_append_comm

theorem node {n : Node α} (h : n.labels = a) : Wired a [n] [n.output] :=
  .cons (by rw [h, List.append_nil]) (refl _)

/-- What is read or stays open is what was open or is given. -/
theorem balance (h : Wired a ns b) :
    (ns.flatMap Node.labels ++ b).Perm (a ++ ns.map Node.output) := by
  induction h with
  | nil p => simpa using p.symm
  | @cons before rest after n ns p _ ih =>
      -- The labels that a node takes leave the open ones, and its output joins them.
      calc (n :: ns).flatMap Node.labels ++ after
        _ = n.labels ++ (ns.flatMap Node.labels ++ after) := by simp
        _ |>.Perm (n.labels ++ (n.output :: rest ++ ns.map Node.output)) := ih.append_left _
        _ |>.Perm (n.labels ++ (rest ++ n.output :: ns.map Node.output)) :=
            (List.perm_middle.symm).append_left _
        _ |>.Perm (before ++ (n :: ns).map Node.output) := by
            rw [← List.append_assoc]
            exact (p.symm).append_right _

/-- A label that a node reads was open from the start, or an earlier node gave it. -/
theorem earlier (h : Wired a ns b) {xs ys : List (Node α)} {n : Node α}
    (split : ns = xs ++ n :: ys) {l : Label} (hl : l ∈ n.labels) :
    l ∈ a ∨ l ∈ xs.map Node.output := by
  induction h generalizing xs with
  | nil => simp at split
  | @cons before rest after m ms p _ ih =>
      cases xs with
      | nil =>
          obtain ⟨rfl, -⟩ := List.cons.inj split
          exact .inl (p.mem_iff.mpr (List.mem_append_left _ hl))
      | cons x xs =>
          obtain ⟨rfl, tail⟩ := List.cons.inj split
          rcases ih tail with open_ | given
          · rcases List.mem_cons.mp open_ with rfl | old
            · exact .inr (by simp)
            · exact .inl (p.mem_iff.mpr (List.mem_append_right _ old))
          · exact .inr (List.mem_cons_of_mem _ given)

end Wired

/-- The nodes draw on the inputs of an interval: each is drawn on, and no stream twice. -/
structure Draws (low high : Nat) (ns : List (Node α)) : Prop where
  le : low ≤ high
  bounds : ∀ s ∈ ns.flatMap Node.streams, low ≤ s.1 ∧ s.1 < high
  once : (ns.flatMap Node.streams).Nodup
  each : ∀ i, low ≤ i → i < high → ∃ kind, (i, kind) ∈ ns.flatMap Node.streams

namespace Draws

variable {low mid high : Nat} {ns ms : List (Node α)}

theorem none (low : Nat) (h : ∀ n ∈ ns, n.streams = []) : Draws low low ns := by
  have empty : ns.flatMap Node.streams = [] := List.flatMap_eq_nil_iff.mpr h
  refine ⟨Nat.le_refl _, by simp [empty], by simp [empty], fun i hi hj => ?_⟩
  omega

theorem append (h : Draws low mid ns) (k : Draws mid high ms) : Draws low high (ns ++ ms) where
  le := h.le.trans k.le
  bounds := by
    intro s hs
    rw [List.flatMap_append, List.mem_append] at hs
    rcases hs with hs | hs
    · have := h.bounds s hs
      have := k.le
      omega
    · have := k.bounds s hs
      have := h.le
      omega
  once := by
    rw [List.flatMap_append]
    refine List.nodup_append.mpr ⟨h.once, k.once, fun s hs r hr eq => ?_⟩
    have left := h.bounds s hs
    have right := k.bounds r hr
    rw [eq] at left
    omega
  each := by
    intro i hi hj
    rw [List.flatMap_append]
    by_cases below : i < mid
    · obtain ⟨kind, hk⟩ := h.each i hi below
      exact ⟨kind, List.mem_append_left _ hk⟩
    · obtain ⟨kind, hk⟩ := k.each i (by omega) hj
      exact ⟨kind, List.mem_append_right _ hk⟩

end Draws

/-- Nodes that keep the books: they lead from open labels to open labels, draw on an interval of
inputs, and each works in one lane. -/
structure Balanced (low high : Nat) (a : List Label) (ns : List (Node α)) (b : List Label) :
    Prop where
  wired : Wired a ns b
  draws : Draws low high ns
  lanes : ∀ n ∈ ns, n.InLane

namespace Balanced

variable {low mid high : Nat} {a b c : List Label} {ns ms : List (Node α)}

theorem refl (low : Nat) (a : List Label) : Balanced low low a ([] : List (Node α)) a :=
  ⟨.refl a, .none low (by simp), by simp⟩

theorem trans (h : Balanced low mid a ns b) (k : Balanced mid high b ms c) :
    Balanced low high a (ns ++ ms) c :=
  ⟨h.wired.trans k.wired, h.draws.append k.draws,
    fun n hn => (List.mem_append.mp hn).elim (h.lanes n) (k.lanes n)⟩

theorem after (h : Balanced low high a ns b) (p : b.Perm c) : Balanced low high a ns c :=
  ⟨h.wired.after p, h.draws, h.lanes⟩

theorem frame (h : Balanced low high a ns b) (rest : List Label) :
    Balanced low high (a ++ rest) ns (b ++ rest) :=
  ⟨h.wired.frame rest, h.draws, h.lanes⟩

theorem beside {a' b' : List Label} (h : Balanced low mid a ns b)
    (k : Balanced mid high a' ms b') : Balanced low high (a ++ a') (ns ++ ms) (b ++ b') :=
  ⟨h.wired.beside k.wired, h.draws.append k.draws,
    fun n hn => (List.mem_append.mp hn).elim (h.lanes n) (k.lanes n)⟩

theorem node (low : Nat) {n : Node α} (labels : n.labels = a) (streams : n.streams = [])
    (lane : n.InLane) : Balanced low low a [n] [n.output] :=
  ⟨.node labels, .none low (by simp [streams]), by simpa using lane⟩

theorem source {n : Node α} {kind : StreamKind} (h : n.inputs = [.stream low kind])
    (lane : n.InLane) : Balanced low (low + 1) [] [n] [n.output] := by
  have streams : [n].flatMap Node.streams = [(low, kind)] := by simp [Node.streams, h]
  refine ⟨.node (by simp [Node.labels, h]), ⟨by omega, ?_, ?_, fun i hi hj => ?_⟩,
    by simpa using lane⟩
  · simp [streams]
  · simp [streams]
  · have : i = low := by omega
    exact ⟨kind, by simp [streams, this]⟩

end Balanced

end Reel
