import Reel.Proofs.Graph.WellFormed
import Reel.Proofs.Graph.Offsets

/-!
# Lengths of streams

Each node gives a stream whose length follows from its filters and from the lengths of the
streams it reads. The nodes of a compiled graph follow their inputs and no label is given twice,
so one pass over the nodes finds lengths that meet the rule of every node.
-/
namespace Reel

open Build Label

/-- How long a stream runs; nothing if it has no end, or none that is known. -/
abbrev Length := Option Rat

def Length.total : List Length → Length
  | [] => some 0
  | x :: rest => do return (← x) + (← total rest)

namespace Filter

def secondsOf {α : Type} (f : Filter α) (key : String) : Option α :=
  match f.options.lookup key with
  | some (.seconds x) => some x
  | _ => none

/-- What a filter makes of the lengths of the streams it reads. -/
def length (f : Filter Rat) (inputs : List Length) : Length :=
  match f.name with
  | "trim" | "atrim" =>
    match f.positional with
    | [.literal (.int 0), .seconds finish] => some finish
    | _ => none
  | "apad" | "anullsrc" => none
  | "concat" => Length.total inputs
  | "xfade" => do return (← f.secondsOf "offset") + (← inputs[1]?.join)
  | "acrossfade" => do return (← Length.total inputs) - (← f.secondsOf "d")
  | _ => inputs.head?.join

end Filter

/-- What a chain of filters makes of the lengths of the streams it reads. -/
def chainLength : List (Filter Rat) → List Length → Length
  | [], inputs => inputs.head?.join
  | f :: rest, inputs => chainLength rest [f.length inputs]

/-- The length of a source when those of labels are known. How long a bound input runs is not
known. -/
def Source.length (lengths : Label → Length) : Source → Length
  | .stream .. => none
  | .output l => lengths l

namespace Node

/-- The length of what a node gives when those of labels are known. -/
def length (n : Node Rat) (lengths : Label → Length) : Length :=
  chainLength n.filters (n.inputs.map (Source.length lengths))

theorem length_congr {n : Node Rat} {lengths others : Label → Length}
    (h : ∀ l ∈ n.labels, lengths l = others l) : n.length lengths = n.length others := by
  have same : n.inputs.map (Source.length lengths) = n.inputs.map (Source.length others) := by
    refine List.map_congr_left fun s hs => ?_
    cases s with
    | stream i kind => rfl
    | output l => exact h l (mem_labels.mpr hs)
  rw [length, length, same]

def measure (lengths : Label → Length) (n : Node Rat) : Label → Length :=
  Function.update lengths n.output (n.length lengths)

end Node

def Measures (lengths : Label → Length) (nodes : List (Node Rat)) : Prop :=
  ∀ n ∈ nodes, lengths n.output = n.length lengths

theorem Measures.append {lengths : Label → Length} {ns ms : List (Node Rat)} :
    Measures lengths (ns ++ ms) ↔ Measures lengths ns ∧ Measures lengths ms :=
  List.forall_mem_append

/-- The lengths that one pass over the nodes finds. -/
def Graph.length (g : Graph Rat) : Label → Length := g.nodes.foldl Node.measure fun _ => none

theorem foldl_measure_of_notMem {ns : List (Node Rat)} {l : Label} (lengths : Label → Length)
    (h : l ∉ ns.map Node.output) : ns.foldl Node.measure lengths l = lengths l := by
  induction ns generalizing lengths with
  | nil => rfl
  | cons n ns ih =>
      rw [List.map_cons, List.mem_cons, not_or] at h
      rw [List.foldl_cons, ih _ h.2, Node.measure, Function.update_of_ne h.1]

/-- A pass over nodes that are wired one behind the other finds lengths that meet their rules. -/
theorem Wired.measures {ns : List (Node Rat)} {b : List Label} (h : Wired [] ns b)
    (nodup : (ns.map Node.output).Nodup) (start : Label → Length) :
    Measures (ns.foldl Node.measure start) ns := by
  intro n hn
  obtain ⟨xs, ys, split⟩ := List.append_of_mem hn
  rw [split, List.map_append, List.map_cons] at nodup
  obtain ⟨-, later, apart⟩ := List.nodup_append.mp nodup
  let lengths := xs.foldl Node.measure start
  have whole : ns.foldl Node.measure start = ys.foldl Node.measure (Node.measure lengths n) := by
    rw [split, List.foldl_append, List.foldl_cons]
  -- What the node reads was measured before it and is not measured again.
  have read : ∀ l ∈ n.labels, ns.foldl Node.measure start l = lengths l := by
    intro l hl
    rcases h.earlier split hl with none | given
    · cases none
    · have fresh : l ∉ (n :: ys).map Node.output := fun again => apart l given l again rfl
      rw [split, List.foldl_append]
      exact foldl_measure_of_notMem _ fresh
  rw [n.length_congr read, whole, foldl_measure_of_notMem _ (List.nodup_cons.mp later).1,
    Node.measure, Function.update_self]

theorem Assembly.measures {t : Timeline Rat} {g : Graph Rat} (a : Assembly t g) :
    Measures g.length g.nodes :=
  a.balanced.1.wired.measures a.outputs_nodup _

end Reel
