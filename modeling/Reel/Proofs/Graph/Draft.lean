import Reel.Graph.Build
import Reel.Proofs.Graph.Label
import Reel.Proofs.Yields

/-!
# Drafts of a graph

A draft is consistent if its allocator has issued the outputs of its nodes and nothing else: each
label then bears the place of its node, no text occurs twice, and the inputs are numbered in
order. Adding a node to a consistent draft succeeds for every label that is not in use, and the
draft stays consistent. So the checks of the allocator never refuse such a label.
-/
namespace Reel

namespace Label

def counted (kind : LabelKind) (index serial : Nat) : Label :=
  { kind, index := some (toString index), serial }

/-- The label of the only member of a kind. -/
def single (kind : LabelKind) (serial : Nat) : Label := { kind, index := none, serial }

end Label

namespace Draft

variable {α : Type} {d e f : Draft α} {stops : Error → Prop}

/-- The labels of a draft are the outputs of its nodes, in the order of issue. -/
structure Consistent (d : Draft α) : Prop where
  issued : d.labels.issued = d.nodes.map Node.output
  serials : d.nodes.map (fun n => n.output.serial) = List.range d.nodes.length
  distinct : (d.nodes.map fun n => n.output.text).Nodup
  regular : ∀ n ∈ d.nodes, n.output.Regular
  numbered : d.inputs.map Binding.index = List.range d.inputs.length

theorem consistent_empty : ({} : Draft α).Consistent :=
  ⟨rfl, rfl, List.nodup_nil, by simp, rfl⟩

/-- No label of the kind is in use from the index on. -/
def FreeFrom (d : Draft α) (kind : LabelKind) (index : Nat) : Prop :=
  ∀ n ∈ d.nodes, n.output.kind = kind → ∃ j < index, n.output.index = some (toString j)

def Free (d : Draft α) (kind : LabelKind) : Prop := ∀ n ∈ d.nodes, n.output.kind ≠ kind

theorem Free.freeFrom {kind : LabelKind} (h : d.Free kind) (index : Nat) :
    d.FreeFrom kind index :=
  fun n hn hk => (h n hn hk).elim

/-- The draft `e` is `d` with bindings and nodes added, and consistent. -/
structure Grows (d e : Draft α) (bindings : List Binding) (nodes : List (Node α)) : Prop where
  inputs : e.inputs = d.inputs ++ bindings
  nodes : e.nodes = d.nodes ++ nodes
  consistent : e.Consistent

theorem Grows.refl (h : d.Consistent) : d.Grows d [] [] := ⟨by simp, by simp, h⟩

theorem Grows.trans {bs cs : List Binding} {ns ms : List (Node α)} (h : d.Grows e bs ns)
    (k : e.Grows f cs ms) : d.Grows f (bs ++ cs) (ns ++ ms) :=
  ⟨by rw [k.inputs, h.inputs, List.append_assoc], by rw [k.nodes, h.nodes, List.append_assoc],
    k.consistent⟩

theorem Grows.freeFrom {bs : List Binding} {ns : List (Node α)} {kind : LabelKind} {index : Nat}
    (h : d.Grows e bs ns) (old : d.FreeFrom kind index)
    (new : ∀ n ∈ ns, n.output.kind = kind → ∃ j < index, n.output.index = some (toString j)) :
    e.FreeFrom kind index := by
  intro n hn
  rw [h.nodes, List.mem_append] at hn
  exact hn.elim (old n) (new n)

theorem Grows.free {bs : List Binding} {ns : List (Node α)} {kind : LabelKind}
    (h : d.Grows e bs ns) (old : d.Free kind) (new : ∀ n ∈ ns, n.output.kind ≠ kind) :
    e.Free kind := by
  intro n hn
  rw [h.nodes, List.mem_append] at hn
  exact hn.elim (old n) (new n)

/-- Behind nodes of one index, the labels from the next index on are not in use. -/
theorem Grows.freeFrom_succ {bs : List Binding} {ns : List (Node α)} {kind : LabelKind}
    {index : Nat} (h : d.Grows e bs ns) (old : d.FreeFrom kind index)
    (new : ∀ n ∈ ns, n.output.index = some (toString index)) : e.FreeFrom kind (index + 1) := by
  refine h.freeFrom (fun m hm hk => ?_) fun m hm _ => ⟨index, by omega, new m hm⟩
  obtain ⟨j, hj, hi⟩ := old m hm hk
  exact ⟨j, by omega, hi⟩

/-- Only labels of some kinds are in use. -/
def Uses (d : Draft α) (kinds : List LabelKind) : Prop := ∀ n ∈ d.nodes, n.output.kind ∈ kinds

theorem uses_empty : ({} : Draft α).Uses [] := by simp [Uses]

theorem Uses.free {kinds : List LabelKind} {kind : LabelKind} (h : d.Uses kinds)
    (unused : kind ∉ kinds) : d.Free kind :=
  fun n hn hk => unused (hk ▸ h n hn)

theorem Grows.uses {bs : List Binding} {ns : List (Node α)} {kinds more : List LabelKind}
    (h : d.Grows e bs ns) (old : d.Uses kinds) (new : ∀ n ∈ ns, n.output.kind ∈ more) :
    e.Uses (kinds ++ more) := by
  intro n hn
  rw [h.nodes, List.mem_append] at hn
  rcases hn with hn | hn
  · exact List.mem_append_left _ (old n hn)
  · exact List.mem_append_right _ (new n hn)

theorem Grows.bind (h : d.Consistent) (path : Value) (options : List String) (synthetic : Bool) :
    d.Grows (d.bind path options synthetic).2
      [{ index := d.inputs.length, path, options, synthetic }] [] := by
  refine ⟨rfl, (List.append_nil _).symm, ?_⟩
  exact { h with numbered := by simp [Draft.bind, h.numbered, List.range_succ] }

/-- The draft with a node at the end whose label was issued. -/
def push (d : Draft α) (n : Node α) : Draft α :=
  { d with labels := { issued := d.labels.issued ++ [n.output] }, nodes := d.nodes ++ [n] }

theorem Consistent.push {n : Node α} (h : d.Consistent) (serial : n.output.serial = d.nodes.length)
    (regular : n.output.Regular)
    (fresh : ∀ m ∈ d.nodes, m.output.text ≠ n.output.text) : (d.push n).Consistent where
  issued := by simp [Draft.push, h.issued]
  serials := by simp [Draft.push, h.serials, serial, List.range_succ]
  distinct := by
    simp only [Draft.push, List.map_append, List.map_cons, List.map_nil]
    refine List.nodup_append.mpr ⟨h.distinct, List.nodup_singleton _, ?_⟩
    intro text ht other ho
    obtain ⟨m, hm, rfl⟩ := List.mem_map.mp ht
    rw [List.mem_singleton.mp ho]
    exact fresh m hm
  regular := by
    intro m hm
    simp only [Draft.push, List.mem_append, List.mem_singleton] at hm
    rcases hm with hm | rfl
    · exact h.regular m hm
    · exact regular
  numbered := h.numbered

/-- A label that is not in use is issued, and the node is added under it. -/
theorem add_yields (h : d.Consistent) {kind : LabelKind} {index : Option Int}
    (counted : index.isSome = kind.isIndexed) (inputs : List Source) (filters : List (Filter α))
    (offset : Option α)
    (fresh : ∀ m ∈ d.nodes, m.output.kind = kind → m.output.index ≠ index.map toString) :
    Yields stops (d.add kind index inputs filters offset) fun (l, e) =>
      l = ⟨kind, index.map toString, d.nodes.length⟩ ∧
        d.Grows e [] [{ inputs, filters, output := l, offset }] := by
  have serial : d.labels.issued.length = d.nodes.length := by rw [h.issued, List.length_map]
  let label : Label := ⟨kind, index.map toString, d.nodes.length⟩
  let node : Node α := { inputs, filters, output := label, offset }
  have regular : node.output.Regular := ⟨index, rfl, counted⟩
  have unused : ∀ m ∈ d.nodes, m.output.text ≠ label.text := by
    intro m hm ht
    obtain ⟨hk, hi⟩ := (h.regular m hm).eq_of_text regular ht
    exact fresh m hm hk hi
  have issues : d.labels.issue kind index =
      .ok (label, { issued := d.labels.issued ++ [label] }) := by
    have absent : Label.textOf kind (index.map toString) ∉ d.labels.issued.map Label.text := by
      rw [h.issued, List.map_map, List.mem_map]
      rintro ⟨m, hm, same⟩
      exact unused m hm same
    rw [Allocator.issue_eq, if_pos counted, if_neg absent, serial]
  unfold Draft.add
  rw [issues]
  exact .ok ⟨rfl, (List.append_nil _).symm, rfl, h.push rfl regular unused⟩

theorem add_counted_yields (h : d.Consistent) {kind : LabelKind} (counted : kind.isIndexed = true)
    {i : Nat} (free : d.FreeFrom kind i) (inputs : List Source) (filters : List (Filter α))
    (offset : Option α) :
    Yields stops (d.add kind (some (i : Int)) inputs filters offset) fun (l, e) =>
      l = .counted kind i d.nodes.length ∧
        d.Grows e [] [{ inputs, filters, output := l, offset }] := by
  refine add_yields h (by simp [counted]) inputs filters offset ?_
  intro m hm hk hi
  obtain ⟨j, hj, hij⟩ := free m hm hk
  have : j = i := Nat.repr_injective (Option.some_injective _ (hij.symm.trans hi))
  omega

theorem add_single_yields (h : d.Consistent) {kind : LabelKind} (single : kind.isIndexed = false)
    (free : d.Free kind) (inputs : List Source) (filters : List (Filter α)) (offset : Option α) :
    Yields stops (d.add kind none inputs filters offset) fun (l, e) =>
      l = .single kind d.nodes.length ∧
        d.Grows e [] [{ inputs, filters, output := l, offset }] :=
  add_yields h (by simp [single]) inputs filters offset fun m hm hk => (free m hm hk).elim

end Draft

end Reel
