import Reel.Yaml.Scalar

/-!
# Nodes of a YAML document

The scalars, sequences and mappings that a document consists of, each with its place, before any
of them has a value. A mapping whose merge key `<<` brings the entries of others has those as
well, its own going before them.

Values are made level by level: what lies in one container is looked at before what lies deeper
in any. The first fault in this order is the document's.
-/
namespace Reel.Yaml

inductive Node where
  | scalar (mark : Mark) (text : String) (plain : Bool)
  | sequence (mark : Mark) (items : List Node)
  | mapping (mark : Mark) (entries : List (Node × Node))
  deriving Repr

namespace Node

def mark : Node → Mark
  | .scalar mark .. | .sequence mark _ | .mapping mark _ => mark

def kindName : Node → String
  | .scalar .. => "scalar"
  | .sequence .. => "sequence"
  | .mapping .. => "mapping"

/-- Whether the node, as a key, brings the entries of other mappings. -/
def isMerge : Node → Bool
  | .scalar _ text plain => plain && text == "<<"
  | _ => false

/-- A problem with the construction of the mapping that begins at a place. -/
private def inMapping (start : Mark) (problem : String) (mark : Mark) : Fault :=
  .malformed
    { context := "while constructing a mapping", contextMark := start, problem, mark }

mutual

/-- The entries that merge keys bring, and a mapping's own. -/
def parts (start : Mark) :
    List (Node × Node) → Except Fault (List (Node × Node) × List (Node × Node))
  | [] => .ok ([], [])
  | (key, value) :: rest =>
    if key.isMerge then do
      let brought ← merged start value
      let (more, own) ← parts start rest
      return (brought ++ more, own)
    else do
      let (brought, own) ← parts start rest
      return (brought, (key, value) :: own)

/-- The entries that the value of a merge key brings: those of a mapping, or of several, of which
the last comes first. -/
def merged (start : Mark) : Node → Except Fault (List (Node × Node))
  | .mapping mark entries => do
    let (brought, own) ← parts mark entries
    return brought ++ own
  | .sequence _ items => do
    return (← mergedItems start items).reverse.flatten
  | .scalar mark .. => .error (inMapping start
      "expected a mapping or list of mappings for merging, but found scalar" mark)

def mergedItems (start : Mark) : List Node → Except Fault (List (List (Node × Node)))
  | [] => .ok []
  | .mapping mark entries :: rest => do
    let (brought, own) ← parts mark entries
    return (brought ++ own) :: (← mergedItems start rest)
  | item :: _ => .error (inMapping start
      ("expected a mapping for merging, but found " ++ item.kindName) item.mark)

end

def scalarValue (mark : Mark) (text : String) (plain : Bool) : Except Fault Value :=
  if plain then plainValue mark text else .ok (.text text)

/-- The value of a key of the mapping that begins at a place. Only a scalar can be a key, and the
mark of a default value is a text there. -/
def keyValue (start : Mark) : Node → Except Fault Value
  | .scalar mark text plain =>
    if plain && text == "=" then .ok (.text text) else scalarValue mark text plain
  | key => .error (inMapping start "found unhashable key" key.mark)

/-- A container holds further nodes and is looked at later; a scalar is looked at where it is. -/
def container? : Node → Except Fault (List Node)
  | .scalar mark text plain => do
    let _ ← scalarValue mark text plain
    return []
  | n => .ok [n]

/-- Looks at an entry of the mapping that begins at a place; the containers in it. -/
def entryContainers (start : Mark) (entry : Node × Node) : Except Fault (List Node) := do
  let _ ← keyValue start entry.1
  container? entry.2

/-- Looks at what lies in a node; the containers in it. -/
def containers : Node → Except Fault (List Node)
  | .scalar .. => .ok []
  | .sequence _ items => return (← items.mapM container?).flatten
  | .mapping mark entries => do
    let (brought, own) ← parts mark entries
    return (← (brought ++ own).mapM (entryContainers mark)).flatten

def inspect : Nat → List Node → Except Fault Unit
  | 0, _ | _, [] => .ok ()
  | levels + 1, nodes => do
    inspect levels (← nodes.mapM containers).flatten

/-- Whether two keys name one entry. The not-a-number that is written out is always the same. -/
def sameKey (a b : Value) : Bool := a.sameKey b || (a == .real .nan && b == .real .nan)

def insert (entries : List (Value × Value)) (entry : Value × Value) : List (Value × Value) :=
  Value.insertBy sameKey entry.1 entry.2 entries

/-- The entries of a mapping, or of the mappings of a list, the last of them first. -/
def entriesOf : Value → List (Value × Value)
  | .map entries => entries
  | .list items => items.reverse.flatMap fun
    | .map entries => entries
    | _ => []
  | _ => []

mutual

def depth : Node → Nat
  | .scalar .. => 0
  | .sequence _ items => depthOfItems items + 1
  | .mapping _ entries => depthOfEntries entries + 1

def depthOfItems : List Node → Nat
  | [] => 0
  | item :: rest => max item.depth (depthOfItems rest)

def depthOfEntries : List (Node × Node) → Nat
  | [] => 0
  | (key, value) :: rest => max (max key.depth value.depth) (depthOfEntries rest)

end

mutual

/-- The value of a node in which nothing is wrong. -/
def value : Node → Except Fault Value
  | .scalar mark text plain => scalarValue mark text plain
  | .sequence _ items => do return .list (← values items)
  | .mapping mark entries => do
    let (brought, own) ← valueParts mark entries
    return .map ((brought ++ own).foldl insert [])

def values : List Node → Except Fault (List Value)
  | [] => .ok []
  | item :: rest => do return (← item.value) :: (← values rest)

/-- The entries that merge keys bring, and a mapping's own, as values. -/
def valueParts (start : Mark) :
    List (Node × Node) → Except Fault (List (Value × Value) × List (Value × Value))
  | [] => .ok ([], [])
  | (key, value) :: rest => do
    let v ← value.value
    let (brought, own) ← valueParts start rest
    if key.isMerge then return (entriesOf v ++ brought, own)
    else return (brought, (← keyValue start key, v) :: own)

end

/-- The value of a node, or its first fault. -/
def toValue (n : Node) : Except Fault Value := do
  inspect (n.depth + 1) [n]
  n.value

end Node

end Reel.Yaml
