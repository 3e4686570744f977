import Reel.Graph.Filter
import Reel.Graph.Label
import Reel.Timeline

/-!
# Filter graphs

A compiled graph has the files it reads, in the order in which they are bound, and a list of
nodes. A node sends its inputs through a chain of filters into one labelled output; its inputs
are streams of the bound files or outputs of earlier nodes. Two labels are what the graph gives
out: the picture and, unless it was taken away, the sound.
-/
namespace Reel

inductive StreamKind where
  | video
  | audio
  deriving Repr, DecidableEq

def StreamKind.text : StreamKind → String
  | .video => "v"
  | .audio => "a"

/-- What a node reads: a stream of a bound file, or the output of another node. -/
inductive Source where
  | stream (input : Nat) (kind : StreamKind)
  | output (label : Label)
  deriving Repr, DecidableEq

namespace Source

def text : Source → String
  | .stream input kind => toString input ++ ":" ++ kind.text
  | .output label => label.text

def pad (s : Source) : String := "[" ++ s.text ++ "]"

end Source

/-- A chain of filters with its inputs and its output. -/
structure Node (α : Type) where
  inputs : List Source
  filters : List (Filter α)
  output : Label
  /-- Where a cross-fade starts in the composed output. -/
  offset : Option α := none
  deriving Repr

namespace Node

variable {α : Type}

def operation (n : Node α) : String := (n.filters.head?.map Filter.name).getD ""

/-- The node as it is written in a graph: input pads, filters, output pad. -/
def render [Seconds α] (n : Node α) : Except Error String := do
  let filters ← n.filters.mapM Filter.render
  return String.join (n.inputs.map Source.pad) ++ String.intercalate "," filters ++ n.output.pad

end Node

/-- A file, or a generated source, bound as an input. -/
structure Binding where
  index : Nat
  path : Value
  options : List String := []
  /-- The source is generated and has no file. -/
  synthetic : Bool := false
  deriving Repr, DecidableEq

def Binding.arguments (b : Binding) : List Value :=
  Value.words (b.options ++ ["-i"]) ++ [b.path]

structure Graph (α : Type) where
  inputs : List Binding
  nodes : List (Node α)
  video : Label
  audio : Option Label
  /-- How long the composed picture runs. -/
  duration : α
  join : JoinMode
  deriving Repr

namespace Graph

variable {α : Type}

/-- The text of the whole graph, the nodes separated by semicolons. -/
def filterComplex [Seconds α] (g : Graph α) : Except Error String := do
  return String.intercalate ";" (← g.nodes.mapM Node.render)

/-- The first node with the given output. -/
def node? (g : Graph α) (label : String) : Option (Node α) :=
  g.nodes.find? fun n => n.output.text == label

/-- The nodes whose first filter has the given name. -/
def nodesByOperation (g : Graph α) (operation : String) : List (Node α) :=
  g.nodes.filter fun n => n.operation == operation

def crossfades (g : Graph α) : List (Node α) := g.nodesByOperation "xfade"

end Graph

end Reel
