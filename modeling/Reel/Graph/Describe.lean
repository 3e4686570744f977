import Reel.Graph

/-!
# Descriptions of graphs

A graph as a value that can be written into a file: its inputs, its nodes with the text of their
filters, and what it gives out.
-/
namespace Reel

def Binding.describe (b : Binding) : Value :=
  .record [("index", .int b.index), ("path", b.path), ("options", .texts b.options),
    ("synthetic", .bool b.synthetic)]

/-- What a node reads, does and gives out. -/
def Node.describe (n : Node Double) : Except Error Value := do
  return .record [("label", .text n.output.text), ("operation", .text n.operation),
    ("inputs", .texts (n.inputs.map Source.text)), ("filter", .text (← n.render))]

def Graph.describe (g : Graph Double) : Except Error Value := do
  return .record [("inputs", .list (g.inputs.map Binding.describe)),
    ("nodes", .list (← g.nodes.mapM Node.describe)), ("video", .text g.video.text),
    ("audio", match g.audio with
      | some label => .text label.text
      | none => .null),
    ("duration", .real g.duration), ("join", .text g.join.text)]

end Reel
