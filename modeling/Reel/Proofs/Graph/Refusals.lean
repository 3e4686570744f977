import Reel.Graph.Command
import Reel.Graph.Describe
import Reel.Proofs.Value.Reading

/-!
# Writing a graph refuses nothing

Once a graph is built and its encoding options have passed their check, what can still go wrong
with its texts and its commands are numbers and values that cannot be written. No request is
rejected any more.
-/
namespace Reel

theorem seconds_yields (x : Double) : Yields Error.IsPlain (Seconds.format x) fun _ => True :=
  format_yields (.real x)

theorem argument_yields (a : Argument Double) : Yields Error.IsPlain a.format fun _ => True := by
  cases a with
  | seconds x => exact seconds_yields x
  | literal v =>
      change Yields Error.IsPlain (Argument.formatValue v) fun _ => True
      unfold Argument.formatValue
      split
      · exact .ok trivial
      · exact format_yields _
      · exact format_yields _
      · exact toText_yields _

theorem render_yields (n : Node Double) : Yields Error.IsPlain n.render fun _ => True := by
  have filters (f : Filter Double) : Yields Error.IsPlain f.render fun _ => True := by
    refine (Yields.mapM argument_yields f.positional).bind fun positional _ => ?_
    refine (Yields.mapM (fun option => ?_) f.options).bind fun options _ => .ok trivial
    exact (argument_yields option.2).bind fun _ _ => .ok trivial
  exact (Yields.mapM filters n.filters).bind fun _ _ => .ok trivial

theorem filterComplex_yields (g : Graph Double) :
    Yields Error.IsPlain g.filterComplex fun _ => True :=
  (Yields.mapM render_yields g.nodes).bind fun _ _ => .ok trivial

theorem describe_yields (g : Graph Double) : Yields Error.IsPlain g.describe fun _ => True := by
  have nodes (n : Node Double) : Yields Error.IsPlain n.describe fun _ => True :=
    (render_yields n).bind fun _ _ => .ok trivial
  exact (Yields.mapM nodes g.nodes).bind fun _ _ => .ok trivial

theorem rateArguments_yields (e : EncodeOptions) (codecs : Codecs) :
    Yields Error.IsPlain (Graph.rateArguments e codecs) fun _ => True := by
  unfold Graph.rateArguments
  split
  · exact (toText_yields _).bind fun _ _ => .ok trivial
  split
  · exact (toText_yields _).bind fun _ _ => .ok trivial
  split
  · exact (toText_yields _).bind fun _ _ => .ok trivial
  · exact (toText_yields _).bind fun _ _ => .ok trivial

theorem EncodeOptions.exists_codecs {e : EncodeOptions} (valid : e.validate = .ok ()) :
    ∃ codecs, e.codecs = .ok codecs := by
  obtain ⟨codecs, known, -⟩ := exists_of_bind_ok valid
  exact ⟨codecs, known⟩

theorem invocations_yields (g : Graph Double) {e : EncodeOptions} (valid : e.validate = .ok ())
    (output sink : Value) :
    Yields Error.IsPlain (g.invocations e output sink) fun _ => True := by
  obtain ⟨codecs, known⟩ := EncodeOptions.exists_codecs valid
  rw [Graph.invocations, valid, known]
  refine Yields.bind (.ok trivial) fun _ (_ : True) => ?_
  refine (filterComplex_yields g).bind fun text _ => ?_
  refine Yields.bind (.ok trivial) fun codecs (_ : True) => ?_
  have encoding : Yields Error.IsPlain (g.encodingArguments e codecs) fun _ => True :=
    (rateArguments_yields e codecs).bind fun _ _ => .ok trivial
  exact encoding.bind fun _ _ => .ok trivial

theorem word_yields (v : Value) : Yields Error.IsPlain (Invocation.word v) fun _ => True := by
  unfold Invocation.word
  split
  · exact .ok trivial
  split
  · exact .ok trivial
  split
  · exact .error trivial
  · exact .error trivial

theorem commandLine_yields (i : Invocation) (program : Value) :
    Yields Error.IsPlain (i.commandLine program) fun _ => True := by
  unfold Invocation.commandLine
  split
  · exact (Yields.mapM word_yields _).bind fun _ _ => .ok trivial
  · exact (toText_yields _).bind fun _ _ => (toText_yields _).bind fun _ _ => .ok trivial

end Reel
