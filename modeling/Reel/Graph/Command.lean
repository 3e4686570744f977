import Reel.Encode
import Reel.Graph
import Reel.Invocation

/-!
# Commands of a graph

A compiled graph becomes the arguments of one run of the encoder, or of two for a two-pass
encode: the inputs in the order of their indices, the graph, what it gives out, and how that is
encoded.
-/
namespace Reel.Graph

variable {α : Type}

/-- The words that bind the inputs, in the order of their indices. -/
def inputArguments (g : Graph α) : List Value :=
  (g.inputs.mergeSort fun a b => decide (a.index ≤ b.index)).flatMap Binding.arguments

/-- The words that choose the outputs of the graph; a graph without sound has none. -/
def mapArguments (g : Graph α) : List Value :=
  Value.words (["-map", g.video.pad] ++
    match g.audio with
    | none => ["-an"]
    | some audio => ["-map", audio.pad])

/-- The words that set the quality of the picture, in exactly one way. -/
def rateArguments (e : EncodeOptions) (codecs : Codecs) : Except Error (List Value) := do
  if e.twoPass then return ["-b:v", .text (← e.videoBitrate.toText)]
  else if codecs.video = "libvpx-vp9" then
    return ["-crf", .text (← e.vp9Crf.toText), "-b:v", "0"]
  else if codecs.video = "mpeg4" then return ["-q:v", .text (← e.qscale.toText)]
  else return ["-crf", .text (← e.crf.toText)]

/-- The words that say how the outputs are encoded. -/
def encodingArguments (g : Graph α) (e : EncodeOptions) (codecs : Codecs) :
    Except Error (List Value) := do
  let rate ← rateArguments e codecs
  return Value.words ["-shortest", "-c:v", codecs.video, "-pix_fmt", "yuv420p"] ++
    (if codecs.video = "libx264" then
      Value.words ["-profile:v", "high", "-level", "4.0", "-preset"] ++ [e.effectivePreset]
    else []) ++
    rate ++
    (if g.audio.isSome then Value.words ["-c:a", codecs.audio, "-b:a"] ++ [e.audioBitrate]
    else []) ++
    (if e.outputFormat = "mp4" then Value.words ["-movflags", "+faststart"] else [])

/-- The runs of the encoder that write the graph's output. -/
def invocations [Seconds α] (g : Graph α) (e : EncodeOptions) (outputPath sink : Value) :
    Except Error (List Invocation) := do
  e.validate
  let text ← g.filterComplex
  let codecs ← e.codecs
  let base := globalArguments ++ g.inputArguments ++ Value.words ["-filter_complex", text] ++
    g.mapArguments ++ (← g.encodingArguments e codecs)
  return if e.twoPass then twoPassInvocations base outputPath e.passLogPrefix sink
    else [{ arguments := base ++ [outputPath], outputPath }]

end Reel.Graph
