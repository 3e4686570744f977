import Reel.Encode
import Reel.FileName
import Reel.Host.Files
import Reel.Invocation
import Reel.Timecode

/-!
# Clips

One media file is cut and encoded again: from a start to an end, cropped and scaled, with its
sound kept, dropped or extracted.
-/
namespace Reel

/-- What is done to the picture and the sound of a clip. -/
structure ClipOptions where
  crop : Value := .null
  scale : Value := .null
  alpha : Bool := false
  fps : Value := .null
  removeAudio : Bool := false
  extractOpus : Bool := false
  deriving Repr, Inhabited

structure ClipJob where
  input : Value
  output : Value
  start : Value := .null
  finish : Value := .null
  encode : EncodeOptions := {}
  options : ClipOptions := {}
  deriving Repr

namespace ClipJob

/-- Refuses a missing input, an output that exists, encoding options that do not fit, and a crop
without a scale or the other way round. -/
def validate (job : ClipJob) (files : Files) : Except Error Unit := do
  let found ← if job.input.isNull then pure false else files.isFileAt job.input
  unless found do reject (.inputMissing (← job.input.toText))
  if ← files.existsAt job.output then reject (.outputExists (← job.output.toText))
  job.encode.validate
  if job.options.crop.isNull != job.options.scale.isNull then reject .cropWithoutScale

/-- The filters of the picture, in the order in which they apply. -/
def videoFilters (job : ClipJob) : Except Error (List String) := do
  let framing ←
    if job.options.crop.isNull || job.options.scale.isNull then pure []
    else do
      pure ["crop=" ++ (← job.options.crop.toText), "scale=" ++ (← job.options.scale.toText)]
  return framing ++
    if job.options.alpha then ["colorkey=0x000000:0.1:0.1", "format=yuva420p"] else []

def takesSoundOnly (job : ClipJob) : Bool :=
  job.options.extractOpus && !job.options.removeAudio

/-- An option with a time, left out for an absent or blank one. -/
def timeArguments (name : String) (time : Value) : Except Error (List String) := do
  if time.isNull || Text.blank (← time.toText) then return []
  else return [name, ← Timecode.formatDecimal (← Timecode.ofValue time)]

def settings (job : ClipJob) : Except Error (List String) := do
  let codecs ← job.encode.codecs
  let soundOnly := job.takesSoundOnly
  let audioCodec := if soundOnly then "libopus" else codecs.audio
  let start ← timeArguments "-ss" job.start
  let finish ← timeArguments "-to" job.finish
  let bitrate ← if job.encode.twoPass then do
      pure ["-b:v", ← job.encode.videoBitrate.toText]
    else pure []
  let rate ← if job.options.fps.isNull then pure [] else do
    pure ["-r", ← job.options.fps.toText]
  let filters ← job.videoFilters
  let quality ← if !soundOnly && job.encode.vp9 then do
      pure ["-crf", ← job.encode.vp9Crf.toText, "-b:v", "0"]
    else pure []
  return start ++ finish ++ bitrate ++
    (if job.encode.fast then ["-preset", "ultrafast"] else []) ++ rate ++
    (if soundOnly then ["-vn"] else []) ++
    (if !soundOnly && !filters.isEmpty then ["-vf", String.intercalate "," filters] else []) ++
    (if job.options.removeAudio then ["-an"] else ["-c:a", audioCodec]) ++
    (if soundOnly then [] else ["-c:v", codecs.video]) ++ quality

def baseArguments (job : ClipJob) : Except Error (List Value) := do
  return globalArguments ++ Value.words ["-i"] ++ [job.input] ++ Value.words (← job.settings)

def invocations (job : ClipJob) (files : Files) : Except Error (List Invocation) := do
  job.validate files
  let base ← job.baseArguments
  return if job.encode.twoPass then
      twoPassInvocations base job.output job.encode.passLogPrefix nullDevice
    else [{ arguments := base ++ [job.output], outputPath := job.output }]

end ClipJob

/-- The name of an output without the blanks around it. Bytes are no name unless nothing is left
of them. -/
def outputName : Value → Except Error String
  | .null => reject .outputNameMissing
  | .text given =>
    let name := Text.strip given
    if name = "" then reject .outputNameMissing
    else if FileName.isValid name then .ok name
    else reject (.outputNameInvalid name)
  | .bytes content =>
    if content.all isBlankByte then .ok (Value.bytes []).shown else .error FileName.charWanted
  | v => .error (.lacks v "strip")
where
  isBlankByte (b : UInt8) : Bool := b == 32 || (9 ≤ b && b ≤ 13)

/-- The path of a named output in a directory. Refuses names that can be no file's and paths
that are taken. -/
def outputPathFor (files : Files) (directory name format : Value) : Except Error String := do
  let file := (← outputName name) ++ "." ++ (← format.toText)
  let path := Path.join (← directory.toPath) file
  if files.exists? path then reject (.outputExists path) else return path

end Reel
