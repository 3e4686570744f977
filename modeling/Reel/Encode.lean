import Reel.Text.Case
import Reel.Value.Spelling

/-!
# Encoding options

The container decides the codecs. The quality is set in one of four ways: a bitrate for two
passes, a constant rate factor, the same for VP9, or a fixed quantizer. Settings that are only
handed on keep the value they were given.
-/
namespace Reel

structure Codecs where
  video : String
  audio : String
  deriving Repr, DecidableEq

def containers : List (String × Codecs) :=
  [("mp4", ⟨"libx264", "aac"⟩), ("mkv", ⟨"libx264", "aac"⟩), ("avi", ⟨"mpeg4", "libmp3lame"⟩)]

structure EncodeOptions where
  outputFormat : String := "mp4"
  crf : Value := .int 20
  preset : Value := "medium"
  audioBitrate : Value := "320k"
  twoPass : Bool := false
  videoBitrate : Value := .null
  fast : Bool := false
  vp9 : Bool := false
  vp9Crf : Value := .int 31
  /-- Where the logs of two passes go, if that is decided. -/
  passLogPrefix : Value := .null
  qscale : Value := .int 3
  deriving Repr, Inhabited

namespace EncodeOptions

/-- The format that a value names, in lower case. -/
def formatOf (v : Value) : Except Error String := v.toText.map Text.lower

/-- The codecs: those of the container, with VP9 in place of its video codec if asked for. -/
def codecs (e : EncodeOptions) : Except Error Codecs :=
  match containers.lookup e.outputFormat with
  | none => reject (.unknownFormat e.outputFormat)
  | some codecs => .ok (if e.vp9 then { codecs with video := "libvpx-vp9" } else codecs)

/-- Refuses an unknown container, and two passes without a bitrate. -/
def validate (e : EncodeOptions) : Except Error Unit := do
  let _ ← e.codecs
  if e.twoPass && !e.videoBitrate.truthy then reject .bitrateMissing

def effectivePreset (e : EncodeOptions) : Value := if e.fast then "ultrafast" else e.preset

end EncodeOptions

end Reel
