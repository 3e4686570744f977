import Reel.Host.Process
import Reel.Timeline.Resolve

/-!
# Probing media files

Media are probed by a program that prints one fact about a file. A program that is not there,
may not be started, runs too long or exits with an error has found nothing out; only a start
that the system refuses outright is an error.
-/
namespace Reel

namespace Run

/-- What a probe printed; nothing if it failed. A start that cannot close inherited descriptors
is tried again without closing them. -/
def probe (words : List Value) : Run String := do
  let outcome ← startProbe words true
  let outcome ← match outcome with
    | .error .descriptors => startProbe words false
    | outcome => pure outcome
  match outcome with
  | .error .refused => throw (StartFault.refused.error "")
  | .error .descriptors => throw (StartFault.descriptors.error "")
  | .error _ => return ""
  | .ok ended => return if ended.exitCode = 0 then Text.decodeLenient ended.output else ""

end Run

/-- The words that ask a probing program for the duration of a file. -/
def durationQuery (program path : Value) : List Value :=
  [program, "-v", "error", "-show_entries", "format=duration", "-of",
    "default=noprint_wrappers=1:nokey=1", path]

/-- The words that ask a probing program for the sound streams of a file. -/
def soundQuery (program path : Value) : List Value :=
  [program, "-v", "error", "-select_streams", "a", "-show_entries", "stream=codec_type", "-of",
    "csv=p=0", path]

def Prober.ofProgram (program : Value) : Prober where
  durationText path := return .text (← Run.probe (durationQuery program path))
  soundText path := return .text (← Run.probe (soundQuery program path))

/-- The program that is asked where none is named. -/
def defaultProbeProgram : Value := "ffprobe"

structure Medium where
  duration : List UInt8 := []
  sound : List UInt8 := []
  exitCode : Int := 0
  diagnostic : List UInt8 := []
  fault : Option StartFault := none
  deriving Repr, DecidableEq

/-- The answers where only some media are known. The last word names the medium, and a probe of
any other exits with an error. -/
def Medium.probes (media : List (String × Medium)) (words : List Value) : ProbeScript :=
  match media.find? fun entry => some entry.1 == (words.getLastD .null).text? with
  | some (_, medium) =>
    { output :=
        if words.contains (.text "format=duration") then medium.duration else medium.sound
      exitCode := medium.exitCode, diagnostic := medium.diagnostic, fault := medium.fault }
  | none => { exitCode := 1 }

end Reel
