import Reel.Proofs.Timeline.Moderate
import Reel.Proofs.Timeline.Probing

/-!
# Probes that fail

A probing program that is missing, may not be started, runs too long or exits with an error has
found nothing out, and what it prints may be anything. The duration made of that is a number no
longer than a probe is believed, a medium has sound only if a probe that succeeded says so, and a
clip runs for some time. There is one way for a probe to stop the program: a start that the system
refuses, as it does with a path that holds the zero character.
-/
namespace Reel

/-- A finite number of seconds that a probe is believed to have found. -/
def Double.Probed (x : Double) : Prop := ∃ v, x.toRat? = some v ∧ v ≤ 10 ^ 9

/-- The program was started, if only with its descriptors left open, and ended well. -/
def ProbeScript.Succeeds (script : ProbeScript) : Prop :=
  script.exitCode = 0 ∧ (script.fault = none ∨ script.fault = some .descriptors)

instance (script : ProbeScript) : Decidable script.Succeeds :=
  inferInstanceAs (Decidable (_ ∧ _))

namespace Host

/-- The machine does not refuse to start the probes of a medium. -/
def Startable (host : Host) (program path : Value) : Prop :=
  (host.probes (durationQuery program path)).fault ≠ some .refused ∧
    (host.probes (soundQuery program path)).fault ≠ some .refused

def printed? (host : Host) (words : List Value) : Option String :=
  let script := host.probes words
  if script.Succeeds then some (Text.decodeLenient script.output) else none

/-- A probe succeeds and prints this number, with blanks around it or none. -/
def PrintsNumber (host : Host) (words : List Value) (x : Double) : Prop :=
  ∃ text, host.printed? words = some text ∧ Double.read? (Text.strip text) = some x

def PrintsSomething (host : Host) (words : List Value) : Prop :=
  ∃ text, host.printed? words = some text ∧ Text.blank text = false

/-- Whatever becomes of the probes of a medium, they do no harm. -/
structure ProbesHarmless (host : Host) (program path : Value) : Prop where
  duration : ∃ x after, ((Prober.ofProgram program).duration path).on host = (.ok x, after) ∧
    x.Probed ∧
    (∀ y, host.PrintsNumber (durationQuery program path) y → y.Probed → x = y) ∧
    ((∀ y, host.PrintsNumber (durationQuery program path) y → ¬ y.Probed) → x = .zero)
  sound : ∃ present after,
    ((Prober.ofProgram program).hasSound path).on host = (.ok present, after) ∧
    (present = true ↔ host.PrintsSomething (soundQuery program path))
  clip : ∀ limit x, limit.toDoubleOrZero = .ok x →
    ∃ d after, ((Prober.ofProgram program).clipDuration path limit).on host = (.ok d, after) ∧
      Lasts d

end Host

namespace Double

variable {x : Double}

theorem zero_probed : zero.Probed := ⟨0, rfl, by norm_num⟩

theorem probed_iff : x.Probed ↔
    (x.isNaN || x.isInfinite || longestProbe.lt x) = false := by
  have top : longestProbe = finite 1000000000 := by decide +kernel
  rw [top]
  rcases x with _ | _ | _ | v
  · simp [Probed, toRat?, isNaN]
  · simp [Probed, toRat?, isInfinite]
  · norm_num [Probed, toRat?, isNaN, isInfinite, Double.lt]
  · norm_num [Probed, toRat?, isNaN, isInfinite, Double.lt]

end Double

namespace Resolve

variable {text : String} {x : Double}

theorem probedDuration_of_probed (read : Double.read? (Text.strip text) = some x)
    (probed : x.Probed) : probedDuration (.text text) = x := by
  rw [Double.probed_iff] at probed
  have shown : Text.strip (Value.text text).shown = Text.strip text := rfl
  simp only [probedDuration, shown, read, probed, Bool.false_eq_true, if_false]

theorem probedDuration_eq_zero
    (unbelieved : ∀ x, Double.read? (Text.strip text) = some x → ¬ x.Probed) :
    probedDuration (.text text) = .zero := by
  have shown : Text.strip (Value.text text).shown = Text.strip text := rfl
  simp only [probedDuration, shown]
  split
  · rfl
  · next x read =>
      have refused := unbelieved x read
      rw [Double.probed_iff, Bool.not_eq_false] at refused
      rw [if_pos refused]

theorem probedDuration_probed (text : String) : (probedDuration (.text text)).Probed := by
  by_cases believed : ∃ x, Double.read? (Text.strip text) = some x ∧ x.Probed
  · obtain ⟨x, read, probed⟩ := believed
    rwa [probedDuration_of_probed read probed]
  · push Not at believed
    rw [probedDuration_eq_zero believed]
    exact Double.zero_probed

end Resolve

namespace Run

variable {words : List Value} {host : Host}

/-- A probe finds what it prints if it succeeds, and nothing if it does not. -/
theorem found_eq (startable : (host.probes words).fault ≠ some .refused) :
    (host.probes words).found = .ok ((host.printed? words).getD "") := by
  unfold ProbeScript.found Host.printed?
  generalize host.probes words = script at *
  have succeeds : script.Succeeds ↔
      script.exitCode = 0 ∧ (script.fault = none ∨ script.fault = some .descriptors) := Iff.rfl
  cases faulty : script.fault with
  | none =>
      rw [faulty] at succeeds
      simp [succeeds, apply_ite (Option.getD · "")]
  | some fault =>
      rw [faulty] at succeeds
      cases fault with
      | refused => exact (startable faulty).elim
      | descriptors => simp [succeeds, apply_ite (Option.getD · "")]
      | missing => simp [succeeds]
      | denied => simp [succeeds]
      | timeout => simp [succeeds]

theorem probe_startable (startable : (host.probes words).fault ≠ some .refused) :
    ∃ after, (Run.probe words).on host = (.ok ((host.printed? words).getD ""), after) := by
  have ends := probe_on words host
  rw [found_eq startable] at ends
  exact ⟨_, ends⟩

theorem probe_refused (refused : (host.probes words).fault = some .refused) :
    ∃ after, (Run.probe words).on host = (.error .zeroInside, after) := by
  have ends := probe_on words host
  rw [ProbeScript.found, refused] at ends
  exact ⟨_, ends⟩

end Run

namespace Prober

variable {host : Host} {program path : Value}

theorem duration_startable (startable : host.Startable program path) :
    ∃ after, ((ofProgram program).duration path).on host =
      (.ok (probedDuration (.text ((host.printed? (durationQuery program path)).getD ""))),
        after) := by
  obtain ⟨after, ends⟩ := Run.probe_startable startable.1
  refine ⟨after, ?_⟩
  simp only [duration, ofProgram, Run.on_bind_pure, ends]
  rfl

theorem hasSound_startable (startable : host.Startable program path) :
    ∃ after, ((ofProgram program).hasSound path).on host =
      (.ok (probedSound (.text ((host.printed? (soundQuery program path)).getD ""))),
        after) := by
  obtain ⟨after, ends⟩ := Run.probe_startable startable.2
  refine ⟨after, ?_⟩
  simp only [hasSound, ofProgram, Run.on_bind_pure, ends]
  rfl

theorem duration_refused (refused : (host.probes (durationQuery program path)).fault =
    some .refused) :
    ∃ after, ((ofProgram program).duration path).on host = (.error .zeroInside, after) := by
  obtain ⟨after, ends⟩ := Run.probe_refused refused
  refine ⟨after, ?_⟩
  simp only [duration, ofProgram, Run.on_bind_pure, ends]
  rfl

theorem hasSound_refused (refused : (host.probes (soundQuery program path)).fault =
    some .refused) :
    ∃ after, ((ofProgram program).hasSound path).on host = (.error .zeroInside, after) := by
  obtain ⟨after, ends⟩ := Run.probe_refused refused
  refine ⟨after, ?_⟩
  simp only [hasSound, ofProgram, Run.on_bind_pure, ends]
  rfl

end Prober

namespace Host

open Resolve

variable {host : Host} {program path : Value}

/-- What a successful probe prints is the text that numbers and sound are read from. -/
theorem printsNumber_iff {words : List Value} {x : Double} : host.PrintsNumber words x ↔
    Double.read? (Text.strip ((host.printed? words).getD "")) = some x := by
  have nothing : Double.read? (Text.strip "") = none := by decide +kernel
  unfold PrintsNumber
  cases host.printed? words with
  | none => simp [nothing]
  | some text => simp

theorem printsSomething_iff {words : List Value} : host.PrintsSomething words ↔
    Text.blank ((host.printed? words).getD "") = false := by
  have nothing : Text.blank "" = true := rfl
  unfold PrintsSomething
  cases host.printed? words with
  | none => simp [nothing]
  | some text => simp

theorem probesHarmless_of_startable (startable : host.Startable program path) :
    host.ProbesHarmless program path := by
  obtain ⟨after, duration⟩ := Prober.duration_startable startable
  constructor
  · refine ⟨_, after, duration, probedDuration_probed _, fun y prints probed => ?_, fun h => ?_⟩
    · exact probedDuration_of_probed (printsNumber_iff.mp prints) probed
    · exact probedDuration_eq_zero fun y read => h y (printsNumber_iff.mpr read)
  · obtain ⟨after, sound⟩ := Prober.hasSound_startable startable
    refine ⟨_, after, sound, ?_⟩
    rw [printsSomething_iff]
    simp [probedSound, Value.shown]
  · intro limit x read
    refine ⟨_, after, ?_, clipDuration_lasts x (probedDuration_isNaN
      (.text ((host.printed? (durationQuery program path)).getD "")))⟩
    simp only [Prober.clipDuration, read, Run.ofExcept, pure_bind, Run.on_bind_pure, duration]
    rfl

end Host

/-- Whatever a probing program does, its failures are not fatal, unless the system refuses to
start it. -/
theorem probesHarmless_iff_startable (host : Host) (program path : Value) :
    host.ProbesHarmless program path ↔ host.Startable program path := by
  constructor
  · intro harmless
    constructor
    · intro refused
      obtain ⟨x, after, ends, -⟩ := harmless.duration
      obtain ⟨after', stops⟩ := Prober.duration_refused refused
      cases ends.symm.trans stops
    · intro refused
      obtain ⟨present, after, ends, -⟩ := harmless.sound
      obtain ⟨after', stops⟩ := Prober.hasSound_refused refused
      cases ends.symm.trans stops
  · exact Host.probesHarmless_of_startable

/-- A machine on which a name that holds the zero character cannot be passed on. -/
def strictHost : Host :=
  { probes := Medium.probes [("walk\x00.mp4",
      { duration := Text.encode "5\n", sound := Text.encode "audio\n", fault := some .refused })] }

/-- What is asked about such a name stops the program, though the program that would answer ends
well. -/
theorem strictHost_stops : ¬ strictHost.ProbesHarmless "ffprobe" "walk\x00.mp4" ∧
    (((Prober.ofProgram "ffprobe").duration "walk\x00.mp4").on strictHost).1 =
      .error .zeroInside ∧
    (((Prober.ofProgram "ffprobe").hasSound "walk\x00.mp4").on strictHost).1 =
      .error .zeroInside ∧
    (((Prober.ofProgram "ffprobe").clipDuration "walk\x00.mp4" (.int 0)).on strictHost).1 =
      .error .zeroInside := by
  have stops : (((Prober.ofProgram "ffprobe").duration "walk\x00.mp4").on strictHost).1 =
      .error .zeroInside := by decide +kernel
  refine ⟨fun harmless => ?_, stops, by decide +kernel, by decide +kernel⟩
  obtain ⟨x, after, ends, -⟩ := harmless.duration
  rw [ends] at stops
  cases stops

end Reel
