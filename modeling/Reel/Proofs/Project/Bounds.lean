import Reel.Environment.Plain
import Reel.Proofs.Timeline.Moderate

/-!
# From records to commands

A record is read, its durations are found out, its graph is built and written as commands. If its
durations are moderate the only thing that may be wrong on this way is a container that is not
known, and all that the commands are cut at, or read for, is greater than zero. A duration that is
not, like that of an image for ten to the 30th seconds, ends as a number that cannot be written.
-/
namespace Reel

open Timecode

/-- The runs of the encoder that a timeline leads to, with the default options of its format. -/
def Prober.invocations (p : Prober) (workers : Int) (t : Timeline Double) (output : Value) :
    Run (List Invocation) := do
  let resolved ← p.resolve workers t
  let graph ← Run.ofExcept (Graph.build resolved)
  let format ← Run.ofExcept (EncodeOptions.formatOf t.outputFormat)
  Run.ofExcept (graph.invocations { outputFormat := format } output nullDevice)

namespace Prober

variable {p : Prober} {t : Timeline Double} {files : Files} {record : Value}

theorem invocations_on (workers : Int) (output : Value) {host : Host}
    {resolved : Timeline Double} {after : Host} {g : Graph Double} {format : String}
    (resolves : (p.resolve workers t).on host = (.ok resolved, after))
    (built : Graph.build resolved = .ok g)
    (given : EncodeOptions.formatOf t.outputFormat = .ok format) :
    (p.invocations workers t output).on host =
      (g.invocations { outputFormat := format } output nullDevice, after) := by
  simp [invocations, Run.on_bind, resolves, built, given]

/-- Every record with segments and moderate durations leads to commands that are bounded by
numbers greater than zero, or to a rejection if its container is not known, whatever is answered
about its media. -/
theorem invocations_bounded [Environment] (read : Record.timelineOf files record = .ok t)
    (nonempty : t.segments ≠ []) (moderate : t.Moderate) (measures : p.Measures) (workers : Int)
    (output : Value) (host : Host) :
    ∃ format, EncodeOptions.formatOf t.outputFormat = .ok format ∧
      (containers.lookup format = none ∧
          ((p.invocations workers t output).on host).1 =
            .error (.rejected (.unknownFormat format)) ∨
        ∃ codecs runs, containers.lookup format = some codecs ∧
          ((p.invocations workers t output).on host).1 = .ok runs ∧
          ∀ i ∈ runs, i.Bounded) := by
  have recorded := Record.timelineOf_recorded read
  obtain ⟨resolved, after, resolves, measured⟩ :=
    resolve_measured measures workers recorded moderate nonempty host
  obtain ⟨g, built, ⟨a⟩⟩ := measured.exists_build
  obtain ⟨name, text⟩ := recorded.format
  have given : EncodeOptions.formatOf t.outputFormat = .ok (Text.lower name) := by
    rw [text]
    rfl
  refine ⟨Text.lower name, given, ?_⟩
  rw [invocations_on workers output resolves built given]
  cases known : containers.lookup (Text.lower name) with
  | none =>
      have refused : EncodeOptions.validate { outputFormat := Text.lower name } =
          .error (.rejected (.unknownFormat (Text.lower name))) := by
        simp only [EncodeOptions.validate, EncodeOptions.codecs, known]
        rfl
      refine .inl ⟨rfl, ?_⟩
      rw [Graph.invocations, refused]
      rfl
  | some codecs =>
      have found : EncodeOptions.codecs { outputFormat := Text.lower name } = .ok codecs := by
        simp only [EncodeOptions.codecs, known]
        rfl
      obtain ⟨runs, written, bounded⟩ := Graph.exists_bounded measured a found output nullDevice
      exact .inr ⟨codecs, runs, rfl, written, bounded⟩

def walkRecord : Value := .record
  [("segments", .list ["walk.mp4", .record [("file", "map.png"), ("duration", .int 3)]]),
    ("join", "crossfade")]

section Plain

attribute [local instance] Environment.plain

theorem invocations_bounded_walk :
    ∃ t runs, Record.timelineOf default walkRecord = .ok t ∧ t.segments ≠ [] ∧ t.Moderate ∧
      (Prober.constant "4.5" "audio").Measures ∧
      (((Prober.constant "4.5" "audio").invocations 4 t "out.mp4").on default).1 = .ok runs ∧
      ∀ i ∈ runs, i.Bounded := by
  have given : ((Record.timelineOf default walkRecord).map fun t =>
      (decide t.Moderate, t.segments.isEmpty, t.outputFormat)) = .ok (true, false, "mp4") := by
    decide +kernel
  obtain ⟨t, read, facts⟩ := exists_of_map_ok given
  obtain ⟨moderate, some, format⟩ := by simpa only [Prod.mk.injEq] using facts
  have nonempty : t.segments ≠ [] := by simpa using some
  have measures : (Prober.constant "4.5" "audio").Measures :=
    ⟨fun _ => .pure (by decide +kernel), fun _ => .pure trivial⟩
  obtain ⟨name, taken, written⟩ := invocations_bounded read nonempty (of_decide_eq_true moderate)
    measures 4 "out.mp4" default
  rw [format] at taken
  obtain rfl : "mp4" = name := Except.ok.inj taken
  rcases written with ⟨unknown, -⟩ | ⟨codecs, runs, -, outcome, bounded⟩
  · cases unknown
  · exact ⟨t, runs, read, nonempty, of_decide_eq_true moderate, measures, outcome, bounded⟩

/-- A picture that is shown for ten to the 30th seconds. -/
def endlessRecord : Value := .record
  [("segments", .list [.record [("file", "map.png"), ("duration", .real (Double.round (10 ^ 30)))]])]

/-- A record with a clip and nothing else. -/
def clipRecord : Value := .record [("segments", .list ["walk.mp4"])]

/-- A duration in a record need not be believable, and is then no number that can be written; and
a probe may find a clip so short that it is cut at zero. -/
theorem invocations_unbounded :
    (∃ t, Record.timelineOf default endlessRecord = .ok t ∧ t.segments ≠ [] ∧
      (((Prober.constant "4.5" "").invocations 1 t "out.mp4").on default).1 =
        .error (.decimal .invalidOperation)) ∧
    ∃ t runs, Record.timelineOf default clipRecord = .ok t ∧ t.segments ≠ [] ∧
      (((Prober.constant "0.0000001" "").invocations 1 t "out.mp4").on default).1 = .ok runs ∧
      ∃ i ∈ runs, ∃ v ∈ i.arguments, ∃ parts, v.text?.bind Part.readAll? = some parts ∧
        ∃ part ∈ parts, ("trim", ["0", "0"]) ∈ part.steps := by
  constructor
  · have given : ((Record.timelineOf default endlessRecord).map fun t => (t.segments.isEmpty,
        (((Prober.constant "4.5" "").invocations 1 t "out.mp4").on default).1)) =
        .ok (false, .error (.decimal .invalidOperation)) := by
      decide +kernel
    obtain ⟨t, read, facts⟩ := exists_of_map_ok given
    obtain ⟨some, stops⟩ := Prod.mk.inj facts
    exact ⟨t, read, by simpa using some, stops⟩
  · have given : ((Record.timelineOf default clipRecord).bind fun t =>
        (((Prober.constant "0.0000001" "").invocations 1 t "out.mp4").on default).1.map fun runs =>
          !t.segments.isEmpty && runs.any fun i => i.arguments.any fun v =>
            (v.text?.bind Part.readAll?).any fun parts => parts.any fun part =>
              part.steps.contains ("trim", ["0", "0"])) = .ok true := by
      decide +kernel
    obtain ⟨t, read, given⟩ := exists_of_bind_ok given
    obtain ⟨runs, outcome, facts⟩ := exists_of_map_ok given
    simp only [Bool.and_eq_true, Bool.not_eq_true', List.isEmpty_eq_false_iff, List.any_eq_true,
      Option.any_eq_true, List.contains_iff_mem] at facts
    exact ⟨t, runs, read, facts.1, outcome, facts.2⟩

end Plain

end Prober

end Reel
