import Reel.Proofs.CommandLine.Render
import Reel.Proofs.Project.PassLog

/-!
# The logs of two passes

The commands of two passes are handed a place for their logs. A project takes the logs at that
place away once its commands have ended or were stopped, but for files below directories whose
names begin like the logs. A clip takes nothing away, so whatever its commands write is left.
-/
namespace Reel

open Run

/-- The start of a command that keeps its log at a place. -/
def Spawn.LogsTo (log : String) (spawn : Spawn) : Prop :=
  ∃ (program : Value) (r : Reading) (ws : List String), spawn = .ofWords ws ∧
    (program :: r.words).mapM Value.toText = .ok ws ∧ .option "-passlogfile" (.text log) ∈ r.output

/-- All commands of a row that was written with a place for logs are handed that place. -/
theorem Run.FromFront.logsTo {program : Value} {runs : List Invocation}
    {started : List (List String)} {e : EncodeOptions} {files : Files} {log : String}
    (h : FromFront program runs started) (spares : ∀ i ∈ runs, i.Spares e files)
    (two : e.twoPass = true) (place : e.passLogPrefix = .text log) {spawn : Spawn}
    (mem : spawn ∈ (started.map Spawn.ofWords).reverse) : spawn.LogsTo log := by
  obtain ⟨ws, among, rfl⟩ := List.mem_map.mp (List.mem_reverse.mp mem)
  obtain ⟨r, written, -, logs⟩ := h.exists_reading spares among
  refine ⟨program, r, ws, rfl, written, logs _ ?_⟩
  simp [EncodeOptions.logSettings, two, place, Value.isNull]

namespace CommandLine

variable {a : Arguments} {settings : Settings} {host : Host}

/-- Two passes are asked for by a bitrate, and no place for their logs. -/
theorem Arguments.AsksFor.twoPass {p : Project} (h : a.AsksFor settings p)
    (two : a.bitrate.isNull = false) :
    p.encode.twoPass = true ∧ p.encode.passLogPrefix = .null := by
  obtain ⟨format, encodes⟩ := h.encode
  obtain ⟨given, -, encodes⟩ := exists_of_bind_ok encodes
  rw [← Except.ok.inj encodes]
  exact ⟨by simp [two], rfl⟩

/-- The files that two passes leave: for a project none at the place of the logs, for a clip all
that was there and all that its commands made. -/
def Leaves (input : Input) (host : Host) (log : String) (files : Files) : Prop :=
  match input with
  | .project _ => '\x00' ∉ log.toList → ∀ rest : String, '/' ∉ rest.toList →
      files.isFile (log ++ rest) = false
  | .media _ => ∃ output k, files = (host.commands.take k).foldl CommandScript.leave
      ((Project.makeDirectoryOf output).on host).2.files

/-- Two passes over a project leave no file in the directory of the logs whose path begins with
the place that they were handed, however the commands end and whatever they write. Two passes over
a clip take nothing away. A place that holds the zero character is handed to no program. -/
theorem logs_left [Environment] (words : List String) {host : Host} (silent : host.listener = .none)
    {input : Input} {a : Arguments} (read : Arguments.read words = .ok (input, a))
    (two : a.bitrate.isNull = false) (kept : a.keepTemp = false) (plain : a.custom = .null) :
    ∃ started, ((run words).on host).2.spawned = started ++ host.spawned ∧ ∀ spawn ∈ started,
      Asked input a { host with quiet := a.quiet } spawn ∨
      ∃ log, spawn.LogsTo log ∧ Leaves input host log ((run words).on host).2.files := by
  cases run_rendered read plain silent with
  | untouched _ spawned => exact ⟨[], spawned, by simp⟩
  | @project file settings p asked started isProject loaded asks ran =>
      subst isProject
      refine ⟨(started.map Spawn.ofWords).reverse ++ asked, ?_, ?_⟩
      · rw [ran.spawned, List.append_assoc]
      · rw [List.forall_mem_append]
        constructor
        · intro spawn mem
          rcases ran.started with rfl | ⟨c, compiles, front, files, cleaned⟩
          · cases mem
          · obtain ⟨passes, unplaced⟩ := asks.twoPass two
            obtain ⟨log, here, passes, place⟩ := compiles.exists_log passes unplaced
            have spares := compiles.spares (asks.goesByPath (namesOutput_of_read read))
            refine .inr ⟨log, front.logsTo spares passes place mem, fun sound rest clean => ?_⟩
            rw [cleaned]
            exact Project.withoutLogs_isFile (asks.keepTemp.trans kept) place sound
              (Project.passLogPlace_named here) clean
        · intro spawn mem
          refine .inl ⟨file, settings, rfl, loaded, ?_⟩
          rw [← asks.probeProgram]
          exact ran.asked spawn mem
  | @clip path settings job started isMedia loaded ran =>
      subst isMedia
      refine ⟨(started.map Spawn.ofWords).reverse, ran.spawned, fun spawn mem => ?_⟩
      obtain ⟨runs, written, front⟩ := ran.runs
      have passes : job.encode.twoPass = true := by rw [ran.twoPass, two]; rfl
      obtain ⟨log, -, place⟩ := ran.log passes
      refine .inr ⟨log,
        front.logsTo (ClipJob.invocations_spare written ran.output) passes place mem, ?_⟩
      rcases ran.files with rfl | ⟨k, -, left⟩
      · cases mem
      · refine ⟨job.output, k, left.trans ?_⟩
        rw [(Project.makeDirectoryOf_onFiles job.output).files_eq
          (show ({ host with quiet := a.quiet } : Host).files = host.files from rfl)]

section Plain

attribute [local instance] Environment.plain

/-- A project whose first pass writes its log. -/
def loggingTrip : Host where
  files := ⟨[(["trip.yml"], .file (Text.encode "segments: [walk.mp4]")),
    (["walk.mp4"], .file [])]⟩
  commands := [{ creates := [".trip-passlog-0.log"] }]

/-- The passes over the project were started, and the log of the first one is gone. -/
theorem logs_left_trip :
    ((run ["-y", "trip.yml", "-o", "trip.mp4", "--two-pass", "2M"]).on
      loggingTrip).2.files = loggingTrip.files ∧
    ∃ input a, Arguments.read ["-y", "trip.yml", "-o", "trip.mp4", "--two-pass", "2M"] =
        .ok (input, a) ∧
      ∃ started, ((run ["-y", "trip.yml", "-o", "trip.mp4", "--two-pass", "2M"]).on
          loggingTrip).2.spawned = started ++ loggingTrip.spawned ∧ ∀ spawn ∈ started,
        Asked input a { loggingTrip with quiet := a.quiet } spawn ∨
        ∃ log, spawn.LogsTo log ∧ Leaves input loggingTrip log
          ((run ["-y", "trip.yml", "-o", "trip.mp4", "--two-pass", "2M"]).on
            loggingTrip).2.files := by
  have read : Arguments.read ["-y", "trip.yml", "-o", "trip.mp4", "--two-pass", "2M"] =
      .ok (.project "trip.yml",
        { input := some (.project "trip.yml"), output := "trip.mp4", bitrate := "2M" }) := by
    decide +kernel
  exact ⟨by decide +kernel, _, _, read, logs_left _ rfl read rfl rfl rfl⟩

/-- A clip whose first pass writes its log. -/
def loggingClip : Host where
  files := ⟨[(["walk.mp4"], .file [])]⟩
  commands := [{ creates := [".clip-passlog-0.log"] }]

/-- The first pass over a clip is handed a place for its log, and the log stays there. -/
theorem clip_keeps_log :
    Spawn.ofWords ["ffmpeg", "-y", "-hide_banner", "-i", "walk.mp4", "-b:v", "2M", "-c:a", "aac",
        "-c:v", "libx264", "-pass", "1", "-passlogfile", ".clip-passlog", "-an", "-f", "null",
        "/dev/null"] ∈
      ((run ["-i", "walk.mp4", "-o", "short.mp4", "--two-pass", "2M"]).on loggingClip).2.spawned ∧
    ((run ["-i", "walk.mp4", "-o", "short.mp4", "--two-pass", "2M"]).on
      loggingClip).2.files.isFile (".clip-passlog" ++ "-0.log") = true := by
  decide +kernel

end Plain

end CommandLine

end Reel
