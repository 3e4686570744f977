import Reel.Proofs.Pipeline.Preserved
import Reel.Proofs.Project.PassLog
import Reel.Proofs.Project.Plan
import Reel.Proofs.Timeline.Pool

/-!
# What a cleanup takes away

Behind its passes a project takes away the regular files whose paths begin with the place of the
logs and go on without a slash. Whatever names the project and the directories have, and however
the passes ended, these are gone, and every directory and every other file is left as it was.
-/
namespace Reel

namespace Files

variable {files : Files} {path : String} {place : Place}

/-- A file is there, to which a path leads that begins with the place of the logs and goes on
without a slash. -/
structure IsLog (files : Files) (log path : String) : Prop where
  file : files.isFile path = true
  named : ∃ rest : String, '/' ∉ rest.toList ∧ files.locate (log ++ rest) = files.locate path

/-- A file whose path goes on behind the place of the logs without a slash and not with a dot. -/
structure IsOpenLog (files : Files) (log path : String) : Prop where
  file : files.isFile path = true
  named : ∃ rest : String, '/' ∉ rest.toList ∧ rest.toList.head? ≠ some '.' ∧
    files.locate (log ++ rest) = files.locate path

/-- The place of the logs stands for this file. If the place ends with a slash, or is empty, it
stands for no name that begins with a dot. -/
structure IsTaken (files : Files) (log path : String) : Prop where
  file : files.isFile path = true
  named : ∃ rest : String, '/' ∉ rest.toList ∧
    (Path.basename log = "" → rest.toList.head? ≠ some '.') ∧
    files.locate (log ++ rest) = files.locate path

theorem isTaken_iff_isLog {log : String} (named : Path.basename log ≠ "") :
    files.IsTaken log path ↔ files.IsLog log path := by
  constructor
  · rintro ⟨file, rest, clean, -, same⟩
    exact ⟨file, rest, clean, same⟩
  · rintro ⟨file, rest, clean, same⟩
    exact ⟨file, rest, clean, fun unnamed => absurd unnamed named, same⟩

theorem isTaken_iff_isOpenLog {log : String} (unnamed : Path.basename log = "") :
    files.IsTaken log path ↔ files.IsOpenLog log path := by
  constructor
  · rintro ⟨file, rest, clean, shown, same⟩
    exact ⟨file, rest, clean, shown unnamed, same⟩
  · rintro ⟨file, rest, clean, shown, same⟩
    exact ⟨file, rest, clean, fun _ => shown, same⟩

theorem node?_of_locate (h : files.locate path = .ok place) :
    files.node? path = files.at? place := by
  rw [node?, place?, h]
  rfl

theorem node?_of_error {fault : FileFault} (h : files.locate path = .error fault) :
    files.node? path = none := by
  rw [node?, place?, h]
  rfl

theorem isFile_of_locate (h : files.locate path = .ok place) {stored : Stored}
    (there : files.at? place = some stored) (file : stored ≠ .directory) :
    files.isFile path = true := by
  rw [isFile, node?_of_locate h, there]
  cases stored with
  | directory => exact absurd rfl file
  | file content => rfl
  | blank size => rfl

end Files

namespace PassLog

variable {files : Files} {log path : String} {place : Place}

theorem clear_directory (distinct : files.Distinct) (h : files.at? place = some .directory) :
    (clear files log).at? place = some .directory := by
  cases listed : Files.isBase place with
  | true => exact Files.at?_base _ listed
  | false =>
      have other : place ∉ places files log := by
        intro mem
        obtain ⟨_, stored, -, -, entry, file, -⟩ := mem_places_iff.mp mem
        rw [Files.at?_of_mem distinct listed entry] at h
        exact file (Option.some.inj h)
      rw [clear, Files.at?_foldl_remove files _ listed, if_neg other, h]

/-- What is taken away and can be reached is one of the logs. -/
theorem isTaken_of_mem_places (distinct : files.Distinct) (leads : files.locate path = .ok place)
    (listed : Files.isBase place = false) (mem : place ∈ places files log) :
    files.IsTaken log path := by
  obtain ⟨directory, stored, opens, above, entry, file, named, shown⟩ := mem_places_iff.mp mem
  have there := Files.at?_of_mem distinct listed entry
  refine ⟨Files.isFile_of_locate leads there file, ?_⟩
  cases Files.leads_of_locate leads with
  | base high => simp [high] at listed
  | @inside directory' name leads' there' proper =>
      obtain rfl : directory' = directory := (Files.parent_of_listed listed).symm.trans above
      rw [List.getLastD_concat] at named shown
      obtain ⟨rest, whole⟩ := named
      obtain rfl : Path.basename log ++ String.ofList rest = name := by
        rw [← String.toList_inj, String.toList_append, String.toList_ofList, whole]
      have clean : '/' ∉ (String.ofList rest).toList := fun slash =>
        proper.clean (by rw [String.toList_append]; exact List.mem_append_right _ slash)
      have named := Path.basename_append log clean
      refine ⟨String.ofList rest, clean, fun nothing => by simpa [nothing] using shown nothing, ?_⟩
      rw [← Path.dirname_append log clean] at opens
      rw [leads, Files.locate_name opens there' (named ▸ proper.plain), named]

/-- The files behind a cleanup: what it is about is gone, and all else is as it was. -/
structure Cleared (logs : String → Prop) (files after : Files) : Prop where
  gone : ∀ path, logs path → after.node? path = none
  kept : ∀ path, ¬logs path → after.node? path = files.node? path

theorem clear_cleared (distinct : files.Distinct) :
    Cleared (files.IsTaken log) files (clear files log) := by
  have moves {path : String} {place : Place} (leads : files.locate path = .ok place) :
      (clear files log).locate path = .ok place :=
    Files.locate_of_directories (fun _ => clear_directory distinct) leads
  constructor
  · rintro path ⟨isFile, rest, clean, shown, same⟩
    obtain ⟨place, stored, leads, there, file⟩ := Files.exists_of_isFile isFile
    have mem := mem_places_of_locate clean shown (same.trans leads) there file
    obtain ⟨listed, -⟩ := Files.mem_entries there file
    rw [Files.node?_of_locate (moves leads), clear, Files.at?_foldl_remove files _ listed,
      if_pos mem]
  · intro path other
    cases leads : files.locate path with
    | error fault =>
        cases left : (clear files log).locate path with
        | error fault => rw [Files.node?_of_error leads, Files.node?_of_error left]
        | ok place =>
            rw [(clear_below files log).locate left] at leads
            cases leads
    | ok place =>
        rw [Files.node?_of_locate leads, Files.node?_of_locate (moves leads)]
        cases listed : Files.isBase place with
        | true => rw [Files.at?_base _ listed, Files.at?_base _ listed]
        | false =>
            have stays : place ∉ places files log := fun mem =>
              other (isTaken_of_mem_places distinct leads listed mem)
            rw [clear, Files.at?_foldl_remove files _ listed, if_neg stays]

end PassLog

open Run

namespace Project

variable {p q : Project} {host start : Host} {given : Option (List Invocation)}
  {runs : List Invocation}

/-- A run comes to its passes: as a project with its notes, with the commands of the passes, on a
machine on which the directory of the output is there. -/
inductive Comes (p : Project) (host : Host) :
    Option (List Invocation) → Project → List Invocation → Host → Prop
  | compiled {c : Compilation} {ready start : Host} : p.compilation.on host = (.ok c, ready) →
      (makeDirectoryOf c.output).on ready = (.ok (), start) →
      Comes p host none (p.compiledTo c) c.invocations start
  | given {runs : List Invocation} {output : Value} {start : Host} : p.outputPath = .ok output →
      (makeDirectoryOf output).on host = (.ok (), start) → Comes p host (some runs) p runs start

theorem exists_comes
    (h : ((p.compilation >>= fun c => makeDirectoryOf c.output).on host).1.isOk = true) :
    ∃ q runs start, p.Comes host none q runs start := by
  rw [on_bind] at h
  cases compiles : p.compilation.on host with
  | mk outcome ready =>
      rw [compiles] at h
      cases outcome with
      | error e => cases h
      | ok c =>
          cases made : (makeDirectoryOf c.output).on ready with
          | mk outcome start =>
              dsimp only at h
              rw [made] at h
              cases outcome with
              | error e => cases h
              | ok _ => exact ⟨_, _, _, .compiled compiles made⟩

theorem renderTo_files {output : Value} {passes : Run PipelineResult}
    (made : (makeDirectoryOf output).on host = (.ok (), start)) :
    ((renderTo output passes).on host).2.files = (passes.on start).2.files := by
  rw [renderTo, on_bind, made]
  dsimp only
  rw [on_bind]
  cases passes.on start with
  | mk outcome after =>
      cases outcome with
      | error e => rfl
      | ok result =>
          have told : Preserves (· = after.files) (do
              Run.ofExcept result.requireOk
              Run.echo ("mpv " ++ (← Run.ofExcept output.toText))
              return result) := by
            refine (Preserves.ofExcept _).bind fun _ => (Preserves.ofExcept _).bind fun path => ?_
            refine Preserves.bind (.of_same fun host => ?_) fun _ => .pure result
            obtain ⟨printed, echoed⟩ := echo_on ("mpv " ++ path) host
            rw [echoed]
          exact told after rfl

/-- A run that comes to its passes leaves the files that they leave, without the logs. -/
theorem Comes.files (h : p.Comes host given q runs start) (live : p.dryRun = false) :
    ((run given).on p host).2.2.files =
      q.withoutLogs ((Run.passes q.encoderProgram runs).on start).2.files := by
  have left := congrArg Host.files (q.runPasses_cleans runs start).1
  cases h with
  | compiled compiles made =>
      rw [run_on_live live compiles (compiles_of_on compiles).output]
      exact (renderTo_files made).trans left
  | @given runs output start path made =>
      have ran := congrArg (fun r => r.2.files) (Work.runOn_on (run (some runs)) p host)
      rw [runOn_run_some, if_neg (by simp [live]), path, on_bind, on_ofExcept] at ran
      dsimp only at ran
      rw [on_bind] at ran
      refine ran.symm.trans (Eq.trans ?_ ((renderTo_files made).trans left))
      cases (renderTo output (p.runPasses runs)).on host with
      | mk outcome after => cases outcome <;> rfl

/-- A cleanup that is asked for and has a place to look at. -/
theorem withoutLogs_cleared {files : Files} {log : String} (distinct : files.Distinct)
    (kept : p.keepTemp = false) (place : p.encode.passLogPrefix = .text log)
    (sound : '\x00' ∉ (Path.dirname log).toList) :
    PassLog.Cleared (files.IsTaken log) files (p.withoutLogs files) := by
  rw [withoutLogs, if_neg (by simp [kept]), place, PassLog.clearAt_text sound]
  exact PassLog.clear_cleared distinct

theorem withoutLogs_kept {files : Files}
    (h : p.keepTemp = true ∨ p.encode.passLogPrefix = .null) : p.withoutLogs files = files := by
  unfold withoutLogs
  split
  · rfl
  · next clears =>
      rw [h.resolve_left clears]
      rfl

theorem Comes.distinct (h : p.Comes host given q runs start) (distinct : host.files.Distinct) :
    ((Run.passes q.encoderProgram runs).on start).2.files.Distinct := by
  refine passes_preserves CommandScript.leave_distinct _ _ _ ?_
  cases h with
  | @compiled c ready start compiles made =>
      have same : ready.files = host.files := by
        obtain ⟨spawned, ends⟩ := p.compilation_repeats.exists_spawned host
        rw [compiles] at ends
        exact (congrArg Host.files ends :)
      have left := makeDirectoryOf_distinct c.output ready (same ▸ distinct)
      rwa [made] at left
  | @given _ output _ path made =>
      have left := makeDirectoryOf_distinct output host distinct
      rwa [made] at left

/-- A project with two passes that names no place for their logs has one when it comes to them. -/
theorem Comes.exists_log (h : p.Comes host none q runs start) (two : p.encode.twoPass = true)
    (unplaced : p.encode.passLogPrefix = .null) : ∃ output log, p.outputPath = .ok output ∧
      p.passLogPlace output = .ok log ∧ q.encode.passLogPrefix = .text log := by
  cases h with
  | compiled compiles made =>
      have compiled := compiles_of_on compiles
      obtain ⟨log, placed, -, named⟩ := compiled.exists_log two unplaced
      exact ⟨_, log, compiled.output, placed, named⟩

end Project

open Project

/-- What is left by a run that comes to its passes, with commands of its own or given ones, is what
the passes leave, however they end: whether they succeed, one of them fails, or a start stops the
program. If the logs are not to be kept, the files whose paths begin with the place of the logs and
go on without a slash are gone from it, and no directory and no other file. The place that a
project with two passes is given has a name in its directory; one that has none, as only a caller
can set it, stands for all names that do not begin with a dot. If the logs are to be kept, or have
no place, nothing is taken away. -/
theorem run_clears_logs {p q : Project} {host start : Host} {given : Option (List Invocation)}
    {runs : List Invocation} (live : p.dryRun = false) (distinct : host.files.Distinct)
    (comes : p.Comes host given q runs start) :
    let left := ((Run.passes q.encoderProgram runs).on start).2.files
    let after := ((Project.run given).on p host).2.2.files
    (p.keepTemp = true ∨ q.encode.passLogPrefix = .null → after = left) ∧
    (p.keepTemp = false → ∀ log, q.encode.passLogPrefix = .text log →
      '\x00' ∉ (Path.dirname log).toList →
        (Path.basename log ≠ "" → PassLog.Cleared (left.IsLog log) left after) ∧
        (Path.basename log = "" → PassLog.Cleared (left.IsOpenLog log) left after)) ∧
    (given = none → p.encode.twoPass = true → p.encode.passLogPrefix = .null →
      ∃ output log, p.outputPath = .ok output ∧ p.passLogPlace output = .ok log ∧
        q.encode.passLogPrefix = .text log ∧ Path.basename log ≠ "") := by
  intro left after
  have same : q.keepTemp = p.keepTemp := by cases comes <;> rfl
  have cleaned : after = q.withoutLogs left := comes.files live
  refine ⟨fun kept => ?_, fun kept log place sound => ?_, fun none two unplaced => ?_⟩
  · rw [← same] at kept
    exact cleaned.trans (withoutLogs_kept kept)
  · have cleared := withoutLogs_cleared (comes.distinct distinct) (same.trans kept) place sound
    rw [← cleaned] at cleared
    refine ⟨fun named => ?_, fun unnamed => ?_⟩
    · have logs : left.IsTaken log = left.IsLog log :=
        funext fun _ => propext (Files.isTaken_iff_isLog named)
      exact logs ▸ cleared
    · have logs : left.IsTaken log = left.IsOpenLog log :=
        funext fun _ => propext (Files.isTaken_iff_isOpenLog unnamed)
      exact logs ▸ cleared
  · subst none
    obtain ⟨output, log, path, placed, place⟩ := comes.exists_log two unplaced
    refine ⟨output, log, path, placed, place, fun nothing => ?_⟩
    have long := passLogPlace_named placed
    rw [nothing] at long
    exact absurd long (by decide)

def walkTwice : Project where
  timeline := { Timeline.plain [{ path := "walk.mp4", duration := .finite 2 }] .concat true
      (.round 1) with name := "trip [1]" }
  settings := { cacheDir := "logs [x]" }
  encode := { twoPass := true, videoBitrate := "2M" }
  outputOverride := "trip.mp4"
  probeProgram := "ffprobe"
  probeWorkers := 1
  encoderProgram := "ffmpeg"

/-- A log of an older run, and what has a name like one: a file that the place would stand for as a
pattern, a directory and a file in it, and a file of another directory. The first pass writes its
log, and the second one may not be started. -/
def crowded : Host :=
  { files := ⟨[(["walk.mp4"], .file []), (["logs [x]"], .directory),
      (["logs [x]", ".trip [1]-passlog-7.log"], .file []),
      (["logs [x]", ".trip 1-passlog-0.log"], .file []),
      (["logs [x]", ".trip [1]-passlog.d"], .directory),
      (["logs [x]", ".trip [1]-passlog.d", "0.log"], .file []),
      ([".trip [1]-passlog-0.log"], .file [])]⟩
    probes := clipProbes
    commands := [{ creates := ["logs [x]/.trip [1]-passlog-0.log"] }, { fault := some .denied }]
    quiet := true }

theorem run_clears_logs_crowded :
    walkTwice.dryRun = false ∧ crowded.files.Distinct ∧
    ∃ q runs start, walkTwice.Comes crowded none q runs start ∧
      q.encode.passLogPrefix = .text "logs [x]/.trip [1]-passlog" ∧
      (let left := ((Run.passes q.encoderProgram runs).on start).2.files
      PassLog.Cleared (left.IsLog "logs [x]/.trip [1]-passlog") left
        ((Project.run none).on walkTwice crowded).2.2.files) ∧
      ((Project.run none).on walkTwice crowded).2.2.files.entries.map Prod.fst =
        [["walk.mp4"], ["logs [x]"], ["logs [x]", ".trip 1-passlog-0.log"],
          ["logs [x]", ".trip [1]-passlog.d"], ["logs [x]", ".trip [1]-passlog.d", "0.log"],
          [".trip [1]-passlog-0.log"]] := by
  have distinct : crowded.files.Distinct := by
    unfold Files.Distinct
    decide +kernel
  have compiles : ((do makeDirectoryOf (← walkTwice.compilation).output : Run Unit).on
      crowded).1.isOk = true := by decide +kernel
  obtain ⟨q, runs, start, comes⟩ := exists_comes compiles
  obtain ⟨-, clears, placed⟩ := run_clears_logs rfl distinct comes
  obtain ⟨output, log, path, here, place, named⟩ := placed rfl rfl rfl
  obtain rfl : .text "trip.mp4" = output := Except.ok.inj path
  obtain rfl : "logs [x]/.trip [1]-passlog" = log := Except.ok.inj (Eq.trans rfl here)
  exact ⟨rfl, distinct, q, runs, start, comes, place,
    (clears rfl _ place (by decide +kernel)).1 named, by decide +kernel⟩

end Reel
