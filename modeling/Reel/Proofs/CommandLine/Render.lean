import Reel.Proofs.Clip.Spared
import Reel.Proofs.CommandLine.Effects
import Reel.Proofs.CommandLine.Reading
import Reel.Proofs.Project.Spared

/-!
# What the renderer starts

Reading the settings, the project or the check of a clip only looks at the machine, so what is
checked are the files that were there when the program started. Behind that a project is run with
what the arguments say about it, and a clip's commands are started one after the other, with
nothing taken away behind them.
-/
namespace Reel

open Run

namespace CommandLine

variable {a : Arguments} {settings : Settings} {host after : Host}

/-- The project is one that the arguments ask for. -/
structure Arguments.AsksFor (a : Arguments) (settings : Settings) (p : Project) : Prop where
  output : p.outputOverride = a.output
  keepTemp : p.keepTemp = a.keepTemp
  encode : ∃ format, a.encode format = .ok p.encode
  probeProgram : p.probeProgram = settings.ffprobe

theorem Arguments.AsksFor.goesByPath {p : Project} (h : a.AsksFor settings p)
    (names : a.NamesOutput) : p.GoesByPath := by
  rw [Project.GoesByPath, h.output]
  exact names

/-- A project of the arguments was run, if the machine was changed at all. -/
def RanProject (a : Arguments) (settings : Settings) (host after : Host) : Prop :=
  host.Touched .none after ∨ ∃ p, a.AsksFor settings p ∧
    ∃ asked started, p.Ran host after asked started

theorem RanProject.from_looked {between : Host} (looked : host.Touched .none between)
    (h : RanProject a settings between after) : RanProject a settings host after := by
  rcases h with touched | ⟨p, asks, asked, started, ran⟩
  · exact .inl (looked.trans touched)
  · obtain ⟨files, spawned⟩ := looked.untouched
    exact .inr ⟨p, asks, asked, started, spawned ▸ ran.spawned, ran.asked, files ▸ ran.started⟩

/-- A machine on which a clip of the arguments was made. Its commands were started from the front,
and of the files only the directory of the output and what the commands created is new. -/
structure RanClip (a : Arguments) (settings : Settings) (host after : Host) (job : ClipJob)
    (started : List (List String)) : Prop where
  output : job.output = .list [] ∨ ∃ path, job.output = .text path
  twoPass : job.encode.twoPass = !a.bitrate.isNull
  log : job.encode.twoPass = true → ∃ log, clipLogPlace settings job.output = .ok log ∧
    job.encode.passLogPrefix = .text log
  runs : ∃ runs, job.invocations host.files = .ok runs ∧
    FromFront settings.ffmpeg runs started
  spawned : after.spawned = (started.map Spawn.ofWords).reverse ++ host.spawned
  files : started = [] ∨ ∃ k ≤ started.length, after.files =
    (host.commands.take k).foldl CommandScript.leave
      ((Project.makeDirectoryOf job.output).on host).2.files

theorem RanClip.from_looked {between : Host} {job : ClipJob} {started : List (List String)}
    (looked : host.Touched .none between) (h : RanClip a settings between after job started) :
    RanClip a settings host after job started := by
  obtain ⟨files, spawned⟩ := looked.untouched
  obtain ⟨-, commands⟩ := looked.scripts id
  have made := (Project.makeDirectoryOf_onFiles job.output).files_eq files
  refine ⟨h.output, h.twoPass, h.log, files ▸ h.runs, spawned ▸ h.spawned, ?_⟩
  rw [← made, ← commands]
  exact h.files

theorem clipOutput_names (names : a.NamesOutput) {output : Value}
    (h : (clipOutput a settings).on host = (.ok output, after)) :
    output = .list [] ∨ ∃ path, output = .text path := by
  unfold clipOutput at h
  split at h
  · obtain ⟨directory, _, -, h⟩ := Run.exists_of_bind_ok h
    obtain ⟨files, _, -, h⟩ := Run.exists_of_bind_ok h
    obtain ⟨path, _, -, h⟩ := Run.exists_of_bind_ok h
    exact .inr ⟨path, (Except.ok.inj (congrArg Prod.fst h)).symm⟩
  · next other =>
      obtain rfl : a.output = output := Except.ok.inj (congrArg Prod.fst h)
      exact names.resolve_left other

/-- The commands of a clip are those of a job that the arguments describe. -/
theorem clipInvocations_ok (plain : a.custom = .null) {input output : Value}
    {runs : List Invocation}
    (h : (clipInvocations a settings input output).on host = (.ok runs, after)) :
    ∃ job : ClipJob, job.output = output ∧ job.invocations host.files = .ok runs ∧
      job.encode.twoPass = (!a.bitrate.isNull) ∧
      (job.encode.twoPass = true → ∃ log, clipLogPlace settings output = .ok log ∧
        job.encode.passLogPrefix = .text log) := by
  obtain ⟨files, between, looked, h⟩ := Run.exists_of_bind_ok h
  obtain rfl : host.files = files := Except.ok.inj (congrArg Prod.fst looked)
  rw [plain] at h
  obtain ⟨encode, between, encodes, h⟩ := Run.exists_of_bind_ok h
  obtain ⟨encodes, -⟩ := Run.exists_of_ofExcept_ok encodes
  obtain ⟨format, -, encodes⟩ := Reel.exists_of_bind_ok encodes
  have two : encode.twoPass = !a.bitrate.isNull := by rw [← Except.ok.inj encodes]
  dsimp only at h
  split at h
  · obtain ⟨log, between, placed, h⟩ := Run.exists_of_bind_ok h
    obtain ⟨placed, -⟩ := Run.exists_of_ofExcept_ok placed
    rw [pure_bind] at h
    obtain ⟨written, -⟩ := Run.exists_of_ofExcept_ok h
    exact ⟨_, rfl, written, two, fun _ => ⟨log, placed, rfl⟩⟩
  · next one =>
      obtain ⟨written, -⟩ := Run.exists_of_ofExcept_ok h
      exact ⟨_, rfl, written, two, fun passes => (one passes).elim⟩

/-- A clip whose commands are known is made by starting them from the front. -/
theorem ranClip_of_renderTo {job : ClipJob} {runs : List Invocation}
    (goes : job.output = .list [] ∨ ∃ path, job.output = .text path)
    (twoPass : job.encode.twoPass = !a.bitrate.isNull)
    (log : job.encode.twoPass = true → ∃ log, clipLogPlace settings job.output = .ok log ∧
      job.encode.passLogPrefix = .text log)
    (written : job.invocations host.files = .ok runs) :
    ∃ started, RanClip a settings host
      ((Project.renderTo job.output (passes settings.ffmpeg runs)).on host).2 job started := by
  rcases Project.renderTo_on job.output (passes settings.ffmpeg runs) host with
    ⟨e, files, -, stopped⟩ | ⟨files, made, spawned, left, -⟩
  · rw [stopped]
    exact ⟨[], goes, twoPass, log, ⟨runs, written, [], List.nil_prefix, .nil⟩, rfl, .inl rfl⟩
  · have plain : ∀ i ∈ runs, i.shellCommand = .null :=
      fun i hi => (ClipJob.invocations_spare written goes i hi).1
    obtain ⟨started, ran, ends⟩ := passes_starts settings.ffmpeg runs plain { host with files }
    have front : FromFront settings.ffmpeg runs started := by
      split at ends
      · exact ends
      · exact ends
    obtain ⟨k, hk, -, changed⟩ := ran.files
    refine ⟨started, goes, twoPass, log, ⟨runs, written, front⟩, spawned.trans ran.spawned,
      .inr ⟨k, hk, ?_⟩⟩
    rw [left, changed, made]

theorem renderClip_ran (a : Arguments) (names : a.NamesOutput) (plain : a.custom = .null)
    (settings : Settings) (input : Value) (silent : host.listener = .none) :
    host.Touched .none ((renderClip a settings input).on host).2 ∨ ∃ job started,
      RanClip a settings host ((renderClip a settings input).on host).2 job started := by
  obtain ⟨looked, -⟩ := clipOutput_looks a settings host silent
  unfold renderClip
  rw [on_bind]
  cases goes : (clipOutput a settings).on host with
  | mk outcome between =>
      rw [goes] at looked
      cases outcome with
      | error e => exact .inl looked
      | ok output =>
          have quiet : between.listener = .none := looked.listener.trans silent
          obtain ⟨looked', -⟩ := clipInvocations_looks a settings input output between quiet
          dsimp only
          rw [on_bind]
          cases ends : (clipInvocations a settings input output).on between with
          | mk outcome last =>
              rw [ends] at looked'
              have both : host.Touched .none last := looked.trans looked'
              have still : last.listener = .none := both.listener.trans silent
              cases outcome with
              | error e => exact .inl both
              | ok runs =>
                  dsimp only
                  split
                  · have shows : Looks (runs.forM fun i => do
                        printLine (← Run.ofExcept (i.commandLine settings.ffmpeg))) fun _ => True :=
                      Does.forM (fun i => (Looks.ofExcept _).bind fun _ _ => printLine_does _) runs
                    exact .inl (both.trans (shows last still).1)
                  · obtain ⟨job, rfl, written, twoPass, log⟩ := clipInvocations_ok plain ends
                    rw [← looked'.untouched.1] at written
                    obtain ⟨started, ran⟩ := ranClip_of_renderTo (clipOutput_names names goes)
                      twoPass log written
                    rw [on_bind_pure]
                    exact .inr ⟨job, started, ran.from_looked both⟩

variable [Environment]

theorem renderProject_ran (a : Arguments) (names : a.NamesOutput) (settings : Settings)
    (file : Value) (silent : host.listener = .none) :
    RanProject a settings host ((renderProject a settings file).on host).2 := by
  have loads := Project.load_looks file settings none
  unfold renderProject
  rw [on_bind]
  obtain ⟨looked, loaded⟩ := loads host silent
  cases ends : (Project.load file settings none).on host with
  | mk outcome between =>
      rw [ends] at looked loaded
      cases outcome with
      | error e => exact .inl looked
      | ok loaded' =>
          have program := loaded.of_ok rfl
          dsimp only
          rw [on_bind, on_ofExcept]
          cases encodes : a.encode (if a.format.isNull then loaded'.timeline.outputFormat
              else a.format) with
          | error e => exact .inl looked
          | ok encode =>
              let p : Project := { loaded' with
                outputOverride := a.output, dryRun := a.dryRun, keepTemp := a.keepTemp, encode }
              have asks : a.AsksFor settings p := ⟨rfl, rfl, ⟨_, encodes⟩, program⟩
              have silent := looked.listener.trans silent
              refine RanProject.from_looked looked (.inr ⟨p, asks, ?_⟩)
              dsimp only
              split
              · have shows := (Project.plan_careful p).does.bind fun plan _ =>
                  (Does.ofExcept ((Yields.any (Foreign.ofAnswer
                    (Environment.documentText plan))).mono fun _ _ => trivial)).bind
                      fun line _ => printLine_does line
                obtain ⟨asked, ran⟩ := Project.Ran.of_asked (shows between silent).1
                exact ⟨asked, [], ran⟩
              · obtain ⟨asked, started, ran⟩ := p.run_ran (asks.goesByPath names) silent
                rw [on_bind_pure, Work.runOn_on]
                exact ⟨asked, started, ran⟩

/-- How the renderer leaves a machine: with nothing changed or started, or with the project or the
clip of the arguments run. -/
inductive Rendered (input : Input) (a : Arguments) (host after : Host) : Prop
  | untouched : after.files = host.files → after.spawned = host.spawned →
      Rendered input a host after
  | project {file : Value} {settings : Settings} {p : Project} {asked : List Spawn}
      {started : List (List String)} : input = .project file →
      (a.loadSettings.on host).1 = .ok settings → a.AsksFor settings p →
      p.Ran host after asked started → Rendered input a host after
  | clip {path : Value} {settings : Settings} {job : ClipJob} {started : List (List String)} :
      input = .media path → (a.loadSettings.on host).1 = .ok settings →
      RanClip a settings host after job started → Rendered input a host after

theorem Rendered.of_touched {input : Input} (h : host.Touched .none after) :
    Rendered input a host after :=
  .untouched h.untouched.1 h.untouched.2

theorem Rendered.congr {input : Input} {last : Host} (h : Rendered input a host after)
    (files : last.files = after.files) (spawned : last.spawned = after.spawned) :
    Rendered input a host last := by
  cases h with
  | untouched files' spawned' => exact .untouched (files.trans files') (spawned.trans spawned')
  | project isProject loaded asks ran =>
      refine .project isProject loaded asks ⟨spawned.trans ran.spawned, ran.asked, ?_⟩
      rw [files]
      exact ran.started
  | clip isMedia loaded ran =>
      refine .clip isMedia loaded { ran with spawned := spawned.trans ran.spawned, files := ?_ }
      rw [files]
      exact ran.files

theorem render_rendered (input : Input) (a : Arguments) (names : a.NamesOutput)
    (plain : a.custom = .null) (silent : host.listener = .none) :
    Rendered input a host ((render input a).on host).2 := by
  have looks : Looks a.loadSettings fun _ => True := Settings.load_looks _ _
  obtain ⟨looked, -⟩ := looks host silent
  have steps : render input a = a.loadSettings >>= _ := rfl
  rw [steps, on_bind]
  cases loaded : a.loadSettings.on host with
  | mk outcome between =>
      rw [loaded] at looked
      have still : between.listener = .none := looked.listener.trans silent
      cases outcome with
      | error e => exact .of_touched looked
      | ok settings =>
          have given : (a.loadSettings.on host).1 = .ok settings := congrArg Prod.fst loaded
          cases input with
          | project file =>
              rcases (renderProject_ran a names settings file still).from_looked looked with
                touched | ⟨p, asks, asked, started, ran⟩
              · exact .of_touched touched
              · exact .project rfl given asks ran
          | media path =>
              rcases renderClip_ran a names plain settings path still with
                touched | ⟨job, started, ran⟩
              · exact .of_touched (looked.trans touched)
              · exact .clip rfl given (ran.from_looked looked)

/-- Running the program with words that can be read leaves the machine as rendering does. -/
theorem run_rendered {words : List String} {input : Input}
    (read : Arguments.read words = .ok (input, a)) (plain : a.custom = .null)
    (silent : host.listener = .none) :
    Rendered input a { host with quiet := a.quiet } ((run words).on host).2 := by
  have still : ({ host with quiet := a.quiet } : Host).listener = .none := silent
  obtain ⟨files, spawned⟩ := run_files read host
  exact (render_rendered input a (namesOutput_of_read read) plain still).congr files spawned

end CommandLine

end Reel
