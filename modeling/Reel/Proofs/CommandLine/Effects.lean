import Reel.CommandLine
import Reel.Environment.Plain
import Reel.Proofs.Project.Loading
import Reel.Proofs.Project.Render

/-!
# No effects before the checks, and none in a rehearsal

Reading settings, a project or the arguments of a clip only looks at files. All checks of a
request are made on what was read, before the first program starts, so a request that is rejected
has left nothing behind. What only shows its commands asks about media at most.
-/
namespace Reel

open Run

/-- Looks at the machine and nothing more, however it ends. -/
abbrev Run.Looks {α : Type} (run : Run α) (post : α → Prop) : Prop :=
  Does .none (fun _ => True) run post

theorem Run.Looks.ofExcept {α : Type} (r : Except Error α) :
    Looks (Run.ofExcept r) fun _ => True :=
  Does.ofExcept ((Yields.any r).mono fun _ _ => trivial)

theorem Run.Reads.looks {α : Type} {run : Run α} (h : Reads run) : Looks run fun _ => True := by
  intro host _
  rw [h.on_eq host]
  exact ⟨.refl _ host, (Yields.any _).mono fun _ _ => trivial⟩

theorem Settings.load_looks [Environment] (file : Value) (overrides : List (String × Value)) :
    Looks (Settings.load file overrides) fun _ => True := (load_reads file overrides).looks

theorem Project.load_looks [Environment] (file : Value) (settings : Settings)
    (encode : Option EncodeOptions) :
    Looks (Project.load file settings encode) fun p => p.probeProgram = settings.ffprobe := by
  unfold Project.load
  split
  · exact .throw trivial
  · refine (Timeline.loadAt_reads _).looks.bind fun t _ => .ofExcept ?_
    unfold ofTimeline
    dsimp only
    split
    · exact .ok rfl
    · exact (Yields.any _).bind fun _ _ => .ok rfl

namespace CommandLine

theorem clipOutput_looks (a : Arguments) (settings : Settings) :
    Looks (clipOutput a settings) fun _ => True := by
  unfold clipOutput
  split
  · refine (Looks.ofExcept _).bind fun directory _ => Does.files.bind fun files _ => ?_
    exact (Looks.ofExcept _).bind fun _ _ => .pure trivial
  · exact .pure trivial

theorem clipInvocations_looks (a : Arguments) (settings : Settings) (input output : Value) :
    Looks (clipInvocations a settings input output) fun _ => True := by
  refine Does.files.bind fun files _ => ?_
  split
  · refine (Looks.ofExcept _).bind fun encode _ => ?_
    dsimp only
    split
    · refine (Looks.ofExcept _).bind fun log _ => ?_
      rw [pure_bind]
      exact Looks.ofExcept _
    · rw [pure_bind]
      exact Looks.ofExcept _
  · exact Looks.ofExcept _

/-- The effects that rendering a project may have: those of its probes if it only shows what it
would do. -/
def Arguments.projectEffects (a : Arguments) (settings : Settings) : Effects :=
  if a.dryRun || a.dumpPlan then .probes settings.ffprobe else .any

def Arguments.clipEffects (a : Arguments) : Effects :=
  if a.dryRun || a.dumpPlan then .none else .any

theorem renderClip_careful (a : Arguments) (settings : Settings) (input : Value) :
    Careful a.clipEffects (renderClip a settings input) fun _ => True := by
  refine .bind_still (clipOutput_looks a settings) fun output _ => ?_
  refine .bind_still (clipInvocations_looks a settings input output) fun invocations _ => ?_
  refine .of_unrejected (Does.unrejected ?_)
  unfold Arguments.clipEffects
  split
  · refine Does.forM (fun i => ?_) invocations
    exact (Does.ofExcept (commandLine_yields i _)).bind fun _ _ => printLine_does _
  · have renders := Project.renderTo_does (passes_does settings.ffmpeg invocations) output
    exact renders.bind fun _ _ => .pure trivial

section

variable [Environment]

theorem renderProject_careful (a : Arguments) (settings : Settings) (file : Value) :
    Careful (a.projectEffects settings) (renderProject a settings file) fun _ => True := by
  refine .bind_still (Project.load_looks file settings none) fun loaded program => ?_
  refine .bind_still (Looks.ofExcept _) fun encode _ => ?_
  split
  · next shown =>
      refine ((Project.plan_careful _).widen ?_).bind fun plan _ =>
        (Does.ofExcept (Foreign.ofAnswer_yields _)).unrejected.bind fun _ _ => printLine_does _
      simp only [Arguments.projectEffects, shown, Bool.or_true, if_true, program]
      exact .refl _
  · next live =>
      refine ((Project.run_careful _).widen ?_).bind fun _ _ => .pure trivial
      simp only [Arguments.projectEffects, Project.effects, live, Bool.or_false, program]
      exact .refl _

def Arguments.loadSettings (a : Arguments) : Run Settings :=
  Settings.load a.settings
    [("root_path", a.root), ("cache_dir", a.cacheDir), ("probe_workers", a.probeWorkers)]

variable {words : List String} {input : Input} {a : Arguments} {host : Host}

/-- The start of a program that asks about the media of a project, as the settings say. -/
def Asked (input : Input) (a : Arguments) (host : Host) (spawn : Spawn) : Prop :=
  ∃ file settings, input = .project file ∧ (a.loadSettings.on host).1 = .ok settings ∧
    spawn.Asks settings.ffprobe

/-- Reading the settings only looks at the machine, so the effects are those of what follows. -/
theorem loaded_touched (a : Arguments) {next : Settings → Run Unit} {e : Settings → Effects}
    (careful : ∀ settings, Careful (e settings) (next settings) fun _ => True)
    (silent : host.listener = .none) :
    (∀ cause, ((a.loadSettings >>= next).on host).1 = .error (.rejected cause) →
      host.Touched .none ((a.loadSettings >>= next).on host).2) ∧
    ∀ wide, (∀ settings, (a.loadSettings.on host).1 = .ok settings → (e settings).Within wide) →
      host.Touched wide ((a.loadSettings >>= next).on host).2 := by
  have looks : Looks a.loadSettings fun _ => True := Settings.load_looks _ _
  obtain ⟨looked, -⟩ := looks host silent
  rw [on_bind]
  cases loaded : a.loadSettings.on host with
  | mk outcome between =>
      rw [loaded] at looked
      have silent := looked.listener.trans silent
      cases outcome with
      | error cause => exact ⟨fun _ _ => looked, fun _ _ => looked.mono (Effects.none_within _)⟩
      | ok settings =>
          constructor
          · intro cause rejected
            exact looked.trans ((careful settings).rejects between silent cause rejected)
          · intro wide within
            obtain ⟨touched, -⟩ := (careful settings).does between silent
            exact (looked.mono (Effects.none_within _)).trans (touched.mono (within _ rfl))

/-- What was read decides the effects: none if it is rejected, and questions at most if it is
only shown. -/
theorem render_touched (input : Input) (a : Arguments) (silent : host.listener = .none) :
    (∀ cause, ((render input a).on host).1 = .error (.rejected cause) →
      host.Touched .none ((render input a).on host).2) ∧
    ((a.dryRun || a.dumpPlan) = true →
      host.Touched ⟨Asked input a host, False⟩ ((render input a).on host).2) := by
  cases input with
  | project file =>
      have steps : render (.project file) a = a.loadSettings >>= fun settings =>
        renderProject a settings file := rfl
      rw [steps]
      obtain ⟨rejects, does⟩ := loaded_touched a
        (fun settings => renderProject_careful a settings file) silent
      refine ⟨rejects, fun shown => does _ fun settings loaded => ?_⟩
      rw [Arguments.projectEffects, if_pos shown]
      exact ⟨fun spawn asks => ⟨file, settings, rfl, loaded, asks⟩, id⟩
  | media path =>
      have steps : render (.media path) a = a.loadSettings >>= fun settings =>
        renderClip a settings path := rfl
      rw [steps]
      obtain ⟨rejects, does⟩ := loaded_touched a
        (fun settings => renderClip_careful a settings path) silent
      refine ⟨rejects, fun shown => does _ fun settings _ => ?_⟩
      rw [Arguments.clipEffects, if_pos shown]
      exact Effects.none_within _

/-- Once the arguments are read, the machine is that which rendering leaves, but for a complaint
about a reported error. -/
theorem run_on (read : Arguments.read words = .ok (input, a)) (host : Host) :
    (run words).on host = match (render input a).on { host with quiet := a.quiet } with
      | (.ok _, after) => (.ok (), after)
      | (.error e, after) =>
        if e.isReported then
          (.error (.exit 1),
            { after with complained := ("error: " ++ e.message ++ "\n") :: after.complained })
        else (.error e, after) := by
  unfold run
  simp only [read]
  rw [on_bind, setQuiet, on_modify]
  simp only [on_tryCatch]
  cases (render input a).on { host with quiet := a.quiet } with
  | mk outcome after =>
      cases outcome with
      | ok _ => rfl
      | error e =>
          dsimp only
          split
          · rfl
          · rfl

theorem run_files (read : Arguments.read words = .ok (input, a)) (host : Host) :
    ((run words).on host).2.files =
        ((render input a).on { host with quiet := a.quiet }).2.files ∧
      ((run words).on host).2.spawned =
        ((render input a).on { host with quiet := a.quiet }).2.spawned := by
  rw [run_on read]
  cases (render input a).on { host with quiet := a.quiet } with
  | mk outcome after =>
      cases outcome with
      | ok _ => exact ⟨rfl, rfl⟩
      | error e =>
          dsimp only
          split
          · exact ⟨rfl, rfl⟩
          · exact ⟨rfl, rfl⟩

theorem run_rejected {cause : Rejection} (read : Arguments.read words = .ok (input, a))
    (rejected : ((render input a).on { host with quiet := a.quiet }).1 =
      .error (.rejected cause)) :
    ((run words).on host).1 = .error (.exit 1) ∧
      ((run words).on host).2.complained.head? = some ("error: " ++ cause.message ++ "\n") := by
  rw [run_on read]
  cases rendered : (render input a).on { host with quiet := a.quiet } with
  | mk outcome after =>
      rw [rendered] at rejected
      obtain rfl : outcome = .error (.rejected cause) := rejected
      exact ⟨rfl, rfl⟩

/-- What the words ask for is rejected. -/
def Rejects (words : List String) (host : Host) (cause : Rejection) : Prop :=
  ∃ input a, Arguments.read words = .ok (input, a) ∧
    ((render input a).on { host with quiet := a.quiet }).1 = .error (.rejected cause)

/-- A request that is rejected, whatever the files, the settings and the programs, ends with a
complaint before any program starts and any file changes. One that only shows its commands changes
no file however it ends, and starts no program but those that ask about the media of a project.
Words that cannot be read do nothing at all. -/
theorem rejected_or_shown_untouched (words : List String) {host : Host}
    (silent : host.listener = .none) :
    (∀ cause, Rejects words host cause →
      ((run words).on host).1 = .error (.exit 1) ∧
      ((run words).on host).2.complained.head? = some ("error: " ++ cause.message ++ "\n") ∧
      ((run words).on host).2.files = host.files ∧
      ((run words).on host).2.spawned = host.spawned) ∧
    (∀ input a, Arguments.read words = .ok (input, a) → a.dryRun = true ∨ a.dumpPlan = true →
      ((run words).on host).2.files = host.files ∧
      ∃ asked, ((run words).on host).2.spawned = asked ++ host.spawned ∧
        ∀ spawn ∈ asked, Asked input a { host with quiet := a.quiet } spawn) ∧
    ∀ stop, Arguments.read words = .error stop →
      (run words).on host = (.error (.exit stop.code), host) := by
  refine ⟨?_, ?_, ?_⟩
  · rintro cause ⟨input, a, read, rejected⟩
    have still : ({ host with quiet := a.quiet } : Host).listener = .none := silent
    obtain ⟨careful, -⟩ := render_touched input a still
    obtain ⟨files, spawned⟩ := (careful cause rejected).untouched
    obtain ⟨sameFiles, sameSpawned⟩ := run_files read host
    obtain ⟨ends, complains⟩ := run_rejected read rejected
    exact ⟨ends, complains, sameFiles.trans files, sameSpawned.trans spawned⟩
  · intro input a read shown
    have still : ({ host with quiet := a.quiet } : Host).listener = .none := silent
    obtain ⟨-, showing⟩ := render_touched input a still
    have touched := showing (by simpa using shown)
    obtain ⟨asked, spawned, allowed⟩ := touched.spawned
    obtain ⟨sameFiles, sameSpawned⟩ := run_files read host
    exact ⟨sameFiles.trans (touched.files id), asked, sameSpawned.trans spawned, allowed⟩
  · intro stop unread
    unfold run
    rw [unread]
    rfl

end

def lostClip : Host where
  files := ⟨[(["trip.yml"], .file (Text.encode "segments: [walk.mp4]"))]⟩

def foundClip : Host where
  files := ⟨[(["trip.yml"], .file (Text.encode "segments: [walk.mp4]")),
    (["walk.mp4"], .file [])]⟩

section Plain

attribute [local instance] Environment.plain

theorem rejected_or_shown_untouched_trip :
    (Rejects ["-y", "trip.yml"] lostClip (.timelineFileMissing "walk.mp4") ∧
      ((run ["-y", "trip.yml"]).on lostClip).2.files = lostClip.files ∧
      ((run ["-y", "trip.yml"]).on lostClip).2.spawned = []) ∧
    ((run ["-y", "trip.yml", "-n", "-o", "trip.mp4"]).on foundClip).2.files = foundClip.files := by
  have rejects : Rejects ["-y", "trip.yml"] lostClip (.timelineFileMissing "walk.mp4") :=
    ⟨.project "trip.yml", { input := some (.project "trip.yml") }, by decide +kernel,
      by decide +kernel⟩
  have silent : lostClip.listener = .none ∧ foundClip.listener = .none := ⟨rfl, rfl⟩
  obtain ⟨rejected, -, -⟩ := rejected_or_shown_untouched ["-y", "trip.yml"] silent.1
  obtain ⟨-, -, files, spawned⟩ := rejected _ rejects
  obtain ⟨-, shown, -⟩ := rejected_or_shown_untouched ["-y", "trip.yml", "-n", "-o", "trip.mp4"]
    silent.2
  have read : Arguments.read ["-y", "trip.yml", "-n", "-o", "trip.mp4"] =
      .ok (.project "trip.yml",
        { input := some (.project "trip.yml"), dryRun := true, output := "trip.mp4" }) := by
    decide +kernel
  exact ⟨⟨rejects, files, spawned⟩, (shown _ _ read (.inl rfl)).1⟩

end Plain

end CommandLine

end Reel
