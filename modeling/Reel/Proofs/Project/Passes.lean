import Reel.Project
import Reel.Proofs.Host.Passes

/-!
# What rendering starts and takes away

A render makes the directory of its output, runs its commands and, for a project, takes the logs
of the passes away. Directories and logs concern the files alone. So the commands that are
started are those of the row, and the logs are gone whether the row ended, failed or was stopped.
-/
namespace Reel

namespace Run

variable {α β : Type} {run : Run α} {next : α → Run β}

/-- The run looks at nothing of the machine but its files, and changes nothing else. -/
def OnFiles (run : Run α) : Prop :=
  ∃ step : Files → Except Error α × Files,
    ∀ host, run.on host = ((step host.files).1, { host with files := (step host.files).2 })

namespace OnFiles

theorem pure (x : α) : OnFiles (Pure.pure x : Run α) := ⟨fun files => (.ok x, files), fun _ => rfl⟩

theorem throw (e : Error) : OnFiles (throw e : Run α) :=
  ⟨fun files => (.error e, files), fun _ => rfl⟩

theorem ofExcept (r : Except Error α) : OnFiles (Run.ofExcept r) := by
  cases r with
  | ok x => exact .pure x
  | error e => exact .throw e

theorem files : OnFiles Run.files := ⟨fun files => (.ok files, files), fun _ => rfl⟩

theorem setFiles (files : Files) : OnFiles (modify fun host => { host with files } : Run Unit) :=
  ⟨fun _ => (.ok (), files), fun _ => rfl⟩

theorem bind (first : OnFiles run) (rest : ∀ x, OnFiles (next x)) : OnFiles (run >>= next) := by
  obtain ⟨step, steps⟩ := first
  choose further follows using rest
  refine ⟨fun files => match step files with
    | (.ok x, files) => further x files
    | (.error e, files) => (.error e, files), fun host => ?_⟩
  rw [on_bind, steps]
  cases stepped : step host.files with
  | mk outcome files =>
      cases outcome with
      | error e => simp only [stepped]
      | ok x =>
          simp only [stepped]
          exact follows x { host with files }

/-- Machines with the same files are left with the same files. -/
theorem files_eq (h : OnFiles run) {host other : Host} (same : host.files = other.files) :
    (run.on host).2.files = (run.on other).2.files := by
  obtain ⟨step, steps⟩ := h
  rw [steps, steps, same]

theorem outcome_eq (h : OnFiles run) {host other : Host} (same : host.files = other.files) :
    (run.on host).1 = (run.on other).1 := by
  obtain ⟨step, steps⟩ := h
  rw [steps, steps, same]

end OnFiles

theorem makeWay_onFiles (path : String) : OnFiles (makeWay path) :=
  OnFiles.files.bind fun _ => (OnFiles.setFiles _).bind fun _ => .pure _

theorem makePath_onFiles (path : String) (written : String → Value) :
    OnFiles (makePath path written) := by
  unfold makePath
  dsimp only
  refine OnFiles.files.bind fun files => ?_
  split
  · split
    · exact .pure ()
    · refine (makeWay_onFiles _).bind fun fault => ?_
      split
      · split
        · exact .pure ()
        · exact (OnFiles.throw _).bind fun _ => .pure ()
      · exact .pure ()
  · split
    · exact .throw _
    · refine (makeWay_onFiles _).bind fun fault => ?_
      split
      · split
        · exact .throw _
        · exact (OnFiles.throw _).bind fun _ => .throw _
      · exact .throw _

end Run

open Run

theorem Run.echo_on (line : String) (host : Host) :
    ∃ printed, (echo line).on host = (.ok (), { host with printed }) := by
  rw [echo, on_bind, on_get]
  dsimp only
  split
  · exact ⟨host.printed, rfl⟩
  · exact ⟨_, rfl⟩

theorem ok_of_requireOk {result : PipelineResult} (h : result.requireOk = .ok ()) :
    result.ok = true := by
  unfold PipelineResult.requireOk at h
  split at h
  · next succeeds => exact succeeds
  · obtain ⟨_, -, h⟩ := exists_of_bind_ok h
    cases h

namespace Project

theorem makeDirectoryOf_onFiles (output : Value) : OnFiles (makeDirectoryOf output) := by
  have made (path : String) (written : String → Value) : OnFiles (do
      let directory := Path.dirname path
      unless directory = "" || (← Run.files).exists? directory do
        Run.makePath directory written) := by
    refine OnFiles.files.bind fun files => ?_
    split
    · exact .pure ()
    · exact makePath_onFiles _ _
  unfold makeDirectoryOf
  dsimp only
  split
  · rw [pure_bind]
    exact made _ _
  · refine (OnFiles.ofExcept _).bind fun path => ?_
    rw [pure_bind]
    exact made _ _

/-- The files without the logs of the passes, unless they are to be kept. Logs whose directory
cannot be searched stay. -/
def withoutLogs (p : Project) (files : Files) : Files :=
  if p.keepTemp then files
  else
    match PassLog.clearAt files p.encode.passLogPrefix with
    | .ok cleared => cleared
    | .error _ => files

variable {host : Host}

/-- However the row ends, the logs are taken away behind it. -/
theorem runPasses_cleans (p : Project) (runs : List Invocation) (host : Host) :
    let ran := (Run.passes p.encoderProgram runs).on host
    ((p.runPasses runs).on host).2 = { ran.2 with files := p.withoutLogs ran.2.files } ∧
      ∀ result, ((p.runPasses runs).on host).1 = .ok result → ran.1 = .ok result := by
  let clean : Run Unit := do
    unless p.keepTemp do
      let files ← Run.ofExcept (PassLog.clearAt (← Run.files) p.encode.passLogPrefix)
      modify fun host => { host with files }
  have cleans (after : Host) : ∃ r, clean.on after =
      (r, { after with files := p.withoutLogs after.files }) := by
    have looked : Run.files.on after = (.ok after.files, after) := rfl
    unfold withoutLogs
    cases kept : p.keepTemp with
    | true => exact ⟨.ok (), by simp only [clean, kept]; rfl⟩
    | false =>
        simp only [clean, kept, Bool.false_eq_true, if_false, on_bind, looked]
        cases PassLog.clearAt after.files p.encode.passLogPrefix with
        | ok files => exact ⟨.ok (), rfl⟩
        | error e => exact ⟨.error e, rfl⟩
  have steps : p.runPasses runs = (do
      let result ← tryCatch (Run.passes p.encoderProgram runs) fun e => do
        clean
        throw e
      clean
      return result) := rfl
  intro ran
  rw [steps, on_bind, on_tryCatch]
  cases outcome : (Run.passes p.encoderProgram runs).on host with
  | mk r after =>
      have same : ran = (r, after) := outcome
      rw [same]
      obtain ⟨r', cleared⟩ := cleans after
      cases r with
      | error e =>
          dsimp only
          rw [on_bind, cleared]
          cases r' with
          | ok _ => exact ⟨rfl, fun result h => nomatch h⟩
          | error _ => exact ⟨rfl, fun result h => nomatch h⟩
      | ok result =>
          dsimp only
          rw [on_bind, cleared]
          cases r' with
          | ok _ => exact ⟨rfl, fun _ h => h⟩
          | error _ => exact ⟨rfl, fun result h => nomatch h⟩

theorem runPasses_on (p : Project) {runs : List Invocation}
    (plain : ∀ i ∈ runs, i.shellCommand = .null) (host : Host) :
    ∃ started after, host.Ran after started ∧ FromFront p.encoderProgram runs started ∧
      ((p.runPasses runs).on host).2 = { after with files := p.withoutLogs after.files } := by
  obtain ⟨started, ran, ends⟩ := passes_starts p.encoderProgram runs plain host
  refine ⟨started, _, ran, ?_, (p.runPasses_cleans runs host).1⟩
  split at ends
  · exact ends
  · exact ends

/-- Once the directory is made, a render does what its passes do, and gives their result if they
succeed. -/
theorem renderTo_on (output : Value) (passes : Run PipelineResult) (host : Host) :
    (∃ e files, ((makeDirectoryOf output).on host).1 = .error e ∧
      (renderTo output passes).on host = (.error e, { host with files })) ∨
      ∃ files, ((makeDirectoryOf output).on host).2.files = files ∧
        ((renderTo output passes).on host).2.spawned =
          (passes.on { host with files }).2.spawned ∧
        ((renderTo output passes).on host).2.files = (passes.on { host with files }).2.files ∧
        ∀ result, ((renderTo output passes).on host).1 = .ok result →
          (passes.on { host with files }).1 = .ok result ∧ result.ok = true := by
  obtain ⟨step, directory⟩ := makeDirectoryOf_onFiles output
  rw [renderTo, on_bind, directory]
  generalize step host.files = made
  obtain ⟨outcome, files⟩ := made
  cases outcome with
  | error e => exact .inl ⟨e, files, rfl, rfl⟩
  | ok _ =>
      refine .inr ⟨files, rfl, ?_⟩
      dsimp only
      rw [on_bind]
      cases passes.on { host with files } with
      | mk outcome after =>
          cases outcome with
          | error e => exact ⟨rfl, rfl, fun result h => nomatch h⟩
          | ok result =>
              dsimp only
              rw [on_bind]
              cases required : result.requireOk with
              | error e => exact ⟨rfl, rfl, fun result h => nomatch h⟩
              | ok _ =>
                  have succeeds := ok_of_requireOk required
                  simp only [Run.ofExcept, on_pure]
                  rw [on_bind]
                  cases output.toText with
                  | error e => exact ⟨rfl, rfl, fun result h => nomatch h⟩
                  | ok path =>
                      simp only [on_pure]
                      rw [on_bind]
                      obtain ⟨printed, echoed⟩ := echo_on ("mpv " ++ path) after
                      rw [echoed]
                      exact ⟨rfl, rfl, fun given h => Except.ok.inj h ▸ ⟨rfl, succeeds⟩⟩

/-- A render of a project starts commands from the front of the row, and leaves no logs once it has
started one. -/
theorem render_on (p : Project) (output : Value) {runs : List Invocation}
    (plain : ∀ i ∈ runs, i.shellCommand = .null) (host : Host) :
    ∃ started, ((renderTo output (p.runPasses runs)).on host).2.spawned =
        (started.map Spawn.ofWords).reverse ++ host.spawned ∧
      FromFront p.encoderProgram runs started ∧
      (started = [] ∨ ∃ files,
        ((renderTo output (p.runPasses runs)).on host).2.files = p.withoutLogs files) := by
  rcases renderTo_on output (p.runPasses runs) host with
    ⟨e, files, -, stopped⟩ | ⟨files, -, spawned, left, -⟩
  · rw [stopped]
    exact ⟨[], rfl, ⟨[], List.nil_prefix, .nil⟩, .inl rfl⟩
  · obtain ⟨started, after, ran, front, ends⟩ := p.runPasses_on plain { host with files }
    rw [ends] at spawned left
    exact ⟨started, spawned.trans ran.spawned, front, .inr ⟨after.files, left⟩⟩

end Project

end Reel
