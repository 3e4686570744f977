import Reel.Proofs.Project.Spared

/-!
# The numbers of commands

The commands of a row are counted from the announcement of how many there will be. Each report
brings that announcement, and the commands that start are reported under the next numbers one by
one. This holds of however many commands were started before a row ended or was stopped, be it by
whoever listens; a row that succeeds has started all of them.
-/
namespace Reel

namespace Report

def startedAs? : Report → Option Nat
  | .started _ index _ _ => some index
  | .ended .. => none

/-- How many commands were announced, as a report says. -/
def announced : Report → Value
  | .started _ _ total _ | .ended _ _ total _ _ _ _ => total

end Report

/-- The machine after some commands that were started under the next numbers. -/
structure Host.Numbered (host after : Host) (count : Nat) : Prop where
  listener : after.listener = host.listener
  quiet : after.quiet = host.quiet
  total : after.total = host.total
  index : after.index = host.index + count
  reports : ∃ sent : List Report, after.reports = sent.reverse ++ host.reports ∧
    (∀ r ∈ sent, r.announced = host.total) ∧
    sent.filterMap Report.startedAs? = List.range' (host.index + 1) count

namespace Host.Numbered

variable {host middle after : Host} {m n : Nat}

theorem of_console (listener : after.listener = host.listener) (quiet : after.quiet = host.quiet)
    (total : after.total = host.total) (index : after.index = host.index)
    (reports : after.reports = host.reports) : host.Numbered after 0 :=
  ⟨listener, quiet, total, index, [], reports, by simp, rfl⟩

theorem refl (host : Host) : host.Numbered host 0 := .of_console rfl rfl rfl rfl rfl

theorem trans (first : host.Numbered middle m) (second : middle.Numbered after n) :
    host.Numbered after (m + n) := by
  obtain ⟨sent, reports, announced, started⟩ := first.reports
  obtain ⟨later, reports', announced', started'⟩ := second.reports
  rw [first.total] at announced'
  refine ⟨second.listener.trans first.listener, second.quiet.trans first.quiet,
    second.total.trans first.total, ?_, sent ++ later, ?_, ?_, ?_⟩
  · rw [second.index, first.index, Nat.add_assoc]
  · rw [reports', reports, List.reverse_append, List.append_assoc]
  · exact List.forall_mem_append.mpr ⟨announced, announced'⟩
  · rw [List.filterMap_append, started, started', first.index, Nat.add_right_comm,
      List.range'_append_1]

end Host.Numbered

namespace Run

variable {α β : Type} {run : Run α} {next : α → Run β} {mid all : α → Prop} {goal : β → Prop}
  {j k : Nat}

/-- To someone who listens to a silent machine, the run numbers the commands that it starts. There
are no more than so many of them, and just so many if the result has a property. -/
def Numbers (most : Nat) (run : Run α) (all : α → Prop) : Prop :=
  ∀ host, host.quiet = true → host.listener.isSome → ∃ count ≤ most,
    host.Numbered (run.on host).2 count ∧
      ∀ x, (run.on host).1 = .ok x → all x → count = most

namespace Numbers

theorem of_numbered (h : ∀ host : Host, host.quiet = true → host.listener.isSome →
    host.Numbered (run.on host).2 0) : Numbers 0 run all :=
  fun host quiet heard => ⟨0, le_rfl, h host quiet heard, fun _ _ _ => rfl⟩

theorem pure (x : α) : Numbers 0 (Pure.pure x) all := .of_numbered fun host _ _ => .refl host

/-- A result without the property can come before all commands have started. -/
theorem pure_of_not {x : α} (h : ¬all x) : Numbers k (Pure.pure x) all :=
  fun host _ _ => ⟨0, Nat.zero_le k, .refl host, fun _ gives good =>
    (h (Except.ok.inj gives ▸ good)).elim⟩

theorem mono {fewer : α → Prop} (h : Numbers k run all) (imp : ∀ x, fewer x → all x) :
    Numbers k run fewer := by
  intro host quiet heard
  obtain ⟨count, le, numbered, whole⟩ := h host quiet heard
  exact ⟨count, le, numbered, fun x gives good => whole x gives (imp x good)⟩

theorem throw (e : Error) : Numbers 0 (MonadExcept.throw e : Run α) all :=
  .of_numbered fun host _ _ => .refl host

theorem ofExcept (r : Except Error α) : Numbers 0 (Run.ofExcept r) all :=
  .of_numbered fun host _ _ => by
    rw [on_ofExcept]
    exact .refl host

theorem onFiles (h : OnFiles run) : Numbers 0 run all := by
  obtain ⟨step, steps⟩ := h
  exact .of_numbered fun host _ _ => by
    rw [steps]
    exact .of_console rfl rfl rfl rfl rfl

/-- A run that was followed by another one to a good end had come to a good end itself. -/
theorem bind (first : Numbers j run mid) (rest : ∀ x, Numbers k (next x) goal)
    (link : ∀ x host y after, (next x).on host = (.ok y, after) → goal y → mid x) :
    Numbers (j + k) (run >>= next) goal := by
  intro host quiet heard
  obtain ⟨m, le, numbered, whole⟩ := first host quiet heard
  rw [on_bind]
  cases ends : run.on host with
  | mk outcome between =>
      rw [ends] at numbered whole
      cases outcome with
      | error e => exact ⟨m, by omega, numbered, fun y h => nomatch h⟩
      | ok x =>
          obtain ⟨n, le', numbered', whole'⟩ := rest x between (numbered.quiet.trans quiet)
            (numbered.listener ▸ heard)
          refine ⟨m + n, by omega, numbered.trans numbered', fun y gives good => ?_⟩
          rw [whole x rfl (link x between y _ (Prod.ext gives rfl) good), whole' y gives good]

/-- What starts no command leaves the numbers to what follows. -/
theorem bind_still (first : Numbers 0 run fun _ => True) (rest : ∀ x, Numbers k (next x) goal) :
    Numbers k (run >>= next) goal := by
  have both := first.bind rest fun _ _ _ _ _ _ => trivial
  rwa [Nat.zero_add] at both

/-- A handler that starts nothing and stops again changes nothing about the numbers. -/
theorem tryCatch {handler : Error → Run α} (h : Numbers k run all)
    (still : ∀ e, Numbers 0 (handler e) fun _ => True)
    (stops : ∀ e host x after, (handler e).on host ≠ (.ok x, after)) :
    Numbers k (MonadExcept.tryCatch run handler) all := by
  intro host quiet heard
  obtain ⟨m, le, numbered, whole⟩ := h host quiet heard
  rw [on_tryCatch]
  cases ends : run.on host with
  | mk outcome between =>
      rw [ends] at numbered whole
      cases outcome with
      | ok x => exact ⟨m, le, numbered, whole⟩
      | error e =>
          obtain ⟨n, none, numbered', -⟩ := still e between (numbered.quiet.trans quiet)
            (numbered.listener ▸ heard)
          obtain rfl : n = 0 := Nat.le_zero.mp none
          refine ⟨m, le, numbered.trans numbered', fun x gives => ?_⟩
          exact (stops e between x _ (Prod.ext gives rfl)).elim

end Numbers

theorem report_on {l : Listener} (host : Host) (r : Report) (listens : host.listener = some l) :
    (report r).on host = (l (r :: host.reports), { host with reports := r :: host.reports }) := by
  simp only [report, on_bind, on_get, listens, on_modify, on_ofExcept]

theorem beginCommand_numbers (command : String) :
    Numbers 1 (beginCommand command) fun _ => True := by
  intro host quiet heard
  obtain ⟨l, listens⟩ := Option.isSome_iff_exists.mp heard
  let counted : Host := { host with index := host.index + 1 }
  let r : Report := .started command (host.index + 1) host.total host.clock
  have sent : (beginCommand command).on host = (do report r; return host.index + 1 : Run Nat).on
      counted := by
    rw [beginCommand, on_bind, on_modify]
    dsimp only
    rw [on_bind, on_get]
    dsimp only
    rw [if_pos quiet]
  have numbered : host.Numbered { counted with reports := r :: host.reports } 1 :=
    ⟨rfl, rfl, rfl, rfl, [r], rfl, by simp [r, Report.announced], rfl⟩
  refine ⟨1, le_rfl, ?_, fun _ _ _ => rfl⟩
  rw [sent, on_bind, report_on counted r listens]
  cases l (r :: counted.reports) with
  | ok _ => exact numbered
  | error _ => exact numbered

theorem endCommand_numbers (command : String) (index : Nat) (started : Double) (returnCode : Int)
    (diagnostic : String) :
    Numbers 0 (endCommand command index started returnCode diagnostic) fun _ => True := by
  refine .of_numbered fun host _ heard => ?_
  obtain ⟨l, listens⟩ := Option.isSome_iff_exists.mp heard
  rw [endCommand, on_bind, on_get]
  dsimp only
  rw [report_on _ _ listens]
  exact ⟨rfl, rfl, rfl, rfl, [_], rfl, by simp [Report.announced], rfl⟩

theorem perform_numbers : Numbers 0 perform fun _ => True := by
  refine .of_numbered fun host _ _ => ?_
  unfold perform
  simp only [on_bind, on_get, on_set]
  cases (host.commands.headD {}).fault with
  | some fault => exact .of_console rfl rfl rfl rfl rfl
  | none => exact .of_console rfl rfl rfl rfl rfl

theorem recordSpawn_numbers (spawn : Spawn) : Numbers 0 (recordSpawn spawn) fun _ => True :=
  .of_numbered fun _ _ _ => .of_console rfl rfl rfl rfl rfl

theorem start_numbers (words : List Value) : Numbers 0 (start words) fun _ => True :=
  (recordSpawn_numbers _).bind_still fun _ => perform_numbers

theorem get_numbers : Numbers 0 (get : Run Host) fun _ => True :=
  .of_numbered fun host _ _ => .refl host

theorem command_numbers (arguments : List Value) :
    Numbers 1 (command arguments) fun _ => True := by
  refine .bind_still (.ofExcept _) fun words => ?_
  refine Numbers.bind (k := 0) (beginCommand_numbers _) (fun index => ?_) fun _ _ _ _ _ _ => trivial
  refine get_numbers.bind_still fun host => ?_
  have told (code : Int) (diagnostic : String) : Numbers 0 (do
      endCommand (Shell.join words) index host.clock code diagnostic
      return (code, diagnostic)) fun _ => True :=
    (endCommand_numbers _ _ _ _ _).bind_still fun _ => .pure _
  refine (start_numbers _).bind_still fun outcome => ?_
  dsimp only
  split
  · exact told _ _
  · exact .throw _
  · exact told _ _

theorem shell_numbers (line : String) : Numbers 1 (shell line) fun _ => True := by
  refine Numbers.bind (k := 0) (beginCommand_numbers _) (fun index => ?_) fun _ _ _ _ _ _ => trivial
  refine get_numbers.bind_still fun host => ?_
  have starts : Numbers 0 (startShell line) fun _ => True :=
    (recordSpawn_numbers _).bind_still fun _ => perform_numbers
  refine starts.bind_still fun outcome => ?_
  dsimp only
  split
  · exact .throw _
  · exact (endCommand_numbers _ _ _ _ _).bind_still fun _ => .pure _

theorem invocation_numbers (program : Value) (i : Invocation) :
    Numbers 1 (invocation program i) fun _ => True := by
  have told (reported : Int × String) : Numbers 0
      (pure ⟨reported.1, reported.2, i.pass⟩ : Run PipelineResult) fun _ => True := .pure _
  unfold invocation Runner.invocation
  split
  · exact (command_numbers _).bind told fun _ _ _ _ _ _ => trivial
  · refine .bind_still (.ofExcept _) fun line => ?_
    exact (shell_numbers line).bind told fun _ _ _ _ _ _ => trivial

/-- A row whose last result is a success has started all its commands. -/
theorem passes_numbers (program : Value) (runs : List Invocation) :
    Numbers runs.length (passes program runs) fun result => result.ok = true := by
  induction runs with
  | nil => exact .throw _
  | cons first rest ih =>
      cases rest with
      | nil => exact (invocation_numbers program first).mono fun _ _ => trivial
      | cons second rest =>
          have row : Numbers (1 + (second :: rest).length)
              (passes program (first :: second :: rest)) fun result => result.ok = true := by
            refine (invocation_numbers program first).bind (fun result => ?_)
              fun _ _ _ _ _ _ => trivial
            split
            · exact ih
            · next failed => exact .pure_of_not failed
          rwa [Nat.add_comm] at row

end Run

open Run

namespace Project

theorem runPasses_numbers (p : Project) (runs : List Invocation) :
    Numbers runs.length (p.runPasses runs) fun result => result.ok = true := by
  let clean : Run Unit := do
    unless p.keepTemp do
      let files ← Run.ofExcept (PassLog.clearAt (← Run.files) p.encode.passLogPrefix)
      modify fun host => { host with files }
  have cleans : Numbers 0 clean fun _ => True := by
    refine .onFiles ?_
    unfold clean
    split
    · exact .pure ()
    · exact OnFiles.files.bind fun files => (OnFiles.ofExcept _).bind fun _ => .setFiles _
  have row : Numbers runs.length (tryCatch (Run.passes p.encoderProgram runs) fun e => do
      clean
      throw e) fun result => result.ok = true := by
    refine (passes_numbers _ _).tryCatch (fun e => cleans.bind_still fun _ => .throw e) ?_
    intro e host x after gives
    obtain ⟨_, between, -, stopped⟩ := Run.exists_of_bind_ok gives
    cases stopped
  refine row.bind (k := 0) (fun result => cleans.bind_still fun _ => .pure result) ?_
  intro result host given after gives good
  obtain ⟨_, between, -, ended⟩ := Run.exists_of_bind_ok gives
  obtain rfl : result = given := Except.ok.inj (congrArg Prod.fst ended)
  exact good

/-- A render that comes to an end has started all its commands. -/
theorem renderTo_numbers (output : Value) {passes : Run PipelineResult} {k : Nat}
    (h : Numbers k passes fun result => result.ok = true) :
    Numbers k (renderTo output passes) fun _ => True := by
  refine (Numbers.onFiles (makeDirectoryOf_onFiles output)).bind_still fun _ => ?_
  refine h.bind (k := 0) (fun result => ?_) ?_
  · refine (Numbers.ofExcept _).bind_still fun _ => (Numbers.ofExcept _).bind_still fun path => ?_
    refine Numbers.bind_still (.of_numbered fun host _ _ => ?_) fun _ => .pure result
    obtain ⟨printed, echoed⟩ := echo_on ("mpv " ++ path) host
    rw [echoed]
    exact .of_console rfl rfl rfl rfl rfl
  · intro result host given after gives _
    obtain ⟨_, between, required, -⟩ := Run.exists_of_bind_ok gives
    exact ok_of_requireOk (Run.exists_of_ofExcept_ok required).1

/-- A run of compiled commands numbers them, and none if it only shows them. -/
theorem run_numbers (p : Project) (runs : List Invocation) :
    Numbers runs.length ((run (some runs)).runOn p) fun result => result.isSome := by
  rw [runOn_run_some]
  split
  · have shown : Numbers 0 (rehearse p.settings.ffmpeg runs) fun _ => True :=
      .of_numbered fun host quiet _ => by
        rw [rehearse, on_bind, on_get]
        dsimp only
        rw [if_pos quiet]
        exact .refl host
    exact shown.bind_still fun _ => .pure_of_not (by simp)
  · refine (Numbers.ofExcept _).bind_still fun output => ?_
    exact (renderTo_numbers output (p.runPasses_numbers runs)).bind (k := 0) (fun _ => .pure _)
      fun _ _ _ _ _ _ => trivial

end Project

end Reel
