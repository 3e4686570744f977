import Reel.Proofs.Host.Passes

/-!
# Rows of commands

Invocations are run one after the other, each through whoever runs programs or through whoever
runs lines of the shell, and none behind the first that fails. The result is that of the last one
that ran, so it is a failure exactly if one of them failed.

Who runs the commands is left open. All that is asked is an answer to each of them: a code and a
text.
-/
namespace Reel

/-- What has to be run for an invocation: a program with its arguments, or a line of the shell. -/
inductive Order where
  | program (words : List Value)
  | line (text : String)

def Invocation.order (program : Value) (i : Invocation) : Except Error Order :=
  match i.shellCommand with
  | .null => .ok (.program (program :: i.arguments))
  | _ => (i.commandLine program).map .line

namespace Invocation

variable {i : Invocation}

theorem order_program (program : Value) (h : i.shellCommand = .null) :
    i.order program = .ok (.program (program :: i.arguments)) := by
  rw [order, h]

theorem order_line (program : Value) (h : i.shellCommand ≠ .null) :
    i.order program = (i.commandLine program).map .line := by
  unfold order
  split
  · next shell => exact (h shell).elim
  · rfl

end Invocation

/-- An invocation that ran, and how it ended. -/
abbrev Ending := Invocation × PipelineResult

/-- The invocations of a row that ran: those in front, up to the first failure. -/
structure UpToFailure (runs : List Invocation) (before : List Ending) (last : Ending) : Prop where
  front : before.map Prod.fst ++ [last.1] <+: runs
  succeeded : ∀ e ∈ before, e.2.returnCode = 0
  whole : last.2.returnCode = 0 → before.map Prod.fst ++ [last.1] = runs

namespace UpToFailure

variable {first : Invocation} {rest : List Invocation} {e last : Ending} {before : List Ending}

theorem failure (given : e.1 = first) (failed : e.2.returnCode ≠ 0) :
    UpToFailure (first :: rest) [] e := by
  constructor
  · simp [given]
  · simp
  · exact fun succeeds => (failed succeeds).elim

theorem single (given : e.1 = first) : UpToFailure [first] [] e := by
  constructor <;> simp [given]

theorem behind (given : e.1 = first) (succeeds : e.2.returnCode = 0)
    (h : UpToFailure rest before last) : UpToFailure (first :: rest) (e :: before) last := by
  constructor
  · rw [List.map_cons, List.cons_append, given]
    exact (List.prefix_cons_inj first).mpr h.front
  · exact List.forall_mem_cons.mpr ⟨succeeds, h.succeeded⟩
  · intro all
    rw [List.map_cons, List.cons_append, given, h.whole all]

theorem fails_iff {runs : List Invocation} (h : UpToFailure runs before last) :
    last.2.returnCode ≠ 0 ↔ ∃ e ∈ before ++ [last], e.2.returnCode ≠ 0 := by
  constructor
  · exact fun failed => ⟨last, by simp, failed⟩
  · rintro ⟨e, he, failed⟩
    rcases List.mem_append.mp he with earlier | final
    · exact (failed (h.succeeded e earlier)).elim
    · obtain rfl := List.mem_singleton.mp final
      exact failed

end UpToFailure

namespace PipelineResult

theorem ok_iff (r : PipelineResult) : r.ok = true ↔ r.returnCode = 0 := by
  simp [ok]

/-- Nothing but the code decides whether a result is let pass. -/
theorem requireOk_eq_ok_iff (r : PipelineResult) : r.requireOk = .ok () ↔ r.returnCode = 0 := by
  rw [← ok_iff, requireOk]
  cases r.ok with
  | true => simp
  | false => cases r.pass.toText <;> simp [bind, Except.bind, throw, throwThe, MonadExceptOf.throw]

/-- A failure carries the code, the text and the pass, if the pass can be written at all. -/
theorem requireOk_eq_failed_iff {r : PipelineResult} (legible : r.pass.isLegible = true) :
    r.requireOk = .error (.failed ⟨r.returnCode, r.diagnostic, r.pass⟩) ↔ r.returnCode ≠ 0 := by
  have written : r.pass.toText = .ok r.pass.shown := by rw [Value.toText, if_pos legible]
  rw [ne_eq, ← ok_iff, requireOk, written]
  cases r.ok with
  | true => simp
  | false => simp [bind, Except.bind, throw, throwThe, MonadExceptOf.throw]

end PipelineResult

namespace Runner

/-- Runs what has to be run: a program through the one, a line through the other. -/
def obey (r : Runner) : Order → Run (Int × String)
  | .program words => r.command words
  | .line text => r.shell text

/-- Invocations run in order, each with how it ends, from one machine to another. -/
inductive Executes (r : Runner) : Host → List Ending → Host → Prop
  | done (host : Host) : Executes r host [] host
  | next {i : Invocation} {order : Order} {code : Int} {diagnostic : String}
      {host middle after : Host} {rest : List Ending} : i.order r.program = .ok order →
      (r.obey order).on host = (.ok (code, diagnostic), middle) → Executes r middle rest after →
      Executes r host ((i, { returnCode := code, diagnostic, pass := i.pass }) :: rest) after

/-- Each invocation of a row can be put as an order, and on machines that are fit for it whatever
is ordered ends with a code and a text. Running it leaves the machine fit. -/
def Answers (r : Runner) (fit : Host → Prop) (runs : List Invocation) : Prop :=
  ∀ i ∈ runs, ∃ order, i.order r.program = .ok order ∧ ∀ host, fit host →
    ∃ code diagnostic after, (r.obey order).on host = (.ok (code, diagnostic), after) ∧ fit after

variable {r : Runner} {fit : Host → Prop} {runs : List Invocation}

theorem Executes.pass_eq {host after : Host} {row : List Ending} (h : r.Executes host row after) :
    ∀ e ∈ row, e.2.pass = e.1.pass := by
  induction h with
  | done => simp
  | next _ _ _ ih => exact List.forall_mem_cons.mpr ⟨rfl, ih⟩

/-- An invocation is one order, and its result is what that ends with, with the pass. -/
theorem invocation_eq (r : Runner) (i : Invocation) :
    r.invocation i = Run.ofExcept (i.order r.program) >>= fun order => do
      let (returnCode, diagnostic) ← r.obey order
      return { returnCode, diagnostic, pass := i.pass } := by
  unfold invocation
  split
  · next shell =>
      rw [Invocation.order_program r.program shell]
      rfl
  · next shell =>
      rw [Invocation.order_line r.program shell]
      cases i.commandLine r.program with
      | ok line => rfl
      | error e => rfl

theorem invocation_on {i : Invocation} {order : Order} (given : i.order r.program = .ok order)
    {host after : Host} {code : Int} {diagnostic : String}
    (ran : (r.obey order).on host = (.ok (code, diagnostic), after)) :
    (r.invocation i).on host =
      (.ok { returnCode := code, diagnostic, pass := i.pass }, after) := by
  rw [invocation_eq, given, Run.on_bind, Run.on_ofExcept]
  dsimp only
  rw [Run.on_bind, ran]
  rfl

/-- A row is run up to its first failure, with the result of the last invocation that ran. -/
theorem passes_on (nonempty : runs ≠ []) (answers : r.Answers fit runs) {host : Host}
    (ready : fit host) : ∃ before last after, r.Executes host (before ++ [last]) after ∧
      UpToFailure runs before last ∧ (r.passes runs).on host = (.ok last.2, after) := by
  induction runs generalizing host with
  | nil => exact (nonempty rfl).elim
  | cons first rest ih =>
      obtain ⟨order, given, runs⟩ := answers first (List.mem_cons_self ..)
      obtain ⟨code, diagnostic, middle, ran, still⟩ := runs host ready
      let result : PipelineResult := { returnCode := code, diagnostic, pass := first.pass }
      have one : (r.invocation first).on host = (.ok result, middle) := invocation_on given ran
      have alone : r.Executes host [(first, result)] middle := .next given ran (.done middle)
      cases rest with
      | nil => exact ⟨[], (first, result), middle, alone, .single rfl, one⟩
      | cons second rest =>
          rw [passes.eq_3 r first _ (by simp), Run.on_bind, one]
          dsimp only
          split
          · next succeeds =>
              -- The rest runs on the machine that the first leaves.
              have others : r.Answers fit (second :: rest) :=
                fun i hi => answers i (List.mem_cons_of_mem _ hi)
              obtain ⟨before, last, after, executes, up, ends⟩ := ih (by simp) others still
              refine ⟨(first, result) :: before, last, after, .next given ran executes, ?_, ends⟩
              exact up.behind rfl ((PipelineResult.ok_iff result).mp succeeds)
          · next failed =>
              rw [PipelineResult.ok_iff] at failed
              exact ⟨[], (first, result), middle, alone, .failure rfl failed, rfl⟩

end Runner

/-- A machine that prints nothing, to which nobody listens, and on which every program starts. -/
structure Host.Obliging (host : Host) : Prop where
  quiet : host.quiet = true
  silent : host.listener = none
  commands : ∀ script ∈ host.commands, script.fault = none

namespace Run

variable {host : Host}

theorem beginCommand_on (obliging : host.Obliging) (command : String) :
    (beginCommand command).on host =
      (.ok (host.index + 1), { host with index := host.index + 1 }) := by
  simp [beginCommand, report, on_bind, obliging.quiet, obliging.silent]

theorem endCommand_on (obliging : host.Obliging) (command : String) (index : Nat)
    (started : Double) (returnCode : Int) (diagnostic : String) :
    (endCommand command index started returnCode diagnostic).on host = (.ok (), host) := by
  simp [endCommand, report, on_bind, obliging.silent]

theorem perform_obliging (obliging : host.Obliging) :
    ∃ ended after, perform.on host = (.ok (.ok ended), after) ∧ after.Obliging := by
  have faultless : (host.commands.headD {}).fault = none := by
    cases scripts : host.commands with
    | nil => rfl
    | cons script rest => exact obliging.commands script (by simp [scripts])
  have left : ∀ script ∈ host.commands.drop 1, script.fault = none :=
    fun script h => obliging.commands script (List.mem_of_mem_drop h)
  unfold perform
  simp only [on_bind, on_get, on_set, faultless]
  exact ⟨_, _, rfl, obliging.quiet, obliging.silent, left⟩

theorem start_obliging (obliging : host.Obliging) (words : List Value) :
    ∃ ended after, (start words).on host = (.ok (.ok ended), after) ∧ after.Obliging := by
  have recorded : { host with spawned := .arguments words true :: host.spawned }.Obliging :=
    ⟨obliging.quiet, obliging.silent, obliging.commands⟩
  obtain ⟨ended, after, ends, obliging⟩ := perform_obliging recorded
  refine ⟨ended, after, ?_, obliging⟩
  rw [start, on_bind, recordSpawn, on_modify]
  exact ends

/-- A program whose words can be written is run to its end. -/
theorem command_obliging (obliging : host.Obliging) {arguments : List Value}
    {words : List String} (written : arguments.mapM Value.toText = .ok words) :
    ∃ code diagnostic after, (command arguments).on host = (.ok (code, diagnostic), after) ∧
      after.Obliging := by
  have counted : { host with index := host.index + 1 }.Obliging :=
    ⟨obliging.quiet, obliging.silent, obliging.commands⟩
  obtain ⟨ended, after, ends, obliging'⟩ := start_obliging counted (Value.words words)
  refine ⟨ended.exitCode, Text.decodeLenient ended.diagnostic, after, ?_, obliging'⟩
  simp only [command, written, on_bind, on_ofExcept, beginCommand_on obliging, on_get, ends,
    on_pure, endCommand_on obliging']

theorem shell_obliging (obliging : host.Obliging) (line : String) :
    ∃ code diagnostic after, (shell line).on host = (.ok (code, diagnostic), after) ∧
      after.Obliging := by
  have begun : { host with
      index := host.index + 1, spawned := .shell line :: host.spawned }.Obliging :=
    ⟨obliging.quiet, obliging.silent, obliging.commands⟩
  obtain ⟨ended, after, ends, obliging'⟩ := perform_obliging begun
  refine ⟨ended.exitCode, Text.decodeLenient ended.diagnostic, after, ?_, obliging'⟩
  simp only [shell, startShell, recordSpawn, on_bind, beginCommand_on obliging, on_get, on_modify,
    ends, on_pure, endCommand_on obliging']

end Run

/-- The machine answers to invocations whose words and lines can be written. -/
theorem Runner.machine_answers (program : Value) {runs : List Invocation}
    (words : ∀ i ∈ runs, i.shellCommand = .null → ∃ ws, i.words program = .ok ws)
    (lines : ∀ i ∈ runs, i.shellCommand ≠ .null → ∃ line, i.commandLine program = .ok line) :
    ({ program } : Runner).Answers Host.Obliging runs := by
  intro i hi
  by_cases shell : i.shellCommand = .null
  · obtain ⟨ws, written⟩ := words i hi shell
    exact ⟨_, i.order_program program shell, fun host fit => Run.command_obliging fit written⟩
  · obtain ⟨line, written⟩ := lines i hi shell
    refine ⟨.line line, ?_, fun host fit => Run.shell_obliging fit line⟩
    rw [i.order_line program shell, written]
    rfl

/-- Whoever runs the commands: as long as each is answered with a code and a text, a row of
invocations is run in order up to the first failure and no further, programs through the one
runner and lines through the other. The result has the code, the text and the pass of the last
invocation that ran. It is let pass exactly if no invocation failed, and otherwise stops the
program as a failure with just these, whatever pass that can be written it has. -/
theorem passes_stop_at_first_failure (r : Runner) {fit : Host → Prop} {runs : List Invocation}
    (nonempty : runs ≠ []) (answers : r.Answers fit runs) {host : Host} (ready : fit host) :
    ∃ before last after, r.Executes host (before ++ [last]) after ∧
      UpToFailure runs before last ∧ (r.passes runs).on host = (.ok last.2, after) ∧
      (last.2.requireOk = .ok () ↔ ∀ e ∈ before ++ [last], e.2.returnCode = 0) ∧
      (last.1.pass.isLegible = true →
        (last.2.requireOk = .error (.failed ⟨last.2.returnCode, last.2.diagnostic, last.1.pass⟩) ↔
          ∃ e ∈ before ++ [last], e.2.returnCode ≠ 0)) := by
  obtain ⟨before, last, after, executes, up, ends⟩ := r.passes_on nonempty answers ready
  refine ⟨before, last, after, executes, up, ends, ?_, fun legible => ?_⟩
  · have fails := not_congr up.fails_iff
    push Not at fails
    exact last.2.requireOk_eq_ok_iff.trans fails
  · rw [← executes.pass_eq last (by simp)] at legible ⊢
    exact (PipelineResult.requireOk_eq_failed_iff legible).trans up.fails_iff

/-- Two passes with a line of the shell between them. -/
def mixedRow : List Invocation :=
  [{ arguments := ["-pass", "1", "out.mp4"], pass := .int 1 },
    { shellCommand := "-i 'a b.mp4' c.mp4" },
    { arguments := ["-pass", "2", "out.mp4"], pass := .int 2 }]

/-- A machine whose disk is full when the second command runs. -/
def fullDisk : Host :=
  { commands := [{}, { exitCode := 3, diagnostic := "disk full".toUTF8.toList }], quiet := true }

theorem mixedRow_stops_at_line :
    ∃ before last after, ({ program := "ffmpeg" } : Runner).Executes fullDisk (before ++ [last])
        after ∧ UpToFailure mixedRow before last ∧ last.2 = ⟨3, "disk full", .null⟩ ∧
      last.2.requireOk = .error (.failed ⟨3, "disk full", .null⟩) := by
  have obliging : fullDisk.Obliging := ⟨rfl, rfl, by decide⟩
  have words : ∀ i ∈ mixedRow, (i.words "ffmpeg").isOk = true := by decide +kernel
  have lines : ∀ i ∈ mixedRow, (i.commandLine "ffmpeg").isOk = true := by decide +kernel
  have answers : ({ program := "ffmpeg" } : Runner).Answers Host.Obliging mixedRow := by
    apply Runner.machine_answers
    · exact fun i hi _ => exists_of_isOk (words i hi)
    · exact fun i hi _ => exists_of_isOk (lines i hi)
  obtain ⟨before, last, after, executes, up, ends, -, fails⟩ :=
    passes_stop_at_first_failure { program := "ffmpeg" } (by simp [mixedRow]) answers obliging
  have result : ((Run.passes "ffmpeg" mixedRow).on fullDisk).1 = .ok ⟨3, "disk full", .null⟩ := by
    decide +kernel
  have found : last.2 = ⟨3, "disk full", .null⟩ := by
    have same := congrArg Prod.fst ends
    exact (Except.ok.inj (result.symm.trans same)).symm
  have pass : last.1.pass = .null := by rw [← executes.pass_eq last (by simp), found]
  refine ⟨before, last, after, executes, up, found, ?_⟩
  rw [found, pass] at fails
  rw [found]
  exact (fails rfl).mpr ⟨last, by simp, by simp [found]⟩

end Reel
