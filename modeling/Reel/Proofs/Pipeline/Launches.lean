import Reel.Proofs.Pipeline.Numbering
import Reel.Proofs.Pipeline.Rows

/-!
# How a command goes

A program with its arguments and a line of the shell are run in the same way. The command is
counted, echoed and reported, then it is launched, and how that turns out is settled: it is an
answer, which is reported and returned, or it stops the program. What becomes of the machine is
said here once for every command.
-/
namespace Reel

/-- An order in writing. -/
inductive Launch where
  | program (words : List String)
  | line (text : String)

def Order.launch : Order → Except Error Launch
  | .program words => (words.mapM Value.toText).map .program
  | .line text => .ok (.line text)

namespace Launch

def shown : Launch → String
  | .program words => Shell.join words
  | .line text => Run.condense text

def spawn : Launch → Spawn
  | .program words => .ofWords words
  | .line text => .shell text

def start : Launch → Run (Except StartFault Ended)
  | .program words => Run.start (Value.words words)
  | .line text => Run.startShell text

/-- What a fault of the launch is said to be about. -/
def name : Launch → String
  | .program words => words.headD ""
  | .line text => text

/-- What is answered, or what stops the program. A program that is not found is answered for. -/
def settle : Launch → Except StartFault Ended → Except Error (Int × String)
  | .program words, .error .missing =>
    .ok (notFoundCode, "command not found: " ++ words.headD "")
  | launch, .error fault => .error (fault.error launch.name)
  | _, .ok ended => .ok (ended.exitCode, Text.decodeLenient ended.diagnostic)

def run (l : Launch) : Run (Int × String) := do
  let index ← Run.beginCommand l.shown
  let started := (← get).clock
  let (code, diagnostic) ← Run.ofExcept (l.settle (← l.start))
  Run.endCommand l.shown index started code diagnostic
  return (code, diagnostic)

end Launch

namespace Run

open Launch

theorem command_eq (arguments : List Value) :
    command arguments = ofExcept (arguments.mapM Value.toText) >>= fun words =>
      (Launch.program words).run := by
  unfold command
  refine bind_congr fun words => bind_congr fun index => bind_congr fun host =>
    bind_congr fun outcome => ?_
  cases outcome with
  | ok ended => rfl
  | error fault => cases fault <;> rfl

theorem shell_eq (line : String) : shell line = (Launch.line line).run := by
  unfold shell
  refine bind_congr fun index => bind_congr fun host => bind_congr fun outcome => ?_
  cases outcome with
  | ok ended => rfl
  | error fault => rfl

/-- The machine puts what is ordered into writing and runs it. -/
theorem obey_eq (program : Value) (order : Order) :
    ({ program } : Runner).obey order = ofExcept order.launch >>= Launch.run := by
  cases order with
  | program words =>
      have written (texts : Except Error (List String)) :
          ofExcept (texts.map Launch.program) >>= Launch.run =
            ofExcept texts >>= fun words => (Launch.program words).run := by
        cases texts <;> rfl
      exact (command_eq words).trans (written _).symm
  | line text => exact shell_eq text

theorem exists_launch_of_ok {order : Order} {host after : Host} {answer : Int × String}
    (ends : (ofExcept order.launch >>= Launch.run).on host = (.ok answer, after)) :
    ∃ launch, order.launch = .ok launch ∧ launch.run.on host = (.ok answer, after) := by
  obtain ⟨launch, same, written, runs⟩ := exists_of_bind_ok ends
  obtain ⟨given, rfl⟩ : order.launch = .ok launch ∧ host = same :=
    (exists_of_ofExcept_ok written).imp_right Eq.symm
  exact ⟨launch, given, runs⟩

end Run

namespace Host

/-- What was printed once a command is echoed. -/
def echoed (host : Host) (command : String) : Except Error (List String) :=
  if host.quiet then .ok host.printed
  else (commandPrefix (.int (host.index + 1 : Nat)) host.total).map fun place =>
    ((if place = "" then "" else place ++ " ") ++ "CMD: '" ++ command ++ "'" ++ "\n") ::
      host.printed

def startReport (host : Host) (command : String) : Report :=
  .started command (host.index + 1) host.total host.clock

def begun (host : Host) (command : String) (printed : List String) : Host :=
  { host with
    index := host.index + 1, printed, reports := host.startReport command :: host.reports }

def endReport (host : Host) (command : String) (index : Nat) (started : Double)
    (answer : Int × String) : Report :=
  .ended command index host.total answer.1 (host.clock.sub started) answer.2 host.clock

end Host

namespace Run

variable {host after : Host} {l : Listener}

theorem beginCommand_listened (listens : host.listener = some l) (command : String) :
    (beginCommand command).on host = match host.echoed command with
      | .error e => (.error e, { host with index := host.index + 1 })
      | .ok printed => ((l (host.startReport command :: host.reports)).map fun _ => host.index + 1,
          host.begun command printed) := by
  have told (printed : List String) :
      (do report (host.startReport command); return host.index + 1 : Run Nat).on
        { host with index := host.index + 1, printed } =
      ((l (host.startReport command :: host.reports)).map fun _ => host.index + 1,
        host.begun command printed) := by
    have counted : ({ host with index := host.index + 1, printed } : Host).listener = some l :=
      listens
    rw [on_bind, report_on _ _ counted]
    dsimp only
    cases l (host.startReport command :: host.reports) <;> rfl
  rw [beginCommand, on_bind, on_modify]
  dsimp only
  rw [on_bind, on_get]
  dsimp only
  unfold Host.echoed
  split
  · exact told host.printed
  · rw [on_bind, on_ofExcept]
    cases commandPrefix (.int (host.index + 1 : Nat)) host.total with
    | error e => rfl
    | ok place => exact told _

theorem beginCommand_of_ok (listens : host.listener = some l) {command : String} {index : Nat}
    (begins : (beginCommand command).on host = (.ok index, after)) :
    index = host.index + 1 ∧ ∃ printed, after = host.begun command printed := by
  rw [beginCommand_listened listens] at begins
  split at begins
  · cases begins
  · next printed _ =>
      obtain ⟨heard, rfl⟩ := Prod.mk.inj begins
      obtain ⟨_, -, rfl⟩ := exists_of_map_ok heard
      exact ⟨rfl, printed, rfl⟩

theorem endCommand_listened (listens : host.listener = some l) (command : String) (index : Nat)
    (started : Double) (answer : Int × String) :
    (endCommand command index started answer.1 answer.2).on host =
      (l (host.endReport command index started answer :: host.reports),
        { host with reports := host.endReport command index started answer :: host.reports }) := by
  rw [endCommand, on_bind, on_get]
  exact report_on host _ listens

end Run

namespace Launch

open Run

variable {host begun ended after : Host} {index : Nat} {outcome : Except StartFault Ended}
  {answer : Int × String}

theorem start_eq (l : Launch) : l.start = recordSpawn l.spawn >>= fun _ => perform := by
  cases l <;> rfl

/-- A start is recorded and turns out in some way. The console is not touched. -/
theorem start_on (l : Launch) (host : Host) :
    ∃ outcome files commands clock, l.start.on host = (.ok outcome,
      { host with files, commands, clock, spawned := l.spawn :: host.spawned }) := by
  rw [start_eq, on_bind, recordSpawn, on_modify]
  obtain ⟨clock, ends⟩ := perform_on { host with spawned := l.spawn :: host.spawned }
  exact ⟨_, _, _, clock, ends⟩

theorem exists_of_settle_error {l : Launch} {e : Error} (h : l.settle outcome = .error e) :
    ∃ fault, outcome = .error fault ∧ e = fault.error l.name := by
  unfold settle at h
  split at h
  · cases h
  · next fault _ => exact ⟨fault, rfl, (Except.error.inj h).symm⟩
  · cases h

/-- A command that was begun goes as its launch is settled. -/
theorem run_on {listener : Listener} (l : Launch)
    (begins : (beginCommand l.shown).on host = (.ok index, begun))
    (starts : l.start.on begun = (.ok outcome, ended)) (listens : ended.listener = some listener) :
    l.run.on host = match l.settle outcome with
      | .error e => (.error e, ended)
      | .ok answer =>
        let r := ended.endReport l.shown index begun.clock answer
        ((listener (r :: ended.reports)).map fun _ => answer,
          { ended with reports := r :: ended.reports }) := by
  rw [run, on_bind, begins]
  dsimp only
  rw [on_bind, on_get]
  dsimp only
  rw [on_bind, starts]
  dsimp only
  rw [on_bind, on_ofExcept]
  cases l.settle outcome with
  | error e => rfl
  | ok answer =>
      dsimp only
      rw [on_bind, endCommand_listened listens]
      cases listener (ended.endReport l.shown index begun.clock answer :: ended.reports) <;> rfl

/-- A command that is answered was begun, launched and reported. -/
theorem run_of_ok {listener : Listener} {l : Launch} (listens : host.listener = some listener)
    (ends : l.run.on host = (.ok answer, after)) : ∃ printed files commands clock,
      let ended : Host := { host.begun l.shown printed with
        files, commands, clock, spawned := l.spawn :: host.spawned }
      after = { ended with
        reports :=
          ended.endReport l.shown (host.index + 1) host.clock answer :: ended.reports } := by
  obtain ⟨index, begun, begins, -⟩ := Run.exists_of_bind_ok ends
  obtain ⟨outcome, files, commands, clock, starts⟩ := l.start_on begun
  obtain ⟨rfl, printed, rfl⟩ := beginCommand_of_ok listens begins
  rw [l.run_on begins starts listens] at ends
  split at ends
  · cases ends
  · obtain ⟨told, rfl⟩ := Prod.mk.inj ends
    obtain ⟨_, -, rfl⟩ := exists_of_map_ok told
    exact ⟨printed, files, commands, clock, rfl⟩

end Launch

end Reel
