import Reel.Proofs.Pipeline.Launches
import Reel.Proofs.Project.Twins

/-!
# How far a row of commands comes

A row is run up to the first command that fails or does not start, and this command is the last
one that is started. A listener that stops the program and an echo whose number cannot be written
end it before, and nothing else does.
-/
namespace Reel

namespace CommandScript

/-- The command starts and ends with the code zero. -/
def succeeds (script : CommandScript) : Bool := script.fault.isNone && script.exitCode == 0

/-- The commands of a row up to the first that does not succeed, each with its own outcome. -/
def reached : List CommandScript → List (List String) → List (List String)
  | _, [] => []
  | scripts, words :: rest =>
    if (scripts.headD {}).succeeds then words :: reached (scripts.drop 1) rest else [words]

variable {scripts : List CommandScript} {words : List String} {rest : List (List String)}

theorem reached_of_succeeds (h : (scripts.headD {}).succeeds = true) :
    reached scripts (words :: rest) = words :: reached (scripts.drop 1) rest := by
  rw [reached, if_pos h]

theorem reached_of_fails (h : (scripts.headD {}).succeeds = false) :
    reached scripts (words :: rest) = [words] := by
  rw [reached, h]
  rfl

theorem reached_singleton (scripts : List CommandScript) (words : List String) :
    reached scripts [words] = [words] := by
  unfold reached
  split <;> rfl

theorem singleton_prefix_reached (scripts : List CommandScript) (words : List String)
    (rest : List (List String)) : [words] <+: reached scripts (words :: rest) := by
  unfold reached
  split <;> simp

example : reached [{}, { exitCode := 1 }] [["first"], ["second"], ["third"]] =
    [["first"], ["second"]] := by rfl

end CommandScript

open CommandScript

theorem Run.Still.keeps {α : Type} {run : Run α} (h : Still run) (host : Host) :
    (run.on host).2.spawned = host.spawned ∧ (run.on host).2.commands = host.commands := by
  obtain ⟨started, ran, ends⟩ := h host
  obtain rfl : started = [] := by
    split at ends
    · exact ends
    · exact ends
  obtain ⟨k, le, commands, -⟩ := ran.files
  obtain rfl : k = 0 := Nat.le_zero.mp le
  exact ⟨ran.spawned, commands⟩

namespace Launch

variable {script : CommandScript} {answer : Int × String} {host : Host}

theorem settle_of_ok {l : Launch} (h : l.settle script.outcome = .ok answer) :
    (answer.1 == 0) = script.succeeds := by
  unfold CommandScript.outcome at h
  unfold CommandScript.succeeds
  cases fault : script.fault with
  | none =>
      rw [fault] at h
      cases l with
      | program words => rw [← Except.ok.inj h]; rfl
      | line text => rw [← Except.ok.inj h]; rfl
  | some cause =>
      rw [fault] at h
      cases l with
      | line text => cases h
      | program words =>
          cases cause with
          | missing => rw [← Except.ok.inj h]; rfl
          | _ => cases h

theorem exists_settle_of_succeeds (l : Launch) (h : script.succeeds = true) :
    ∃ answer, l.settle script.outcome = .ok answer := by
  obtain ⟨started, -⟩ := Bool.and_eq_true_iff.mp h
  rw [CommandScript.outcome, Option.isNone_iff_eq_none.mp started]
  cases l <;> exact ⟨_, rfl⟩

/-- How an order goes once it is started: it takes one outcome of the script, and a success is
answered unless the console stops it. -/
structure Taken (l : Launch) (host after : Host) (ended : Except Error (Int × String)) : Prop where
  spawned : after.spawned = l.spawn :: host.spawned
  commands : after.commands = host.commands.drop 1
  answers : ∀ answer, ended = .ok answer → (answer.1 == 0) = (host.commands.headD {}).succeeds
  patient : ∀ more, host.Patient more → (host.commands.headD {}).succeeds = true →
    (∃ answer, ended = .ok answer) ∧ after.Patient more

theorem taken_of_begun (l : Launch) (index : Nat) (host : Host) :
    let rest : Run (Int × String) := do
      let answer ← Run.ofExcept (l.settle (← l.start))
      Run.endCommand l.shown index host.clock answer.1 answer.2
      return answer
    l.Taken host (rest.on host).2 (rest.on host).1 := by
  intro rest
  obtain ⟨clock, performs⟩ := Run.perform_on { host with spawned := l.spawn :: host.spawned }
  let script := host.commands.headD {}
  let left : Host := { host with
    spawned := l.spawn :: host.spawned, commands := host.commands.drop 1, clock
    files := script.leave host.files }
  have starts : l.start.on host = (.ok script.outcome, left) := by
    rw [start_eq, Run.on_bind, Run.recordSpawn, Run.on_modify]
    exact performs
  rw [Run.on_bind, starts]
  dsimp only
  rw [Run.on_bind, Run.on_ofExcept]
  cases settled : l.settle script.outcome with
  | error e =>
      refine ⟨rfl, rfl, (fun _ given => by cases given), fun more _ succeeds => ?_⟩
      obtain ⟨answer, answered⟩ := exists_settle_of_succeeds l succeeds
      rw [settled] at answered
      cases answered
  | ok answer =>
      dsimp only
      obtain ⟨spawned, commands⟩ :=
        (Run.endCommand_still l.shown index host.clock answer.1 answer.2).keeps left
      have tells {more : Nat} (patient : host.Patient more) :
          ∃ after, (Run.endCommand l.shown index host.clock answer.1 answer.2).on left =
            (.ok (), after) ∧ after.Patient more := by
        obtain ⟨_, after, ends, -, still⟩ := Run.endCommand_shows l.shown index host.clock answer.1
          answer.2 more left (patient.of_console rfl rfl rfl rfl)
        exact ⟨after, ends, still⟩
      rw [Run.on_bind]
      generalize (Run.endCommand l.shown index host.clock answer.1 answer.2).on left = told
        at spawned commands tells
      obtain ⟨outcome, after⟩ := told
      cases outcome with
      | error e =>
          refine ⟨spawned, commands, (fun _ given => by cases given), fun more patient _ => ?_⟩
          obtain ⟨_, ends, -⟩ := tells patient
          cases ends
      | ok _ =>
          refine ⟨spawned, commands, fun given h => ?_, fun more patient _ => ⟨⟨answer, rfl⟩, ?_⟩⟩
          · rw [← Except.ok.inj h]
            exact settle_of_ok settled
          · obtain ⟨_, ends, still⟩ := tells patient
            exact (Prod.mk.inj ends).2 ▸ still

theorem run_taken (l : Launch) (host : Host) :
    (∃ e, (l.run.on host).1 = .error e ∧ (l.run.on host).2.spawned = host.spawned ∧
      ¬ host.Patient 1) ∨
    ∃ begun : Host, begun.spawned = host.spawned ∧ begun.commands = host.commands ∧
      (∀ more, host.Patient (more + 1) → begun.Patient more) ∧
      l.Taken begun (l.run.on host).2 (l.run.on host).1 := by
  obtain ⟨spawned, commands⟩ := (Run.beginCommand_still l.shown).keeps host
  have shows (more : Nat) (patient : host.Patient (more + 1)) :
      ∃ index begun, (Run.beginCommand l.shown).on host = (.ok index, begun) ∧
        begun.Patient more := by
    obtain ⟨index, begun, begins, -, still⟩ := Run.beginCommand_shows l.shown more host patient
    exact ⟨index, begun, begins, still⟩
  rw [run, Run.on_bind]
  generalize (Run.beginCommand l.shown).on host = begins at spawned commands shows
  obtain ⟨outcome, begun⟩ := begins
  cases outcome with
  | error e =>
      refine .inl ⟨e, rfl, spawned, fun patient => ?_⟩
      obtain ⟨_, _, begins, -⟩ := shows 0 patient
      cases begins
  | ok index =>
      refine .inr ⟨begun, spawned, commands, fun more patient => ?_, taken_of_begun l index begun⟩
      obtain ⟨_, _, begins, still⟩ := shows more patient
      exact (Prod.mk.inj begins).2 ▸ still

end Launch

namespace Run

variable {program : Value} {i : Invocation} {words : List String} {host : Host}

/-- How an invocation goes on a machine: the console stops it before it is started, or it takes
one outcome of the script. -/
theorem invocation_reaches (plain : i.shellCommand = .null) (written : i.words program = .ok words)
    (host : Host) :
    let ran := (invocation program i).on host
    let succeeds := (host.commands.headD {}).succeeds
    ((∃ e, ran.1 = .error e) ∧ ran.2.spawned = host.spawned ∧ ¬ host.Patient 1) ∨
    (ran.2.spawned = .ofWords words :: host.spawned ∧ ran.2.commands = host.commands.drop 1 ∧
      (∀ result, ran.1 = .ok result → result.ok = succeeds) ∧
      ∀ more, host.Patient (more + 1) → succeeds = true →
        (∃ result, ran.1 = .ok result) ∧ ran.2.Patient more) := by
  have steps : invocation program i = (Launch.program words).run >>= fun answer =>
      return { returnCode := answer.1, diagnostic := answer.2, pass := i.pass } := by
    rw [invocation, Runner.invocation, plain]
    exact (congrArg (· >>= _) (command_eq _)).trans (by rw [← Invocation.words, written]; rfl)
  rw [steps, on_bind]
  rcases (Launch.program words).run_taken host with
    ⟨e, stopped, spawned, console⟩ | ⟨begun, spawned, commands, still, taken⟩
  · generalize (Launch.program words).run.on host = ran at stopped spawned
    obtain ⟨outcome, after⟩ := ran
    obtain rfl : outcome = .error e := stopped
    exact .inl ⟨⟨e, rfl⟩, spawned, console⟩
  · obtain ⟨spawned', commands', answers, patient⟩ := taken
    rw [spawned] at spawned'
    rw [commands] at commands' answers patient
    generalize (Launch.program words).run.on host = ran at spawned' commands' answers patient
    obtain ⟨outcome, after⟩ := ran
    cases outcome with
    | error e =>
        refine .inr ⟨spawned', commands', (fun _ given => by cases given),
          fun more calm succeeds => ?_⟩
        obtain ⟨⟨_, given⟩, -⟩ := patient more (still more calm) succeeds
        cases given
    | ok answer =>
        refine .inr ⟨spawned', commands', fun result h => ?_, fun more calm succeeds => ?_⟩
        · rw [← Except.ok.inj h]
          exact answers answer rfl
        · exact ⟨⟨_, rfl⟩, (patient more (still more calm) succeeds).2⟩

/-- The commands of a row that a run of it has started when it ends. -/
structure Reaches (words : List (List String)) (host after : Host)
    (ended : Except Error PipelineResult) (started : List (List String)) : Prop where
  spawned : after.spawned = (started.map Spawn.ofWords).reverse ++ host.spawned
  front : started <+: reached host.commands words
  whole : ∀ result, ended = .ok result → result.ok = true → started = words
  patient : host.Patient words.length → started = reached host.commands words

namespace Reaches

variable {after middle : Host} {others started : List (List String)}
  {ended : Except Error PipelineResult}

theorem of_console {e : Error} (spawned : after.spawned = host.spawned)
    (console : ¬ host.Patient 1) : Reaches (words :: others) host after (.error e) [] where
  spawned := spawned
  front := List.nil_prefix
  whole := nofun
  patient calm := (console (calm.mono (by simp))).elim

theorem of_first (spawned : after.spawned = .ofWords words :: host.spawned)
    (all : ∀ result, ended = .ok result → result.ok = true → others = [])
    (last : host.Patient (others.length + 1) →
      reached host.commands (words :: others) = [words]) :
    Reaches (words :: others) host after ended [words] where
  spawned := spawned
  front := singleton_prefix_reached ..
  whole result given succeeds := by rw [all result given succeeds]
  patient calm := (last calm).symm

theorem cons (spawned : middle.spawned = .ofWords words :: host.spawned)
    (commands : middle.commands = host.commands.drop 1)
    (succeeds : (host.commands.headD {}).succeeds = true)
    (calm : host.Patient (others.length + 1) → middle.Patient others.length)
    (further : Reaches others middle after ended started) :
    Reaches (words :: others) host after ended (words :: started) where
  spawned := by
    rw [further.spawned, spawned, List.map_cons, List.reverse_cons, List.append_assoc]
    rfl
  front := by
    rw [reached_of_succeeds succeeds, ← commands]
    exact List.cons_prefix_cons.mpr ⟨rfl, further.front⟩
  whole result given good := by rw [further.whole result given good]
  patient patient := by
    rw [reached_of_succeeds succeeds, ← commands, further.patient (calm patient)]

end Reaches

/-- A row is run up to the first command that does not succeed, unless the console stops it. -/
theorem passes_reach {runs : List Invocation} {words : List (List String)}
    (plain : ∀ i ∈ runs, i.shellCommand = .null)
    (all : List.Forall₂ (fun i ws => i.words program = .ok ws) runs words) (host : Host) :
    ∃ started, Reaches words host ((passes program runs).on host).2
      ((passes program runs).on host).1 started := by
  -- Every start takes an outcome, so the machine of the rest has those behind it.
  induction all generalizing host with
  | nil => exact ⟨[], rfl, List.nil_prefix, nofun, fun _ => rfl⟩
  | @cons first ws rest others written all ih =>
      rw [List.forall_mem_cons] at plain
      have one := invocation_reaches plain.1 written host
      cases all with
      | nil =>
          have last : passes program [first] = invocation program first := rfl
          rw [last]
          rcases one with ⟨⟨e, stopped⟩, spawned, console⟩ | ⟨spawned, -⟩
          · rw [stopped]
            exact ⟨[], .of_console spawned console⟩
          · exact ⟨[ws], .of_first spawned (fun _ _ _ => rfl) fun _ => reached_singleton ..⟩
      | @cons second ws' rest others written' all =>
          have further := ih plain.2
          have steps : passes program (first :: second :: rest) =
              invocation program first >>= fun result =>
                if result.ok then passes program (second :: rest) else return result := rfl
          rw [steps, on_bind]
          generalize (invocation program first).on host = ran at one
          obtain ⟨outcome, middle⟩ := ran
          rcases one with ⟨⟨e, stopped⟩, spawned, console⟩ | ⟨spawned, commands, answers, patient⟩
          · obtain rfl : outcome = .error e := stopped
            exact ⟨[], .of_console spawned console⟩
          · dsimp only at spawned commands answers patient
            cases outcome with
            | error e =>
                refine ⟨[ws], .of_first spawned nofun fun calm => ?_⟩
                cases succeeds : (host.commands.headD {}).succeeds with
                | false => exact reached_of_fails succeeds
                | true =>
                    obtain ⟨⟨_, given⟩, -⟩ := patient _ calm succeeds
                    cases given
            | ok result =>
                dsimp only
                have ok := answers result rfl
                cases succeeds : (host.commands.headD {}).succeeds with
                | false =>
                    rw [ok, succeeds, if_neg Bool.false_ne_true]
                    refine ⟨[ws], .of_first spawned (fun given h good => ?_)
                      fun _ => reached_of_fails succeeds⟩
                    rw [← Except.ok.inj h, ok, succeeds] at good
                    cases good
                | true =>
                    rw [ok, succeeds, if_pos rfl]
                    obtain ⟨started, reaches⟩ := further middle
                    exact ⟨ws :: started, reaches.cons spawned commands succeeds
                      fun calm => (patient _ calm succeeds).2⟩

end Run

namespace Project

open Run

/-- A render of a project runs its row as far as it comes, once the directory of its output is
made, and all of it if it gives a result. -/
theorem render_reaches (p : Project) (output : Value) {runs : List Invocation}
    {words : List (List String)} (plain : ∀ i ∈ runs, i.shellCommand = .null)
    (all : List.Forall₂ (fun i ws => i.words p.encoderProgram = .ok ws) runs words) (host : Host) :
    ∃ started, ((renderTo output (p.runPasses runs)).on host).2.spawned =
        (started.map Spawn.ofWords).reverse ++ host.spawned ∧
      started <+: reached host.commands words ∧
      (∀ result, ((renderTo output (p.runPasses runs)).on host).1 = .ok result →
        started = words) ∧
      (host.Patient words.length → started = reached host.commands words ∨
        started = [] ∧ ∃ e, ((makeDirectoryOf output).on host).1 = .error e) := by
  rcases renderTo_on output (p.runPasses runs) host with
    ⟨e, files, unmade, stopped⟩ | ⟨files, -, spawned, -, gives⟩
  · rw [stopped]
    exact ⟨[], rfl, List.nil_prefix, nofun, fun _ => .inr ⟨rfl, e, unmade⟩⟩
  · obtain ⟨started, reaches⟩ := passes_reach plain all { host with files }
    obtain ⟨cleans, ended⟩ := p.runPasses_cleans runs { host with files }
    rw [cleans] at spawned
    refine ⟨started, spawned.trans reaches.spawned, reaches.front, fun result given => ?_,
      fun calm => .inl (reaches.patient (calm.of_console rfl rfl rfl rfl))⟩
    obtain ⟨passed, succeeds⟩ := gives result given
    exact reaches.whole result (ended result passed) succeeds

end Project

end Reel
