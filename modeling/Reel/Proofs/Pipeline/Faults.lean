import Reel.Proofs.Pipeline.Launches

/-!
# Launches that fail

In a row of invocations the launch of one can fail after its start was reported. If it is the
launch of a program that is not found, the command fails like any other: its end is reported, with
a code that is not zero, and the row ends with a failure. Every other fault stops the program in
the middle of the command, with its start reported and no end.
-/
namespace Reel

open Run

namespace Runner

variable {r : Runner} {host middle after : Host} {before : List Ending} {i : Invocation}
  {runs behind : List Invocation}

/-- Behind invocations that succeed, a row goes on with the others. -/
theorem Executes.passes_on (h : r.Executes host before middle)
    (succeeded : ∀ e ∈ before, e.2.returnCode = 0) (more : runs ≠ []) :
    (r.passes (before.map Prod.fst ++ runs)).on host = (r.passes runs).on middle := by
  induction h with
  | done host => rfl
  | @next i order code diagnostic host middle after rest given ran _ ih =>
      rw [List.forall_mem_cons] at succeeded
      have row : (rest.map Prod.fst ++ runs) ≠ [] := by simp [more]
      rw [List.map_cons, List.cons_append, passes.eq_3 r _ _ row, on_bind, invocation_on given ran]
      dsimp only
      rw [if_pos ((PipelineResult.ok_iff _).mpr succeeded.1)]
      exact ih succeeded.2

theorem Executes.single {order : Order} {answer : Int × String}
    (given : i.order r.program = .ok order) (ends : ((r.obey order).on host).1 = .ok answer) :
    r.Executes host [(i, ⟨answer.1, answer.2, i.pass⟩)] ((r.obey order).on host).2 :=
  .next given (Prod.ext ends rfl) (.done _)

/-- A row ends with its first invocation if that fails or is stopped. -/
theorem passes_cons_on {outcome : Except Error PipelineResult}
    (ends : (r.invocation i).on host = (outcome, after))
    (fails : ∀ result, outcome = .ok result → result.returnCode ≠ 0) :
    (r.passes (i :: behind)).on host = (outcome, after) := by
  cases behind with
  | nil => exact ends
  | cons next rest =>
      rw [passes.eq_3 r i _ (by simp), on_bind, ends]
      cases outcome with
      | error e => rfl
      | ok result =>
          have failed : ¬result.ok = true := fun succeeds =>
            fails result rfl ((PipelineResult.ok_iff result).mp succeeds)
          dsimp only
          rw [if_neg failed]
          rfl

end Runner

/-- Only one fault is answered for: that a program is not found. -/
theorem Launch.settle_fault (launch : Launch) (fault : StartFault) :
    (∃ words, launch = .program words ∧ fault = .missing ∧
      launch.settle (.error fault) =
        .ok (notFoundCode, "command not found: " ++ words.headD "")) ∨
    (¬(∃ words, launch = .program words ∧ fault = .missing) ∧
      launch.settle (.error fault) = .error (fault.error launch.name)) := by
  cases launch with
  | line text => exact .inr ⟨by simp, rfl⟩
  | program words =>
      cases fault with
      | missing => exact .inl ⟨words, rfl, rfl, rfl⟩
      | denied => exact .inr ⟨by simp, rfl⟩
      | refused => exact .inr ⟨by simp, rfl⟩
      | descriptors => exact .inr ⟨by simp, rfl⟩
      | timeout => exact .inr ⟨by simp, rfl⟩

/-- Programs are launched for the invocations without a line for the shell. -/
theorem Invocation.launches_program_iff {i : Invocation} {program : Value} {order : Order}
    {launch : Launch} (given : i.order program = .ok order) (written : order.launch = .ok launch) :
    (∃ words, launch = .program words) ↔ i.shellCommand = .null := by
  by_cases shell : i.shellCommand = .null
  · rw [i.order_program program shell] at given
    obtain rfl := Except.ok.inj given
    obtain ⟨words, -, rfl⟩ := exists_of_map_ok written
    simp [shell]
  · rw [i.order_line program shell] at given
    obtain ⟨line, -, rfl⟩ := exists_of_map_ok given
    obtain rfl : .line line = launch := Except.ok.inj written
    simp [shell]

theorem Runner.invocation_launch {i : Invocation} {program : Value} {order : Order}
    {launch : Launch} (given : i.order program = .ok order) (written : order.launch = .ok launch) :
    ({ program } : Runner).invocation i = do
      let (returnCode, diagnostic) ← launch.run
      return { returnCode, diagnostic, pass := i.pass } := by
  rw [invocation_eq, given]
  have obeyed : ({ program } : Runner).obey order = launch.run := by rw [obey_eq, written]; rfl
  rw [← obeyed]
  rfl

/-- A row of invocations of which some have succeeded when the next is begun and its launch
fails. -/
structure Stumble (program : Value) (host : Host) where
  before : List Ending
  invocation : Invocation
  behind : List Invocation
  launch : Launch
  fault : StartFault
  /-- The machine behind the invocations that succeeded. -/
  middle : Host
  /-- The machine on which the launch has failed. -/
  stopped : Host
  executed : ({ program } : Runner).Executes host before middle
  succeeded : ∀ e ∈ before, e.2.returnCode = 0
  written : ∃ order, invocation.order program = .ok order ∧ order.launch = .ok launch
  fails : ∃ index begun, (beginCommand launch.shown).on middle = (.ok index, begun) ∧
    launch.start.on begun = (.ok (.error fault), stopped)

namespace Stumble

variable {program : Value} {host : Host} {l : Listener}

def row (s : Stumble program host) : List Invocation :=
  s.before.map Prod.fst ++ s.invocation :: s.behind

/-- The command is a failed one: behind its start its end is reported with a code other than zero,
nothing else is run, and the result stops whoever asks that it be let pass. -/
def FailsAsCommand (s : Stumble program host) : Prop :=
  ∃ result after total seconds time, (passes program s.row).on host = (.ok result, after) ∧
    result.returnCode ≠ 0 ∧ after.spawned = s.stopped.spawned ∧
    after.reports = .ended s.launch.shown s.stopped.index total result.returnCode seconds
      result.diagnostic time :: s.stopped.reports ∧
    (s.invocation.pass.isLegible = true → result.requireOk =
      .error (.failed ⟨result.returnCode, result.diagnostic, s.invocation.pass⟩))

theorem listener_of_executes {row : List Ending} {after : Host} (listens : host.listener = some l)
    (h : ({ program } : Runner).Executes host row after) : after.listener = some l := by
  induction h with
  | done => exact listens
  | @next i order code diagnostic host middle after rest given ran _ ih =>
      rw [obey_eq] at ran
      obtain ⟨launch, -, runs⟩ := exists_launch_of_ok ran
      obtain ⟨printed, files, commands, clock, rfl⟩ := Launch.run_of_ok listens runs
      exact ih listens

variable (s : Stumble program host)

/-- The start was reported, and the launch is the last thing that was done. -/
structure Reached : Prop where
  listener : s.stopped.listener = host.listener
  index : s.stopped.index = s.middle.index + 1
  reports : s.stopped.reports = s.middle.startReport s.launch.shown :: s.middle.reports
  spawned : s.stopped.spawned = s.launch.spawn :: s.middle.spawned

theorem reached (listens : host.listener = some l) : s.Reached := by
  obtain ⟨index, begun, begins, starts⟩ := s.fails
  have heard := listener_of_executes listens s.executed
  obtain ⟨rfl, printed, rfl⟩ := beginCommand_of_ok heard begins
  obtain ⟨_, files, commands, clock, launched⟩ :=
    s.launch.start_on (s.middle.begun s.launch.shown printed)
  obtain ⟨-, stopped⟩ := Prod.mk.inj (starts.symm.trans launched)
  constructor <;> rw [stopped]
  · exact heard.trans listens.symm
  · rfl
  · rfl
  · rfl

/-- The machine once the end of the command is reported. -/
def told (answer : Int × String) : Host :=
  { s.stopped with
    reports := s.stopped.endReport s.launch.shown s.stopped.index s.middle.clock answer ::
      s.stopped.reports }

/-- As the launch is settled, the row ends with a failure or the program is stopped. -/
theorem passes_on (listens : host.listener = some l) (calm : ∀ reports, l reports = .ok ())
    (fails : ∀ answer, s.launch.settle (.error s.fault) = .ok answer → answer.1 ≠ 0) :
    (Run.passes program s.row).on host = match s.launch.settle (.error s.fault) with
      | .error e => (.error e, s.stopped)
      | .ok answer => (.ok ⟨answer.1, answer.2, s.invocation.pass⟩, s.told answer) := by
  obtain ⟨order, given, written⟩ := s.written
  obtain ⟨index, begun, begins, starts⟩ := s.fails
  have reached := s.reached listens
  obtain ⟨rfl, printed, rfl⟩ :=
    beginCommand_of_ok (listener_of_executes listens s.executed) begins
  have ran := s.launch.run_on begins starts (reached.listener.trans listens)
  have front : (Run.passes program s.row).on host =
      (Run.passes program (s.invocation :: s.behind)).on s.middle :=
    s.executed.passes_on s.succeeded (by simp)
  have one : (({ program } : Runner).invocation s.invocation).on s.middle =
      match s.launch.settle (.error s.fault) with
      | .error e => (.error e, s.stopped)
      | .ok answer => (.ok ⟨answer.1, answer.2, s.invocation.pass⟩, s.told answer) := by
    rw [Runner.invocation_launch given written, on_bind, ran]
    cases s.launch.settle (.error s.fault) with
    | error e => rfl
    | ok answer =>
        dsimp only
        rw [calm, told, reached.index]
        rfl
  rw [front]
  cases settled : s.launch.settle (.error s.fault) with
  | error e =>
      rw [settled] at one
      exact Runner.passes_cons_on one fun _ h => nomatch h
  | ok answer =>
      rw [settled] at one
      refine Runner.passes_cons_on one fun result h => ?_
      rw [← Except.ok.inj h]
      exact fails answer settled

end Stumble

/-- A row in which a launch fails, whichever and however, has its start reported last. If the
program of an invocation is not found, the command fails and the row ends with its failure. In
every other case, a line of the shell or a program that may not be run, the fault stops whoever runs
the row, without an end of the command. -/
theorem failsAsCommand_iff {program : Value} {host : Host} {l : Listener}
    (s : Stumble program host) (listens : host.listener = some l)
    (calm : ∀ reports, l reports = .ok ()) :
    s.Reached ∧ (s.FailsAsCommand ↔ s.invocation.shellCommand = .null ∧ s.fault = .missing) ∧
      (¬s.FailsAsCommand → (Run.passes program s.row).on host =
        (.error (s.fault.error s.launch.name), s.stopped)) := by
  obtain ⟨order, given, written⟩ := s.written
  have programs := Invocation.launches_program_iff given written
  refine ⟨s.reached listens, ?_⟩
  rcases s.launch.settle_fault s.fault with ⟨words, launched, missing, settled⟩ | ⟨other, settled⟩
  · have failed : notFoundCode ≠ 0 := by decide
    have ends := s.passes_on listens calm fun answer h => by
      rw [settled] at h
      rw [← Except.ok.inj h]
      exact failed
    rw [settled] at ends
    have fails : s.FailsAsCommand := ⟨_, _, _, _, _, ends, failed, rfl, rfl, fun legible =>
      (PipelineResult.requireOk_eq_failed_iff legible).mpr failed⟩
    exact ⟨⟨fun _ => ⟨programs.mp ⟨words, launched⟩, missing⟩, fun _ => fails⟩,
      fun not => (not fails).elim⟩
  · have ends := s.passes_on listens calm fun answer h => by
      rw [settled] at h
      cases h
    rw [settled] at ends
    have stops : ¬s.FailsAsCommand := by
      rintro ⟨result, after, _, _, _, ended, -⟩
      rw [ends] at ended
      cases ended
    refine ⟨⟨fun fails => (stops fails).elim, fun ⟨plain, missing⟩ => ?_⟩, fun _ => ends⟩
    obtain ⟨words, launched⟩ := programs.mpr plain
    exact (other ⟨words, launched, missing⟩).elim

def twoPasses : List Invocation :=
  [{ arguments := ["-i", "in.mp4", "-pass", "1", "out.mp4"], pass := .int 1 },
    { arguments := ["-i", "in.mp4", "-pass", "2", "out.mp4"], pass := .int 2 }]

/-- A machine on which the encoder is gone, or may not be run, when the second command starts, to
someone who only listens. -/
def unreliable (fault : StartFault) : Host :=
  { commands := [{}, { fault := some fault }], listener := some fun _ => .ok (), quiet := true }

namespace Stumble

def secondPass : Launch := .program ["ffmpeg", "-i", "in.mp4", "-pass", "2", "out.mp4"]

/-- The first pass succeeds, and the launch of the second one fails. -/
def ofSecondPass (fault : StartFault) : Stumble "ffmpeg" (unreliable fault) :=
  let first : Order := .program ("ffmpeg" :: twoPasses[0].arguments)
  let middle := ((({ program := "ffmpeg" } : Runner).obey first).on (unreliable fault)).2
  let begun := ((beginCommand secondPass.shown).on middle).2
  have written : twoPasses[0].order "ffmpeg" = .ok first := rfl
  have succeeds : ((({ program := "ffmpeg" } : Runner).obey first).on (unreliable fault)).1 =
      .ok (0, "") := by cases fault <;> decide +kernel
  have begins : ((beginCommand secondPass.shown).on middle).1 = .ok 2 := by
    cases fault <;> decide +kernel
  have starts : (secondPass.start.on begun).1 = .ok (.error fault) := by
    cases fault <;> decide +kernel
  { before := [(twoPasses[0], ⟨0, "", .int 1⟩)]
    invocation := twoPasses[1]
    behind := []
    launch := secondPass
    fault, middle
    stopped := (secondPass.start.on begun).2
    executed := .single written succeeds
    succeeded := by simp
    written := ⟨_, rfl, rfl⟩
    fails := ⟨2, begun, Prod.ext begins rfl, Prod.ext starts rfl⟩ }

end Stumble

/-- Without the encoder the second pass is a failed command. -/
theorem failsAsCommand_secondPass :
    (unreliable .missing).listener = some (fun _ => .ok ()) ∧
      (Stumble.ofSecondPass .missing).row = twoPasses ∧
      (Stumble.ofSecondPass .missing).FailsAsCommand := by
  obtain ⟨-, fails, -⟩ := failsAsCommand_iff (Stumble.ofSecondPass .missing) rfl fun _ => rfl
  exact ⟨rfl, rfl, fails.mpr ⟨rfl, rfl⟩⟩

/-- An encoder that may not be run stops the program in the middle of the second pass. -/
theorem not_failsAsCommand_denied :
    ¬(Stumble.ofSecondPass .denied).FailsAsCommand ∧
      ((Run.passes "ffmpeg" twoPasses).on (unreliable .denied)).1 =
        .error (.file .denied "ffmpeg") ∧
      ((Run.passes "ffmpeg" twoPasses).on (unreliable .denied)).2.reports =
        [.started "ffmpeg -i in.mp4 -pass 2 out.mp4" 2 .null .zero,
          .ended "ffmpeg -i in.mp4 -pass 1 out.mp4" 1 .null 0 .zero "" .zero,
          .started "ffmpeg -i in.mp4 -pass 1 out.mp4" 1 .null .zero] := by
  have stops : ((Run.passes "ffmpeg" twoPasses).on (unreliable .denied)).1 =
      .error (.file .denied "ffmpeg") := by decide +kernel
  refine ⟨?_, stops, by decide +kernel⟩
  rintro ⟨result, after, _, _, _, ends, -⟩
  have row : (Stumble.ofSecondPass .denied).row = twoPasses := rfl
  rw [row] at ends
  rw [ends] at stops
  cases stops

end Reel
