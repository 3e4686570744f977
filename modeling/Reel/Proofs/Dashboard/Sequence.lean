import Reel.Proofs.Dashboard.Calls
import Reel.Proofs.Pipeline.Numbering
import Reel.Proofs.Project.Loading

/-!
# The sequence of calls

However a render ends, its calls come in one order: the number of commands, the commands, the error
that stopped it, the end. The number of commands is announced before they are compiled, and it is
the number of those that compiling gives. So the commands are counted up to it, and a render that
succeeds reaches it.
-/
namespace Reel

open Run

namespace Project

variable {p : Project}

theorem run_on_quiet (dry : p.dryRun = true) (runs : List Invocation) {host : Host}
    (quiet : host.quiet = true) : ((run (some runs)).runOn p).on host = (.ok none, host) := by
  have silent : (rehearse p.settings.ffmpeg runs).on host = (.ok (), host) := by
    rw [rehearse, on_bind, on_get]
    dsimp only
    rw [if_pos quiet]
    rfl
  rw [runOn_run_some, if_pos dry, on_bind, silent]
  rfl

theorem isSome_of_run (live : p.dryRun = false) {runs : List Invocation} {host after : Host}
    {result : Option PipelineResult}
    (h : ((run (some runs)).runOn p).on host = (.ok result, after)) : result.isSome := by
  rw [runOn_run_some, if_neg (by simp [live])] at h
  obtain ⟨output, _, -, h⟩ := Run.exists_of_bind_ok h
  obtain ⟨rendered, _, -, h⟩ := Run.exists_of_bind_ok h
  rw [← Except.ok.inj (congrArg Prod.fst h)]
  rfl

end Project

namespace Dashboard

/-- The commands of a render as far as it came: announced with their number, and started one after
the other under the numbers up to it, all of them if a render that is no rehearsal succeeds. -/
structure Counts (dryRun : Bool) (commands : Nat) (reports : List Report)
    (stopped : Except Error Unit) : Prop where
  announced : ∀ r ∈ reports, r.announced = .int commands
  started : ∃ count ≤ commands, reports.filterMap Report.startedAs? = List.range' 1 count ∧
    (stopped = .ok () → dryRun = false → count = commands)
  rehearsed : dryRun = true → reports = []

/-- The reports of a run are counted from the announcement of its commands. -/
theorem counts_of_run {p : Project} {runs : List Invocation} {begun after : Host}
    {outcome : Except Error (Option PipelineResult)} (quiet : begun.quiet = true)
    (heard : begun.listener.isSome) (total : begun.total = .int runs.length)
    (index : begun.index = 0) (none : begun.reports = [])
    (ran : ((Project.run (some runs)).runOn p).on begun = (outcome, after)) :
    Counts p.dryRun runs.length after.reports.reverse (outcome.map fun _ => ()) := by
  obtain ⟨count, le, numbered, whole⟩ := p.run_numbers runs begun quiet heard
  rw [ran] at numbered whole
  obtain ⟨sent, reports, announced, started⟩ := numbered.reports
  rw [none, List.append_nil] at reports
  rw [total] at announced
  rw [index] at started
  rw [reports, List.reverse_reverse]
  refine ⟨announced, ⟨count, le, started, fun ends live => ?_⟩, fun dry => ?_⟩
  · obtain ⟨result, passed, -⟩ := exists_of_map_ok ends
    rw [passed] at ran
    exact whole result passed (Project.isSome_of_run live ran)
  · rw [p.run_on_quiet dry runs quiet] at ran
    obtain rfl : begun = after := congrArg Prod.snd ran
    rw [← List.reverse_eq_nil_iff, ← reports, none]

variable [Environment] {d : Dashboard} {s : Display} {host : Host}

theorem openProject_reads (d : Dashboard) : Reads (openProject d) :=
  (Project.load_reads _ _ _).bind fun _ => .pure _

theorem loading_reads (d : Dashboard) : Reads (loading d) :=
  (openProject_reads d).bind fun _ => (Reads.ofExcept _).bind fun _ => .pure _

theorem loading_dryRun {p : Project} {output : Value} {after : Host}
    (h : (loading d).on host = (.ok (p, output), after)) : p.dryRun = d.dryRun := by
  obtain ⟨q, between, opened, h⟩ := Run.exists_of_bind_ok h
  obtain ⟨path, _, -, h⟩ := Run.exists_of_bind_ok h
  obtain ⟨loaded, _, -, given⟩ := Run.exists_of_bind_ok opened
  have same : (q, path) = (p, output) := Except.ok.inj (congrArg Prod.fst h)
  obtain rfl : q = p := congrArg Prod.fst same
  rw [← Except.ok.inj (congrArg Prod.fst given)]

/-- What a course has told: nothing before the number of commands, and nothing at all only if the
render was stopped. -/
theorem Course.counts {stopped : Except Error Unit} {calls : List Call} {after : Host}
    (quiet : host.quiet = true) (h : Course s host stopped calls after) :
    (calls = [] ∧ ∃ e, stopped = .error e) ∨ ∃ (commands : Nat) (reports : List Report),
      calls = .planReady (.int commands) :: reports.map .command ∧
        Counts s.dashboard.dryRun commands reports stopped := by
  have empty {commands : Nat} {e : Error} : Counts s.dashboard.dryRun commands [] (.error e) :=
    ⟨by simp, ⟨0, Nat.zero_le _, rfl, fun h => nomatch h⟩, fun _ => rfl⟩
  cases h with
  | unloaded => exact .inl ⟨rfl, _, rfl⟩
  | uncompiled => exact .inl ⟨rfl, _, rfl⟩
  | unshown => exact .inr ⟨_, [], rfl, empty⟩
  | @ran p output c shown outcome loaded compiled after loads compiles shows ran =>
      have same := (loading_reads s.dashboard).on_eq host
      rw [loads] at same
      obtain rfl : loaded = host := congrArg Prod.snd same
      obtain ⟨spawned, left⟩ := p.compilation_repeats.exists_spawned
        { loaded with total := .int p.commandTotal, index := 0 }
      rw [compiles] at left
      dsimp only at left
      have length := (Project.compiles_of_on compiles).length_invocations
      refine .inr ⟨_, _, rfl, ?_⟩
      rw [← loading_dryRun loads]
      refine counts_of_run (p := p.compiledTo c) ?_ rfl ?_ ?_ rfl ran
      · rw [left]
        exact quiet
      · rw [left, length]
      · rw [left]

/-- Whatever the dashboard, the machine and the project are like, and wherever an error is raised,
be it by one of the calls, a render makes its calls in order: it announces the commands once, if it
comes so far, then each command that starts or ends, then the error that stopped it, with its
message, if one did while the project was loaded, compiled, announced or run, and last the end,
once. Commands are numbered up to their announced number, which a render that succeeds and is no
rehearsal reaches. Afterwards nobody listens, the machine is not silent and nothing is announced or
counted. -/
theorem perform_calls_in_order (s : Display) (host : Host) (trace : String) :
    ∃ stopped told middle finished left after,
      (perform trace).on s host = (finished, left, after) ∧
      left.made = s.made ++ told ++ failure trace stopped ++ [.finish] ∧
      Course s { host with quiet := true } stopped told middle ∧
      ((told = [] ∧ ∃ e, stopped = .error e) ∨ ∃ (commands : Nat) (reports : List Report),
        told = .planReady (.int commands) :: reports.map .command ∧
        Counts s.dashboard.dryRun commands reports stopped) ∧
      after.listener = none ∧ after.quiet = false ∧ after.total = .null ∧ after.index = 0 := by
  obtain ⟨stopped, told, middle, finished, left, course, made, ends⟩ := perform_on trace s host
  exact ⟨stopped, told, middle, finished, left, _, ends, made, course, course.counts rfl, rfl, rfl,
    rfl, rfl⟩

end Dashboard

end Reel
