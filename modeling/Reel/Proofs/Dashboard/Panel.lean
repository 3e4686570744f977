import Reel.Proofs.Dashboard.Calls
import Reel.Proofs.Number.Remainders

/-!
# The status panel through a render

The dashboard is told what happens, in any order and at any times. All that it says about the
status hangs on what it was told: whether there was an error, whether there was an end, and which
command started last. The time that is shown stands still from the first end on, unless that is
read off the clock like the start.
-/
namespace Reel

namespace Reaction

variable {α β : Type} {now : Double} {reaction : Reaction α} {next : α → Reaction β}
  {d middle left : Dashboard}

/-- Nothing but the screen and the journal is different, and the status panel was brought up to
date with the dashboard and the time. -/
structure Shows (now : Double) (d left : Dashboard) : Prop where
  kept : { left with screen := d.screen, journal := d.journal } = d
  updates : ∃ ms, left.screen.metrics = ms ++ d.screen.metrics ∧ ∀ m ∈ ms, d.metrics now = .ok m

theorem Shows.refl (now : Double) (d : Dashboard) : Shows now d d := ⟨rfl, [], rfl, by simp⟩

theorem Shows.trans (first : Shows now d middle) (rest : Shows now middle left) :
    Shows now d left := by
  obtain ⟨ms, before, shown⟩ := first.updates
  obtain ⟨ms', behind, shown'⟩ := rest.updates
  have same : middle.metrics now = d.metrics now := by
    calc middle.metrics now
        = ({ middle with screen := d.screen, journal := d.journal } : Dashboard).metrics now := rfl
      _ = d.metrics now := by rw [first.kept]
  refine ⟨?_, ms' ++ ms, by rw [behind, before, List.append_assoc], ?_⟩
  · have kept := congrArg
      (fun e : Dashboard => { e with screen := d.screen, journal := d.journal }) rest.kept
    exact kept.trans first.kept
  · rw [List.forall_mem_append]
    exact ⟨fun m member => same ▸ shown' m member, shown⟩

/-- The reaction changes nothing but what is shown. -/
def Displays (now : Double) (reaction : Reaction α) : Prop := ∀ d, Shows now d (reaction.on d).2

namespace Displays

theorem pure (x : α) : Displays now (Pure.pure x : Reaction α) := fun d => .refl now d

theorem ofExcept (r : Except Error α) : Displays now (Dashboard.ofExcept r) := by
  intro d
  cases r <;> exact .refl now d

theorem get : Displays now (get : Reaction Dashboard) := fun d => .refl now d

theorem bind (first : Displays now reaction) (rest : ∀ x, Displays now (next x)) :
    Displays now (reaction >>= next) := by
  intro d
  have shows := first d
  rw [on_bind]
  generalize reaction.on d = result at shows ⊢
  rcases result with ⟨outcome, middle⟩
  cases outcome with
  | ok x => exact shows.trans (rest x middle)
  | error e => exact shows

theorem textOf (v : Value) : Displays now (Dashboard.textOf v) := ofExcept _

theorem note (line : String) : Displays now (Dashboard.note line) := by
  intro d
  rw [Dashboard.note, on_bind]
  change Shows now d (Reaction.on (if d.journalPath.isSome then _ else _) d).2
  split
  · cases d.journalFault d.journal.length with
    | some fault => exact .refl now d
    | none => exact ⟨rfl, [], rfl, by simp⟩
  · exact .refl now d

theorem noteValue (v : Value) : Displays now (Dashboard.noteValue v) := by
  refine .bind .get fun d => ?_
  split
  · exact .bind (.textOf v) fun line => .note line
  · exact .pure ()

theorem write (line : LogLine) : Displays now (Dashboard.write line) := by
  intro d
  change Shows now d (if d.attached then _ else d)
  split
  · exact ⟨rfl, [], rfl, by simp⟩
  · exact .refl now d

theorem writeStyled (s style : String) : Displays now (Dashboard.writeStyled s style) := .write _

theorem updateInfo : Displays now Dashboard.updateInfo := by
  intro d
  rw [Dashboard.updateInfo, on_bind]
  change Shows now d (Reaction.on (if d.attached then _ else _) d).2
  split
  · cases d.info with
    | ok t => exact ⟨rfl, [], rfl, by simp⟩
    | error e => exact .refl now d
  · exact .refl now d

theorem updateMetrics : Displays now (Dashboard.updateMetrics now) := by
  intro d
  rw [Dashboard.updateMetrics, on_bind]
  change Shows now d (Reaction.on (if d.attached then _ else _) d).2
  split
  · cases shown : d.metrics now with
    | error e => exact .refl now d
    | ok m =>
        change Shows now d (Reaction.on (Dashboard.ofExcept m.render >>= _) d).2
        cases m.render with
        | error e => exact .refl now d
        | ok t => exact ⟨rfl, [m], rfl, by simp [shown]⟩
  · exact .refl now d

theorem planReady (commands : Value) : Displays now (Dashboard.planReady commands now) := by
  have rest : Displays now (do
      Dashboard.note ("command total: " ++ (← Dashboard.textOf commands))
      Dashboard.updateMetrics now
      Dashboard.updateInfo) :=
    .bind (.textOf commands) fun _ => .bind (.note _) fun _ => .bind .updateMetrics fun _ =>
      .updateInfo
  refine .bind .get fun d => ?_
  split
  · exact .bind (.textOf _) fun _ => .bind (.textOf _) fun _ => .bind (.write _) fun _ => rest
  · exact rest

theorem commandEnded (n : Notice) (summary : String) :
    Displays now (Dashboard.commandEnded n summary now) := by
  have tail (lines : List String) :
      Displays now (lines.forM fun line => Dashboard.writeStyled line Palette.dim) := by
    induction lines with
    | nil => exact .pure ()
    | cons line lines ih => exact .bind (.writeStyled _ _) fun _ => ih
  refine .bind (.textOf _) fun command => .bind (.ofExcept _) fun failed => ?_
  split
  · exact .bind (.textOf _) fun _ => .bind (.writeStyled _ _) fun _ =>
      .bind (.ofExcept _) fun lines => .bind (tail lines) fun _ => .bind (.note _) fun _ =>
        .bind (.noteValue _) fun _ => .updateMetrics
  · exact .bind (.ofExcept _) fun _ => .bind (.note _) fun _ => .updateMetrics

end Displays

theorem Shows.after {x : α} {e : Dashboard} (ends : reaction.on d = (.ok x, middle))
    (rest : Shows now e ((next x).on middle).2) :
    Shows now e ((reaction >>= next).on d).2 := by
  rw [on_bind, ends]
  exact rest

end Reaction

namespace Dashboard

open Reaction

section

variable {now : Double} {d : Dashboard}

theorem commandStarted_shows {n : Notice} {c : ℤ} (summary : String)
    (count : d.commandCount = .int c) :
    Shows now { d with
        commandCount := n.index.getD (.int (c + 1))
        commandTotal := n.total.getD d.commandTotal
        summary := .text summary }
      ((commandStarted n summary now).on d).2 := by
  have next : (ofExcept d.commandCount.successor).on d = (.ok (.int (c + 1)), d) := by
    rw [count]
    rfl
  refine .after rfl (.after next (.after rfl ?_))
  have rest (line : LogLine) : Displays now (do
      write line
      note ("start: " ++ (← textOf n.command))
      updateMetrics now) :=
    .bind (.write _) fun _ => .bind (.textOf _) fun _ => .bind (.note _) fun _ => .updateMetrics
  refine Displays.bind .get (fun d => .bind (.ofExcept _) fun place => ?_) _
  split
  · refine .bind (.write _) fun _ => .bind (.writeStyled _ _) fun _ =>
      .bind (.ofExcept _) fun line => ?_
    cases line with
    | some line => exact rest _
    | none => exact rest _
  · refine .bind (.ofExcept _) fun line => ?_
    cases line with
    | some line => exact rest _
    | none => exact rest _

theorem setError_shows (text trace : Value) :
    Shows now { d with errorText := text } ((setError text trace).on d).2 := by
  refine .after rfl ?_
  have rest : Displays now (do
      if (← get).attached then
        writeStyled ("error: " ++ (← textOf text)) (Palette.bold Palette.error)) := by
    refine .bind .get fun d => ?_
    split
    · exact .bind (.textOf _) fun text => .writeStyled _ _
    · exact .pure ()
  have whole : Displays now (do
      if trace.truthy then noteValue trace
      if (← get).attached then
        writeStyled ("error: " ++ (← textOf text)) (Palette.bold Palette.error)) := by
    split
    · exact .bind (.noteValue _) fun _ => rest
    · exact rest
  exact whole _

theorem finish_shows {s : Double} (attached : d.attached = true) (begun : d.startTime = .real s) :
    Shows now { d with
        finished := true
        finishTime := if d.finishTime.isNull then .real (now.sub s) else d.finishTime }
      ((finish now).on d).2 := by
  have behind (line : String) : Displays now (do
      write (.plain line)
      note line
      updateMetrics now
      updateInfo) :=
    .bind (.write _) fun _ => .bind (.note _) fun _ => .bind .updateMetrics fun _ => .updateInfo
  have rest (d : Dashboard) : Displays now (do
      let line ←
        if !d.errorText.isNull then pure "complete with errors"
        else if d.dryRun || d.outputFile.isNull then pure "complete"
        else do pure ("complete: " ++ (← textOf d.outputFile))
      write (.plain line)
      note line
      updateMetrics now
      updateInfo) := by
    split
    · exact behind _
    · split
      · exact behind _
      · exact .bind (.textOf _) fun _ => behind _
  unfold finish
  refine .after rfl ?_
  rw [if_pos attached]
  refine .after rfl (.after rfl ?_)
  have time : (ofExcept (since d.startTime now)).on { d with finished := true } =
      (.ok (.real (now.sub s)), { d with finished := true }) := by
    rw [begun]
    rfl
  have timed : (!d.startTime.isNull) = true := by
    rw [begun]
    rfl
  by_cases first : d.finishTime.isNull = true
  · rw [if_pos first]
    dsimp only
    rw [if_pos (by rw [timed, first]; rfl)]
    exact .after time (.after rfl (rest _ _))
  · rw [if_neg first]
    dsimp only
    rw [if_neg (by rw [timed, Bool.true_and]; exact first)]
    exact rest _ _

/-- The panel shows the time up to the end, if there was an end and that time is not zero. -/
theorem metrics_of_begun {s : Double} (begun : d.startTime = .real s) :
    d.metrics now = .ok
      { status := d.status
        elapsed := if d.finished && d.finishTime.truthy then d.finishTime else .real (now.sub s)
        count := d.commandCount, total := d.commandTotal, summary := d.summary } := by
  have elapsed : d.elapsed now =
      .ok (if d.finished && d.finishTime.truthy then d.finishTime else .real (now.sub s)) := by
    have on : since (.real s) now = .ok (.real (now.sub s)) := rfl
    simp only [Dashboard.elapsed, begun, on, apply_ite Except.ok]
  rw [metrics, elapsed]
  rfl

/-- What brings the status panel up to date, and is not stopped, shows something. -/
theorem updateMetrics_shown (attached : d.attached = true)
    (ends : ((updateMetrics now).on d).1 = .ok ()) :
    ∃ m, ((updateMetrics now).on d).2.screen.metrics = m :: d.screen.metrics := by
  have looks : (updateMetrics now).on d = Reaction.on (do
      let m ← ofExcept (d.metrics now)
      let _ ← ofExcept m.render
      set { d with screen := { d.screen with metrics := m :: d.screen.metrics } }) d := by
    change Reaction.on (if d.attached then _ else _) d = _
    rw [if_pos attached]
  rw [looks] at ends ⊢
  cases shown : d.metrics now with
  | error stop =>
      rw [shown] at ends
      cases ends
  | ok m =>
      rw [shown] at ends
      change (Reaction.on (ofExcept m.render >>= _) d).1 = _ at ends
      refine ⟨m, ?_⟩
      change (Reaction.on (ofExcept m.render >>= _) d).2.screen.metrics = _
      cases drawn : m.render with
      | error stop =>
          rw [drawn] at ends
          cases ends
      | ok t => rfl

end

/-- What the dashboard is told: that a command started or ended, that the commands are known, that
an error stopped the render, that the render is finished, or that time passed. In between, the
render notes what it found out. -/
inductive Turn where
  | started (command : String) (index : Option ℤ) (total : Option Value)
  | ended (command : String) (returnCode : ℤ) (seconds : Double) (diagnostic : String)
  | planReady (commands : ℤ)
  | failed (text : String) (trace : Option String)
  | finished
  | tick
  | learned (output total segments duration : Value)

namespace Turn

def reaction : Turn → Double → Reaction Unit
  | .started command index total, now =>
    hear { phase := .started, command := .text command, index := index.map .int, total } now
  | .ended command returnCode seconds diagnostic, now =>
    hear { phase := .ended, command := .text command, returnCode := .int returnCode
           seconds := .real seconds, diagnostic := .text diagnostic } now
  | .planReady commands, now => Dashboard.planReady (.int commands) now
  | .failed text trace, _ => setError (.text text) (trace.elim .null .text)
  | .finished, now => finish now
  | .tick, now => updateMetrics now
  | .learned output total segments duration, _ => modify fun d => { d with
      outputFile := output, commandTotal := total, segmentCount := segments
      composedDuration := duration }

def isFailure : Turn → Bool
  | .failed .. => true
  | _ => false

def isFinish : Turn → Bool
  | .finished => true
  | _ => false

end Turn

/-- What the dashboard was told and when, the latest first. -/
abbrev History := List (Turn × ℚ)

/-- The dashboard after it is attached and told its history. What is stopped is left as it is. -/
def after (d : Dashboard) (start : ℚ) : History → Dashboard
  | [] => ((mount (.finite start)).on d).2
  | (turn, now) :: earlier => ((turn.reaction (.finite now)).on (d.after start earlier)).2

namespace History

def status (history : History) : Status :=
  if history.any fun entry => entry.1.isFailure then .failed
  else if history.any fun entry => entry.1.isFinish then .done
  else .running

/-- The number of the command that started last, counted on if it brings none. -/
def count : History → ℤ
  | [] => 0
  | (.started _ index _, _) :: earlier => index.getD (count earlier + 1)
  | _ :: earlier => count earlier

/-- The command that started last in short. -/
def current : History → String
  | [] => ""
  | (.started command _ _, _) :: _ => Summary.ofCommand command
  | _ :: earlier => current earlier

def ending : History → Option ℚ
  | [] => none
  | (.finished, now) :: earlier => some ((ending earlier).getD now)
  | _ :: earlier => ending earlier

theorem isSome_ending (history : History) :
    (ending history).isSome = history.any fun entry => entry.1.isFinish := by
  induction history with
  | nil => rfl
  | cons entry earlier ih =>
      rcases entry with ⟨turn, now⟩
      cases turn <;> simp [ending, Turn.isFinish, ih]

theorem exists_ending {history : History} {first : ℚ} (ends : ending history = some first) :
    ∃ entry ∈ history, entry.2 = first := by
  induction history with
  | nil => cases ends
  | cons entry earlier ih =>
      rcases entry with ⟨turn, now⟩
      have before (same : ending earlier = some first) :
          ∃ entry ∈ (turn, now) :: earlier, entry.2 = first := by
        obtain ⟨entry, member, time⟩ := ih same
        exact ⟨entry, List.mem_cons_of_mem _ member, time⟩
      cases turn with
      | finished =>
          rw [ending] at ends
          cases last : ending earlier with
          | none =>
              rw [last] at ends
              exact ⟨_, List.mem_cons_self, Option.some.inj ends⟩
          | some time =>
              rw [last] at ends
              exact before (last.trans ends)
      | _ => exact before ends

theorem status_ne_running {earlier later : History} (follows : earlier <:+ later)
    (stopped : status earlier ≠ .running) : status later ≠ .running := by
  obtain ⟨between, rfl⟩ := follows
  revert stopped
  simp only [status, List.any_append]
  cases earlier.any fun entry => entry.1.isFailure <;>
    cases earlier.any fun entry => entry.1.isFinish <;>
      cases between.any fun entry => entry.1.isFailure <;> simp

end History

/-- Nothing was told to the dashboard yet. -/
structure Fresh (d : Dashboard) : Prop where
  count : d.commandCount = .int 0
  summary : d.summary = .text ""
  error : d.errorText = .null
  finished : d.finished = false
  time : d.finishTime = .null

/-- The dashboard holds what the history says. -/
structure Holds (start : ℚ) (history : History) (d : Dashboard) : Prop where
  attached : d.attached = true
  begun : d.startTime = .real (.finite start)
  count : d.commandCount = .int history.count
  summary : d.summary = .text history.current
  error : d.errorText.isNull = !history.any fun entry => entry.1.isFailure
  finished : d.finished = history.any fun entry => entry.1.isFinish
  time : d.finishTime = match history.ending with
    | none => .null
    | some first => .real ((Double.finite first).sub (.finite start))

/-- What the status panel shows of the history at a time. -/
structure Follows (start now : ℚ) (history : History) (m : Metrics) : Prop where
  status : m.status = history.status
  count : m.count = .int history.count
  summary : m.summary = .text history.current
  running : history.ending = none →
    m.elapsed = .real ((Double.finite now).sub (.finite start))
  ended : ∀ first, history.ending = some first →
    (m.elapsed = .real ((Double.finite first).sub (.finite start)) ↔ (first = start → now = start))

variable {start now : ℚ} {history : History} {d e left : Dashboard} {m : Metrics}

theorem Holds.of_shows {now : Double} (holds : e.Holds start history) (shows : Shows now e left) :
    left.Holds start history := by
  have kept := shows.kept ▸ holds
  exact ⟨kept.attached, kept.begun, kept.count, kept.summary, kept.error, kept.finished, kept.time⟩

/-- The time that was taken is shown again if it is not none. -/
theorem truthy_since_iff {first : ℚ} (hv : Double.Exact first) (hw : Double.Exact start) :
    (Value.real ((Double.finite first).sub (.finite start))).truthy = true ↔ first ≠ start := by
  rw [ne_eq, ← Double.toRat?_sub_eq_zero_iff hv hw]
  generalize (Double.finite first).sub (.finite start) = x
  cases x <;> simp [Value.truthy, Double.eq, Double.zero, Double.toRat?]

theorem Holds.follows (holds : d.Holds start history) (begun : Double.Exact start)
    (read : Double.Exact now) (ended : ∀ first, history.ending = some first → Double.Exact first)
    (shown : d.metrics (.finite now) = .ok m) : Follows start now history m := by
  rw [metrics_of_begun holds.begun, holds.finished, ← History.isSome_ending, holds.time] at shown
  obtain rfl := Except.ok.inj shown
  refine ⟨?_, holds.count, holds.summary, fun unfinished => ?_, fun first finished => ?_⟩
  · rw [Dashboard.status, holds.error, holds.finished, Bool.not_not]
    rfl
  · rw [unfinished]
    rfl
  · rw [finished]
    dsimp only
    have zero := truthy_since_iff (ended first finished) begun
    by_cases same : first = start
    · have untimed : ¬(Value.real ((Double.finite first).sub (.finite start))).truthy = true :=
        fun timed => zero.mp timed same
      rw [Option.isSome_some, Bool.true_and, if_neg untimed]
      refine ⟨fun stays _ => ?_, fun stays => by rw [stays same, same]⟩
      have none := (Double.toRat?_sub_eq_zero_iff (ended first finished) begun).mpr same
      rw [← Value.real.inj stays] at none
      exact (Double.toRat?_sub_eq_zero_iff read begun).mp none
    · rw [Option.isSome_some, Bool.true_and, if_pos (zero.mpr same)]
      exact ⟨fun _ again => absurd again same, fun _ => rfl⟩

theorem Holds.mounted (fresh : Fresh d) : (d.after start []).Holds start [] := by
  have ready : Holds start [] { d with
      attached := true, startTime := .real (.finite start) } :=
    ⟨rfl, rfl, fresh.count, fresh.summary, by rw [fresh.error]; rfl, fresh.finished, fresh.time⟩
  refine ready.of_shows (?_ : Shows (.finite start) _ _)
  refine .after rfl (Displays.bind .updateInfo (fun _ => .bind .get fun d => ?_) _)
  split
  · exact .write _
  · exact .pure ()

/-- An attached dashboard hears a command that it can read. -/
theorem on_hear {n : Notice} {command : String} {now : Double} (attached : d.attached = true)
    (readable : n.command = .text command) :
    (hear n now).on d = (match n.phase with
      | .started => commandStarted n (Summary.ofCommand command) now
      | .ended => commandEnded n (Summary.ofCommand command) now
      | .other => pure ()).on d := by
  have summary : (ofExcept (Summary.ofValue n.command)).on d =
      (.ok (Summary.ofCommand command), d) := by
    rw [readable]
    rfl
  have heard : (get : Reaction Dashboard).on d = (.ok d, d) := rfl
  rw [hear, on_bind, heard]
  dsimp only
  rw [if_pos attached, on_bind]
  cases n.phase <;> rw [summary]

/-- A turn leaves the dashboard with what it tells, and shows no other dashboard. -/
theorem Holds.turned (holds : d.Holds start history) (turn : Turn) (now : ℚ) :
    ∃ e, e.screen = d.screen ∧ e.Holds start ((turn, now) :: history) ∧
      Shows (.finite now) e ((turn.reaction (.finite now)).on d).2 := by
  cases turn with
  | started command index total =>
      rw [Turn.reaction, on_hear holds.attached rfl]
      -- What is shown says which dashboard it is: not `d`, though the screens are the same.
      refine ⟨_, ?_, ?_, commandStarted_shows _ holds.count⟩
      · rfl
      · refine { holds with count := ?_, summary := rfl }
        cases index <;> rfl
  | ended command returnCode seconds diagnostic =>
      rw [Turn.reaction, on_hear holds.attached rfl]
      exact ⟨d, rfl, { holds with }, Displays.commandEnded _ _ d⟩
  | planReady commands => exact ⟨d, rfl, { holds with }, Displays.planReady _ d⟩
  | failed text trace =>
      refine ⟨_, ?_, ?_, setError_shows _ _⟩
      · rfl
      · exact { holds with error := rfl }
  | finished =>
      refine ⟨_, ?_, ?_, finish_shows holds.attached holds.begun⟩
      · rfl
      · refine { holds with finished := rfl, time := ?_ }
        simp only [holds.time, History.ending]
        cases history.ending <;> rfl
  | tick => exact ⟨d, rfl, { holds with }, Displays.updateMetrics d⟩
  | learned output total segments duration =>
      refine ⟨_, ?_, ?_, .refl _ _⟩
      · rfl
      · exact { holds with }

theorem after_holds (fresh : Fresh d) (start : ℚ) (history : History) :
    (d.after start history).Holds start history := by
  induction history with
  | nil => exact .mounted fresh
  | cons entry earlier ih =>
      -- The turn may be stopped anywhere; what it told stays.
      obtain ⟨e, -, holds, shows⟩ := ih.turned entry.1 entry.2
      exact holds.of_shows shows

/-- The latest turn of the history brought the status panel up to `m`. -/
def Brings (d : Dashboard) (start : ℚ) (history : History) (m : Metrics) : Prop :=
  ∃ entry earlier ms, history = entry :: earlier ∧ m ∈ ms ∧
    (d.after start history).screen.metrics = ms ++ (d.after start earlier).screen.metrics

/-- What a turn brings the status panel up to agrees with all that was told. -/
theorem exists_updates (fresh : Fresh d) (begun : Double.Exact start) (turn : Turn)
    (read : ∀ entry ∈ (turn, now) :: history, Double.Exact entry.2) :
    ∃ ms, (d.after start ((turn, now) :: history)).screen.metrics =
        ms ++ (d.after start history).screen.metrics ∧
      ∀ m ∈ ms, Follows start now ((turn, now) :: history) m := by
  obtain ⟨e, same, holds, shows⟩ := (after_holds fresh start history).turned turn now
  obtain ⟨ms, above, shown⟩ := shows.updates
  refine ⟨ms, by rw [after, above, same], fun m member => ?_⟩
  refine holds.follows begun (read _ List.mem_cons_self) (fun first ends => ?_) (shown m member)
  obtain ⟨entry, member, rfl⟩ := History.exists_ending ends
  exact read entry member

theorem Brings.follows (brings : d.Brings start history m) (fresh : Fresh d)
    (begun : Double.Exact start) (read : ∀ entry ∈ history, Double.Exact entry.2) :
    ∃ turn now earlier, history = (turn, now) :: earlier ∧ Follows start now history m := by
  obtain ⟨⟨turn, now⟩, earlier, ms, rfl, member, above⟩ := brings
  obtain ⟨ms', above', shown⟩ := exists_updates fresh begun turn read
  rw [List.append_cancel_right (above.symm.trans above')] at member
  exact ⟨turn, now, earlier, rfl, shown m member⟩

theorem brings_of_tick (attached : (d.after start history).attached = true)
    (ends : ((Turn.tick.reaction (.finite now)).on (d.after start history)).1 = .ok ()) :
    ∃ m, d.Brings start ((.tick, now) :: history) m := by
  obtain ⟨m, above⟩ := updateMetrics_shown attached ends
  exact ⟨m, _, history, [m], rfl, List.mem_singleton_self m, above⟩

end Dashboard

open Dashboard

/-- The dashboard is attached at `start` and then told anything, at any times. No panel is taken
back. Every panel that a turn brings shows an error if there was one, the end if there was one, and
otherwise a running render, so a stopped render never runs again; it counts and names the command
that started last; and its time stands still from the first end on, but not if the clock still
showed `start` at that end: then the time runs on. A tick brings a panel unless something stops
it. -/
theorem panel_follows {d : Dashboard} {start now : ℚ} {turn : Turn} {history : History}
    (fresh : d.Fresh) (begun : Double.Exact start)
    (read : ∀ entry ∈ (turn, now) :: history, Double.Exact entry.2) :
    (d.after start history).screen.metrics <:+
        (d.after start ((turn, now) :: history)).screen.metrics ∧
      (∀ m, d.Brings start ((turn, now) :: history) m →
        Follows start now ((turn, now) :: history) m ∧
        ∀ earlier shown, earlier <:+ (turn, now) :: history → d.Brings start earlier shown →
          shown.status ≠ .running → m.status ≠ .running) ∧
      (turn = .tick → ((turn.reaction (.finite now)).on (d.after start history)).1 = .ok () →
        ∃ m, d.Brings start ((turn, now) :: history) m) := by
  obtain ⟨ms, above, -⟩ := exists_updates fresh begun turn read
  refine ⟨⟨ms, above.symm⟩, fun m brings => ?_, ?_⟩
  · obtain ⟨_, _, _, same, follows⟩ := brings.follows fresh begun read
    cases same
    refine ⟨follows, fun earlier shown behind brought stopped => ?_⟩
    obtain ⟨_, _, _, rfl, before⟩ :=
      brought.follows fresh begun fun entry member => read entry (behind.subset member)
    rw [before.status] at stopped
    rw [follows.status]
    exact History.status_ne_running behind stopped
  · rintro rfl ends
    exact brings_of_tick (after_holds fresh start history).attached ends

theorem panel_follows_walk :
    let walk : Dashboard := { file := "walk.yaml" }
    let earlier : History := [(.finished, 1005), (.failed "no such file" none, 1004),
      (.started "ffmpeg -i a.mp4 walk.mp4" (some 1) none, 1002)]
    ∃ m, walk.Brings 1000 ((.tick, 1010) :: earlier) m ∧ m.status = .failed ∧ m.count = .int 1 ∧
      m.summary = .text "ffmpeg: walk.mp4" ∧ m.elapsed = .real (.finite 5) := by
  intro walk earlier
  have whole (n : ℕ) (small : n < 2000) : Double.Exact n := Double.exact_whole (by omega)
  have read : ∀ entry ∈ (Turn.tick, 1010) :: earlier, Double.Exact entry.2 := by
    simp only [earlier, List.forall_mem_cons, List.not_mem_nil, false_imp_iff, implies_true,
      and_true]
    exact ⟨whole 1010 (by omega), whole 1005 (by omega), whole 1004 (by omega),
      whole 1002 (by omega)⟩
  have fresh : walk.Fresh := ⟨rfl, rfl, rfl, rfl, rfl⟩
  obtain ⟨-, follows, ticked⟩ := panel_follows fresh (whole 1000 (by omega)) read
  obtain ⟨m, brings⟩ := ticked rfl (by decide +kernel)
  obtain ⟨⟨status, count, summary, -, ended⟩, -⟩ := follows m brings
  refine ⟨m, brings, status, count, summary.trans (by decide +kernel), ?_⟩
  rw [(ended 1005 rfl).mpr (by norm_num)]
  decide +kernel

/-- A render that is finished when it begins took no time, but its time runs on. -/
theorem panel_runs_on_at_once :
    let walk : Dashboard := { file := "walk.yaml" }
    let history : History := [(.tick, 1005), (.finished, 1000)]
    history.ending = some 1000 ∧ (Double.finite 1000).sub (.finite 1000) = .finite 0 ∧
      (walk.after 1000 history).screen.metrics.map (·.elapsed) =
        [.real (.finite 5), .real (.finite 0)] := by
  decide +kernel

end Reel
