import Reel.Proofs.Pipeline.Echo

/-!
# Sessions

In a session commands are announced and run, time passes between them, and echoing is turned off
and on. As long as each command is answered, its start and its end are reported one right after
the other, with its number since the last announcement, and the end brings the answer. What is
echoed has no influence on this: a machine without echo goes the same way.
-/
namespace Reel

namespace Session

inductive Step where
  /-- So many commands are expected from here. -/
  | announce (total : Value)
  | program (arguments : List Value)
  | line (text : String)
  /-- The clock goes to some reading. -/
  | clock (reading : Double)
  | quiet (on : Bool)

namespace Step

def take : Step → Run (Option (Int × String))
  | .announce total => do
    Run.setTotal total
    return none
  | .program arguments => return some (← Run.command arguments)
  | .line text => return some (← Run.shell text)
  | .clock reading => do
    modify fun host : Host => { host with clock := reading }
    return none
  | .quiet on => do
    Run.setQuiet on
    return none

/-- The command of a step. -/
def order? : Step → Option Order
  | .program arguments => some (.program arguments)
  | .line text => some (.line text)
  | _ => none

def announced? : Step → Option Value
  | .announce total => some total
  | _ => none

/-- Whether the step is about more than what is echoed. -/
def acts : Step → Bool
  | .quiet _ => false
  | _ => true

end Step

/-- Takes the steps; the answers to the commands among them. -/
def run : List Step → Run (List (Int × String))
  | [] => pure []
  | s :: rest => do
    let answer ← s.take
    let answers ← run rest
    return answer.toList ++ answers

/-- A command that was run. -/
structure Turn where
  command : String
  index : Nat
  total : Value
  begun : Double
  answer : Int × String
  ended : Double

/-- What is reported of a command, first to last. -/
def Turn.reports (t : Turn) : List Report :=
  [.started t.command t.index t.total t.begun,
    .ended t.command t.index t.total t.answer.1 (t.ended.sub t.begun) t.answer.2 t.ended]

end Session

open Session

/-- A fault at the launch of some program. -/
def Error.OfLaunch (e : Error) : Prop := ∃ fault name, e = StartFault.error name fault

/-- What a turn has to do with the machines before it and behind it. -/
structure Session.Turn.Runs (t : Turn) (host : Host) (order : Order) (after : Host) : Prop where
  command : order.launch.map Launch.shown = .ok t.command
  index : t.index = host.index + 1
  total : t.total = host.total
  begun : t.begun = host.clock
  ended : t.ended = after.clock
  reports : after.reports = t.reports.reverse ++ host.reports
  listener : after.listener = host.listener
  announced : after.total = host.total
  counted : after.index = host.index + 1

variable {l : Listener} {host middle after : Host} {answer : Int × String}

theorem Launch.exists_turn {launch : Launch} {order : Order} (given : order.launch = .ok launch)
    (listens : host.listener = some l) (ends : launch.run.on host = (.ok answer, after)) :
    ∃ t : Turn, t.answer = answer ∧ t.Runs host order after := by
  obtain ⟨printed, files, commands, clock, rfl⟩ := Launch.run_of_ok listens ends
  refine ⟨⟨launch.shown, host.index + 1, host.total, host.clock, answer, clock⟩, rfl, ?_⟩
  exact ⟨by rw [given]; rfl, rfl, rfl, rfl, rfl, rfl, rfl, rfl, rfl⟩

/-- A command that can be echoed is stopped by nothing but its launch, nor by the listener. -/
theorem Launch.run_yields {launch : Launch} {printed : List String}
    (listens : host.listener = some l) (calm : ∀ reports, l reports = .ok ())
    (echoes : host.echoed launch.shown = .ok printed) :
    Yields Error.OfLaunch (launch.run.on host).1 fun _ => True := by
  have begins : (Run.beginCommand launch.shown).on host =
      (.ok (host.index + 1), host.begun launch.shown printed) := by
    rw [Run.beginCommand_listened listens, echoes]
    dsimp only
    rw [calm]
    rfl
  obtain ⟨outcome, files, commands, clock, starts⟩ :=
    launch.start_on (host.begun launch.shown printed)
  rw [launch.run_on begins starts listens]
  cases settled : launch.settle outcome with
  | error e =>
      obtain ⟨fault, -, rfl⟩ := exists_of_settle_error settled
      exact .error ⟨fault, launch.name, rfl⟩
  | ok answer =>
      dsimp only
      rw [calm]
      exact .ok trivial

theorem Run.yields_bind {α β : Type} {stops : Error → Prop} {run : Run α} {next : α → Run β}
    {post : β → Prop} (first : Yields stops (run.on host).1 fun _ => True)
    (rest : ∀ x after, run.on host = (.ok x, after) → Yields stops ((next x).on after).1 post) :
    Yields stops ((run >>= next).on host).1 post := by
  rw [on_bind]
  cases ends : run.on host with
  | mk outcome after =>
      cases outcome with
      | ok x => exact rest x after ends
      | error e =>
          rw [ends] at first
          exact .error (first.of_error rfl)

namespace Session

variable {s : Step} {order : Order}

/-- A step with a command is what the machine makes of the order. -/
theorem Step.take_order (h : s.order? = some order) :
    s.take = (Run.ofExcept order.launch >>= Launch.run) >>= fun answer => pure (some answer) := by
  rw [← Run.obey_eq .null]
  cases s with
  | program arguments => rw [← Option.some.inj h]; rfl
  | line text => rw [← Option.some.inj h]; rfl
  | announce total => cases h
  | clock reading => cases h
  | quiet on => cases h

/-- A step without a command reports nothing, and only an announcement begins the count anew. -/
theorem Step.take_aside (h : s.order? = none) (host : Host) :
    ∃ after, s.take.on host = (.ok none, after) ∧ after.listener = host.listener ∧
      after.reports = host.reports ∧
      (after.total, after.index) = match s.announced? with
        | some total => (total, 0)
        | none => (host.total, host.index) := by
  cases s with
  | program arguments => cases h
  | line text => cases h
  | announce total => exact ⟨_, rfl, rfl, rfl, rfl⟩
  | clock reading => exact ⟨_, rfl, rfl, rfl, rfl⟩
  | quiet on => exact ⟨_, rfl, rfl, rfl, rfl⟩

theorem Step.exists_turn {answer : Option (Int × String)} (h : s.order? = some order)
    (listens : host.listener = some l) (taken : s.take.on host = (.ok answer, after)) :
    ∃ t : Turn, answer = some t.answer ∧ t.Runs host order after := by
  rw [take_order h] at taken
  obtain ⟨given, _, ran, ends⟩ := Run.exists_of_bind_ok taken
  cases ends
  obtain ⟨launch, given, runs⟩ := Run.exists_launch_of_ok ran
  obtain ⟨t, rfl, turn⟩ := Launch.exists_turn given listens runs
  exact ⟨t, rfl, turn⟩

/-- Steps that are taken, with the turns of the commands among them. -/
inductive Takes : Host → List Step → List Turn → Host → Prop
  | done (host : Host) : Takes host [] [] host
  | aside {s : Step} {host middle after : Host} {rest : List Step} {turns : List Turn} :
      s.order? = none → s.take.on host = (.ok none, middle) → Takes middle rest turns after →
      Takes host (s :: rest) turns after
  | command {s : Step} {order : Order} {t : Turn} {host middle after : Host} {rest : List Step}
      {turns : List Turn} : s.order? = some order → s.take.on host = (.ok (some t.answer), middle) →
      t.Runs host order middle → Takes middle rest turns after →
      Takes host (s :: rest) (t :: turns) after

/-- A session that comes to an end has taken all its steps. -/
theorem exists_takes {steps : List Step} {answers : List (Int × String)}
    (listens : host.listener = some l) (ends : (run steps).on host = (.ok answers, after)) :
    ∃ turns, Takes host steps turns after ∧ answers = turns.map Turn.answer := by
  induction steps generalizing host answers with
  | nil =>
      cases ends
      exact ⟨[], .done _, rfl⟩
  | cons s rest ih =>
      obtain ⟨answer, middle, taken, ends⟩ := Run.exists_of_bind_ok ends
      obtain ⟨later, behind, others, ends⟩ := Run.exists_of_bind_ok ends
      cases ends
      cases command : s.order? with
      | none =>
          obtain ⟨_, aside, kept, -⟩ := s.take_aside command host
          obtain ⟨none, rfl⟩ := Prod.mk.inj (aside.symm.trans taken)
          obtain rfl := Except.ok.inj none
          obtain ⟨turns, takes, rfl⟩ := ih (kept.trans listens) others
          exact ⟨turns, .aside command taken takes, rfl⟩
      | some order =>
          obtain ⟨t, rfl, turn⟩ := Step.exists_turn command listens taken
          obtain ⟨turns, takes, rfl⟩ := ih (turn.listener.trans listens) others
          exact ⟨t :: turns, .command command taken turn takes, rfl⟩

namespace Takes

variable {steps : List Step} {turns : List Turn}

theorem reports (h : Takes host steps turns after) :
    after.reports = (turns.flatMap Turn.reports).reverse ++ host.reports := by
  induction h with
  | done => rfl
  | @aside s host _ _ _ _ command taken _ ih =>
      obtain ⟨_, aside, -, same, -⟩ := s.take_aside command host
      cases aside.symm.trans taken
      rw [ih, same]
  | command _ _ turn _ ih =>
      rw [ih, turn.reports, List.flatMap_cons, List.reverse_append, List.append_assoc]

theorem commands (h : Takes host steps turns after) :
    List.Forall₂ (fun order t => order.launch.map Launch.shown = .ok t.command)
      (steps.filterMap Step.order?) turns := by
  induction h with
  | done => exact .nil
  | aside command _ _ ih => rwa [List.filterMap_cons_none command]
  | command command _ turn _ ih =>
      rw [List.filterMap_cons_some command]
      exact .cons turn.command ih

theorem numbers (h : Takes host steps turns after) (none : ∀ s ∈ steps, s.announced? = none) :
    turns.map Turn.index = List.range' (host.index + 1) turns.length ∧
      ∀ t ∈ turns, t.total = host.total := by
  induction h with
  | done => simp
  | @aside s host _ _ _ _ command taken _ ih =>
      rw [List.forall_mem_cons] at none
      obtain ⟨_, aside, -, -, same⟩ := s.take_aside command host
      cases aside.symm.trans taken
      rw [none.1] at same
      obtain ⟨total, index⟩ := Prod.mk.inj same
      rw [← total, ← index]
      exact ih none.2
  | command _ _ turn _ ih =>
      rw [List.forall_mem_cons] at none
      obtain ⟨numbers, totals⟩ := ih none.2
      rw [turn.announced] at totals
      refine ⟨?_, List.forall_mem_cons.mpr ⟨turn.total, totals⟩⟩
      rw [List.map_cons, List.length_cons, List.range'_succ, numbers, turn.index, turn.counted]

theorem split {front behind : List Step} (h : Takes host (front ++ behind) turns after) :
    ∃ first second middle, turns = first ++ second ∧ Takes host front first middle ∧
      Takes middle behind second after := by
  induction front generalizing host turns with
  | nil => exact ⟨[], turns, host, rfl, .done host, h⟩
  | cons s rest ih =>
      cases h with
      | aside command taken takes =>
          obtain ⟨first, second, middle, rfl, front, behind⟩ := ih takes
          exact ⟨first, second, middle, rfl, .aside command taken front, behind⟩
      | command command taken turn takes =>
          obtain ⟨first, second, middle, rfl, front, behind⟩ := ih takes
          exact ⟨_ :: first, second, middle, rfl, .command command taken turn front, behind⟩

end Takes

/-- The places of all commands can be written. -/
structure Countable (host : Host) (steps : List Step) : Prop where
  counts : host.Counts (steps.filterMap Step.order?).length
  announced : ∀ total ∈ steps.filterMap Step.announced?, total.Announces

theorem Countable.step {rest : List Step} {answer : Option (Int × String)}
    (h : Countable host (s :: rest)) (listens : host.listener = some l)
    (taken : s.take.on host = (.ok answer, after)) :
    after.listener = some l ∧ Countable after rest := by
  have announced : ∀ total ∈ rest.filterMap Step.announced?, total.Announces :=
    fun total later =>
      h.announced total (((List.suffix_cons s rest).sublist.filterMap _).subset later)
  have counts := h.counts
  cases command : s.order? with
  | none =>
      rw [List.filterMap_cons_none command] at counts
      obtain ⟨_, aside, kept, -, counted⟩ := s.take_aside command host
      obtain ⟨-, rfl⟩ := Prod.mk.inj (aside.symm.trans taken)
      refine ⟨kept.trans listens, ?_, announced⟩
      cases announces : s.announced? with
      | none =>
          rw [announces] at counted
          obtain ⟨total, index⟩ := Prod.mk.inj counted
          exact ⟨total ▸ counts.total, index ▸ counts.index⟩
      | some total =>
          rw [announces] at counted
          obtain ⟨same, zero⟩ := Prod.mk.inj counted
          have := counts.index
          refine ⟨same ▸ h.announced total (by simp [announces]), ?_⟩
          rw [zero]
          omega
  | some order =>
      rw [List.filterMap_cons_some command] at counts
      obtain ⟨t, -, turn⟩ := Step.exists_turn command listens taken
      refine ⟨turn.listener.trans listens, ⟨turn.announced ▸ counts.total, ?_⟩, announced⟩
      have := counts.index
      rw [List.length_cons] at this
      rw [turn.counted]
      omega

/-- A step that is about more than the echo does the same without it. -/
theorem Step.take_muted {rest : List Step} (h : Countable host (s :: rest))
    (listens : host.listener = some l) (acts : s.acts = true) : Run.Muted s.take s.take host := by
  cases command : s.order? with
  | some order =>
      rw [Step.take_order command]
      refine Run.Muted.bind ?_ fun _ _ _ => .pure _
      refine (Run.Muted.ofExcept order.launch).bind fun launch same written => ?_
      obtain ⟨-, rfl⟩ := Run.exists_of_ofExcept_ok written
      have counts := h.counts
      rw [List.filterMap_cons_some command] at counts
      obtain ⟨printed, echoes⟩ := counts.exists_echoed launch.shown
      exact launch.run_muted listens echoes
  | none =>
      cases s with
      | program arguments => cases command
      | line text => cases command
      | announce total => rfl
      | clock reading => rfl
      | quiet on => cases acts

/-- Whether and when commands are echoed makes no difference to a session. -/
theorem run_muted {steps : List Step} (h : Countable host steps)
    (listens : host.listener = some l) :
    Run.Muted (run steps) (run (steps.filter Step.acts)) host := by
  induction steps generalizing host with
  | nil => exact .pure []
  | cons s rest ih =>
      cases acts : s.acts with
      | true =>
          rw [List.filter_cons_of_pos acts]
          refine (s.take_muted h listens acts).bind fun answer after taken => ?_
          obtain ⟨heard, countable⟩ := h.step listens taken
          exact (ih countable heard).bind fun _ _ _ => .pure _
      | false =>
          rw [List.filter_cons_of_neg (by simp [acts])]
          cases s with
          | quiet on =>
              have taken : (Step.quiet on).take.on host =
                  (.ok none, { host with quiet := on }) := rfl
              obtain ⟨heard, countable⟩ := h.step listens taken
              have skips : (run (.quiet on :: rest)).on host =
                  (run rest).on { host with quiet := on } := by
                rw [run, Run.on_bind, taken]
                exact congrArg (Run.on · _) (bind_pure _)
              have later : Run.Muted (run rest) _ { host with quiet := on } := ih countable heard
              rw [Run.Muted, skips]
              exact later
          | announce total => cases acts
          | program arguments => cases acts
          | line text => cases acts
          | clock reading => cases acts

/-- If the listener stops nothing, a session is stopped by nothing but the launch of a command. -/
theorem run_yields {steps : List Step} (h : Countable host steps)
    (listens : host.listener = some l) (calm : ∀ reports, l reports = .ok ())
    (written : ∀ order ∈ steps.filterMap Step.order?, order.launch.isOk = true) :
    Yields Error.OfLaunch ((run steps).on host).1 fun _ => True := by
  induction steps generalizing host with
  | nil => exact .ok trivial
  | cons s rest ih =>
      have taken : Yields Error.OfLaunch (s.take.on host).1 fun _ => True := by
        cases command : s.order? with
        | none =>
            obtain ⟨after, aside, -⟩ := s.take_aside command host
            rw [aside]
            exact .ok trivial
        | some order =>
            rw [List.filterMap_cons_some command] at written
            obtain ⟨launch, given⟩ := exists_of_isOk (written order (List.mem_cons_self ..))
            have counts := h.counts
            rw [List.filterMap_cons_some command] at counts
            obtain ⟨printed, echoes⟩ := counts.exists_echoed launch.shown
            rw [Step.take_order command, given]
            exact Run.yields_bind (launch.run_yields listens calm echoes) fun _ _ _ => .ok trivial
      refine Run.yields_bind taken fun answer after ends => ?_
      obtain ⟨heard, countable⟩ := h.step listens ends
      have later : ∀ order ∈ rest.filterMap Step.order?, order.launch.isOk = true :=
        fun order among =>
          written order (((List.suffix_cons s rest).sublist.filterMap _).subset among)
      exact Run.yields_bind (ih countable heard later) fun _ _ _ => .ok trivial

/-- What turning the echo off and on does not have is not missed without it. -/
theorem filterMap_acts {α : Type} {f : Step → Option α} (h : ∀ on, f (.quiet on) = none)
    (steps : List Step) : (steps.filter Step.acts).filterMap f = steps.filterMap f := by
  rw [List.filterMap_filter]
  refine List.filterMap_congr fun s _ => ?_
  cases s <;> simp [Step.acts, h]

theorem Countable.congr {others steps : List Step} {twin : Host} (h : Countable host steps)
    (same : others.filter Step.acts = steps.filter Step.acts) (alike : twin.muted = host.muted) :
    Countable twin others := by
  have orders : others.filterMap Step.order? = steps.filterMap Step.order? := by
    rw [← filterMap_acts (fun _ => rfl), same, filterMap_acts fun _ => rfl]
  have announcements : others.filterMap Step.announced? = steps.filterMap Step.announced? := by
    rw [← filterMap_acts (fun _ => rfl), same, filterMap_acts fun _ => rfl]
  have total : twin.total = host.total := by simpa using congrArg Host.total alike
  have index : twin.index = host.index := by simpa using congrArg Host.index alike
  refine ⟨⟨total ▸ h.counts.total, ?_⟩, announcements ▸ h.announced⟩
  rw [orders, index]
  exact h.counts.index

/-- Turns of all the commands among some steps, counted from a number on under one announcement. -/
structure Counted (turns : List Turn) (steps : List Step) (first : Nat) (total : Value) : Prop where
  whole : turns.length = (steps.filterMap Step.order?).length
  numbers : turns.map Turn.index = List.range' first turns.length
  announced : ∀ t ∈ turns, t.total = total

theorem Takes.counted {steps : List Step} {turns : List Turn} (h : Takes host steps turns after)
    (none : ∀ s ∈ steps, s.announced? = none) : Counted turns steps (host.index + 1) host.total :=
  ⟨h.commands.length_eq.symm, (h.numbers none).1, (h.numbers none).2⟩

/-- What is answered and reported in a session: each command has a turn, which begins and ends by
the clocks of the machines before it and behind it, and the turns follow one another. Behind an
announcement they are counted from one, and before the first one from where the machine was. -/
structure Reported (host : Host) (steps : List Step) (answers : List (Int × String))
    (turns : List Turn) (after : Host) : Prop where
  taken : Takes host steps turns after
  answers : answers = turns.map Turn.answer
  reports : after.reports = (turns.flatMap Turn.reports).reverse ++ host.reports
  commands : List.Forall₂ (fun order t => order.launch.map Launch.shown = .ok t.command)
    (steps.filterMap Step.order?) turns
  continued : ∀ during behind, steps = during ++ behind → (∀ s ∈ during, s.announced? = none) →
    ∃ first second, turns = first ++ second ∧ Counted first during (host.index + 1) host.total
  anew : ∀ front total during behind, steps = front ++ .announce total :: during ++ behind →
    (∀ s ∈ during, s.announced? = none) →
    ∃ first second third, turns = first ++ second ++ third ∧
      first.length = (front.filterMap Step.order?).length ∧ Counted second during 1 total

theorem Takes.reported {steps : List Step} {turns : List Turn} (h : Takes host steps turns after) :
    Reported host steps (turns.map Turn.answer) turns after := by
  refine ⟨h, rfl, h.reports, h.commands, ?_, ?_⟩
  · rintro during behind rfl none
    obtain ⟨first, second, middle, rfl, takes, -⟩ := h.split
    exact ⟨first, second, rfl, takes.counted none⟩
  · rintro front total during behind rfl none
    obtain ⟨both, third, _, rfl, takes, -⟩ := h.split
    obtain ⟨first, second, begun, rfl, before, takes⟩ := takes.split
    refine ⟨first, second, third, rfl, before.commands.length_eq.symm, ?_⟩
    cases takes with
    | command command => cases command
    | aside _ taken takes =>
        cases taken
        exact takes.counted none

end Session

/-- To someone who listens, each session that comes to an end is reported command by command: start
and end alternate, the commands are counted from the last announcement, and the end brings the
number, the text and the total of the start, how far the clock went on, and just the answer that is
returned. If the places of the commands can be written, it makes no difference whether and when they
are echoed. And unless the listener stops the program, or a command cannot be put into words, a
session in which no launch stops the program comes to an end. -/
theorem session_reported (listens : host.listener = some l) (steps : List Step) :
    (∀ answers after, (Session.run steps).on host = (.ok answers, after) →
      ∃ turns, Reported host steps answers turns after) ∧
    (Countable host steps →
      (∀ others twin, others.filter Step.acts = steps.filter Step.acts → twin.muted = host.muted →
        ((Session.run others).on twin).1 = ((Session.run steps).on host).1 ∧
          ((Session.run others).on twin).2.muted = ((Session.run steps).on host).2.muted) ∧
      ((∀ reports, l reports = .ok ()) →
        (∀ order ∈ steps.filterMap Step.order?, order.launch.isOk = true) →
        (∀ e after, e.OfLaunch → (Session.run steps).on host ≠ (.error e, after)) →
        ∃ answers after, (Session.run steps).on host = (.ok answers, after))) := by
  refine ⟨fun answers after ends => ?_, fun countable => ⟨fun others twin same alike => ?_, ?_⟩⟩
  · obtain ⟨turns, takes, rfl⟩ := exists_takes listens ends
    exact ⟨turns, takes.reported⟩
  · have same_listener : twin.listener = host.listener := by
      simpa using congrArg Host.listener alike
    have heard : twin.listener = some l := same_listener.trans listens
    have quiet := Session.run_muted countable listens
    have quiet' := Session.run_muted (countable.congr same alike) heard
    rw [Run.Muted, same, alike, quiet] at quiet'
    obtain ⟨outcome, rest⟩ := Prod.mk.inj quiet'
    exact ⟨outcome.symm, rest.symm⟩
  · intro calm written launched
    have yields := Session.run_yields countable listens calm written
    cases ends : (Session.run steps).on host with
    | mk outcome after =>
        rw [ends] at yields
        cases yields with
        | ok _ => exact ⟨_, after, rfl⟩
        | error stopped => exact (launched _ after stopped ends).elim

/-- Two rows of commands, the second of them without echo. -/
def twoRows : List Step :=
  [.announce (.int 2), .program ["ffmpeg", "-i", "a b.mp4"], .clock (.finite 60),
    .line " echo  done ", .quiet true, .announce .null, .program ["mpv", .int 1]]

/-- A machine on which the player is missing, to someone who only listens. -/
def playerMissing : Host :=
  { listener := some fun _ => .ok (), index := 4
    commands := [{ exitCode := 3, diagnostic := [0xff, 0x0a], seconds := .finite (5 / 2) },
      { seconds := .finite 1 }, { fault := some .missing }] }

theorem session_reported_twoRows :
    playerMissing.listener = some (fun _ => .ok ()) ∧ Countable playerMissing twoRows ∧
    ∃ (after : Host) (turns : List Turn), (Session.run twoRows).on playerMissing =
        (.ok [(3, "\ufffd\n"), (0, ""), (127, "command not found: mpv")], after) ∧
      after.reports = (turns.flatMap Turn.reports).reverse ∧
      (∃ row rest : List Turn, turns = row ++ rest ∧ row.map Turn.index = [1, 2]) ∧
      ((Session.run (twoRows.filter Step.acts)).on playerMissing.muted).2.reports =
        after.reports := by
  have answers : ((Session.run twoRows).on playerMissing).1 =
      .ok [(3, "\ufffd\n"), (0, ""), (127, "command not found: mpv")] := by decide +kernel
  have short : playerMissing.index + 3 < 10 ^ Numeral.wholeDigitLimit :=
    Value.isLegible_int.mp (isLegible_small (n := 7) (by decide))
  have two : (Value.int 2).Announces := ⟨isLegible_small (by decide), false, rfl⟩
  have countable : Countable playerMissing twoRows := by
    refine ⟨⟨Value.announces_null, short⟩, ?_⟩
    simp [twoRows, Step.announced?, two, Value.announces_null]
  have listens : playerMissing.listener = some fun _ => .ok () := rfl
  obtain ⟨reported, rest⟩ := session_reported listens twoRows
  obtain ⟨alike, ends⟩ := rest countable
  obtain ⟨given, after, ended⟩ := ends (fun _ => rfl) (by decide +kernel)
    fun e after _ stopped => by
      rw [stopped] at answers
      cases answers
  obtain ⟨turns, told⟩ := reported given after ended
  rw [ended] at answers
  obtain rfl := Except.ok.inj answers
  -- The second command is the last before the second announcement.
  obtain ⟨first, row, third, rfl, none, counted⟩ :=
    told.anew [] (.int 2) (twoRows.tail.take 4) (twoRows.drop 5) rfl
      (by simp [twoRows, Step.announced?])
  obtain rfl := List.length_eq_zero_iff.mp none
  have numbers := counted.numbers
  rw [counted.whole] at numbers
  obtain ⟨-, same⟩ := alike (twoRows.filter Step.acts) playerMissing.muted rfl rfl
  rw [ended] at same
  have silent := congrArg Host.reports same
  rw [Host.muted_reports, Host.muted_reports] at silent
  refine ⟨rfl, countable, after, _, ended, ?_, ⟨row, third, rfl, numbers⟩, silent⟩
  rw [told.reports]
  exact List.append_nil _

end Reel
