import Reel.Proofs.Pipeline.Launches
import Reel.Proofs.Timecode.Written

/-!
# Commands without echo

What is echoed of commands goes to the console and nowhere else. A command that can be echoed at
all, because its place in the row can be written, is therefore answered and reported in the same
way on a machine without echo, and changes the rest of the machine in the same way.
-/
namespace Reel

/-- The machine without echo. -/
def Host.muted (host : Host) : Host := { host with quiet := true, printed := [] }

namespace Host

@[simp] theorem muted_listener (host : Host) : host.muted.listener = host.listener := rfl

@[simp] theorem muted_total (host : Host) : host.muted.total = host.total := rfl

@[simp] theorem muted_index (host : Host) : host.muted.index = host.index := rfl

@[simp] theorem muted_reports (host : Host) : host.muted.reports = host.reports := rfl

end Host

namespace Run

variable {α β : Type} {run quiet : Run α} {host : Host}

/-- On a machine without echo the second run does what the first does with it. -/
def Muted (run quiet : Run α) (host : Host) : Prop :=
  quiet.on host.muted = ((run.on host).1, (run.on host).2.muted)

namespace Muted

theorem pure (x : α) : Muted (Pure.pure x) (Pure.pure x) host := rfl

theorem ofExcept (r : Except Error α) : Muted (Run.ofExcept r) (Run.ofExcept r) host := by
  rw [Muted, on_ofExcept, on_ofExcept]

theorem bind {next next' : α → Run β} (first : Muted run quiet host)
    (rest : ∀ x after, run.on host = (.ok x, after) → Muted (next x) (next' x) after) :
    Muted (run >>= next) (quiet >>= next') host := by
  unfold Muted at *
  rw [on_bind, on_bind, first]
  cases ends : run.on host with
  | mk outcome after =>
      cases outcome with
      | error e => rfl
      | ok x => exact rest x after ends

/-- Whoever looks at the machine must not look at what is echoed. -/
theorem get {next next' : Host → Run β} (h : Muted (next host) (next' host.muted) host) :
    Muted (MonadState.get >>= next) (MonadState.get >>= next') host := by
  unfold Muted at *
  rw [on_bind, on_bind, on_get, on_get]
  exact h

end Muted

theorem report_muted (r : Report) : Muted (report r) (report r) host := by
  refine Muted.get ?_
  dsimp only [Host.muted]
  cases host.listener with
  | none => exact .pure ()
  | some l => exact Muted.bind rfl fun _ after _ => .get (.ofExcept (l after.reports))

theorem perform_muted : Muted perform perform host := by
  unfold Muted perform
  simp only [on_bind, on_get, on_set, Host.muted]
  cases (host.commands.headD {}).fault <;> rfl

theorem beginCommand_muted {l : Listener} (listens : host.listener = some l) {command : String}
    {printed : List String} (echoes : host.echoed command = .ok printed) :
    Muted (beginCommand command) (beginCommand command) host := by
  have heard : host.muted.listener = some l := listens
  unfold Muted
  rw [beginCommand_listened listens, beginCommand_listened heard, echoes]
  rfl

theorem endCommand_muted (command : String) (index : Nat) (started : Double) (code : Int)
    (diagnostic : String) : Muted (endCommand command index started code diagnostic)
      (endCommand command index started code diagnostic) host :=
  .get (report_muted _)

end Run

namespace Launch

open Run

variable {host : Host}

theorem start_muted (l : Launch) : Muted l.start l.start host := by
  rw [start_eq]
  exact Muted.bind rfl fun _ _ _ => perform_muted

theorem run_muted {listener : Listener} (l : Launch) (listens : host.listener = some listener)
    {printed : List String} (echoes : host.echoed l.shown = .ok printed) :
    Muted l.run l.run host := by
  refine (beginCommand_muted listens echoes).bind fun index begun _ => ?_
  refine .get ?_
  refine l.start_muted.bind fun outcome ended _ => ?_
  refine (Muted.ofExcept _).bind fun answer after _ => ?_
  exact (endCommand_muted _ _ _ _ _).bind fun _ _ _ => .pure _

end Launch

/-- A total that can be written before the commands, or that is left out there. -/
structure Value.Announces (total : Value) : Prop where
  legible : total.isLegible = true
  number : ∃ b, countsNothing total = .ok b

/-- The places of so many commands can be written. -/
structure Host.Counts (host : Host) (commands : Nat) : Prop where
  total : host.total.Announces
  index : host.index + commands < 10 ^ Numeral.wholeDigitLimit

theorem Value.announces_null : Value.null.Announces := ⟨rfl, true, rfl⟩

theorem exists_commandPrefix {index : Nat} {total : Value} (h : total.Announces)
    (legible : (Value.int index).isLegible = true) :
    ∃ place, commandPrefix (.int index) total = .ok place := by
  have written : (Value.int index).toText = .ok (Value.int index).shown := if_pos legible
  have announced : total.toText = .ok total.shown := if_pos h.legible
  obtain ⟨unbounded, number⟩ := h.number
  have counted : countsNothing (.int index) = .ok (decide ((index : Int) ≤ 0)) := rfl
  rw [commandPrefix, counted, number, written, announced]
  cases decide ((index : Int) ≤ 0) <;> cases unbounded <;> exact ⟨_, rfl⟩

theorem Host.Counts.exists_echoed {host : Host} {n : Nat} (h : host.Counts (n + 1))
    (command : String) : ∃ printed, host.echoed command = .ok printed := by
  have short : host.index + 1 < 10 ^ Numeral.wholeDigitLimit := by
    have := h.index
    omega
  obtain ⟨place, written⟩ := exists_commandPrefix h.total (Value.isLegible_int.mpr short)
  unfold echoed
  split
  · exact ⟨_, rfl⟩
  · rw [written]
    exact ⟨_, rfl⟩

end Reel
