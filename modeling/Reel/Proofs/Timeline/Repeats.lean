import Reel.Proofs.Host.Probe
import Reel.Proofs.Timeline.Probing

/-!
# Runs that can be repeated

A run that looks at nothing but the files and the answers of probes, and changes neither, gives
the same again whenever it is repeated. Of the machine it changes no more than the record of what
was started. Resolving a timeline is such a run, with any number of workers and also where it is
stopped.
-/
namespace Reel

namespace Run

variable {α β : Type} {run : Run α} {next : α → Run β}

/-- What the run gives and starts hangs on the files and on the answers of probes alone, and it
leaves the machine with nothing but these starts on record. -/
def Repeats (run : Run α) : Prop :=
  ∃ answer : Files → (List Value → ProbeScript) → Except Error α × List Spawn, ∀ host,
    run.on host = ((answer host.files host.probes).1,
      { host with spawned := (answer host.files host.probes).2 ++ host.spawned })

namespace Repeats

theorem pure (x : α) : Repeats (Pure.pure x : Run α) := ⟨fun _ _ => (.ok x, []), fun _ => rfl⟩

theorem throw (e : Error) : Repeats (throw e : Run α) :=
  ⟨fun _ _ => (.error e, []), fun _ => rfl⟩

theorem ofExcept (r : Except Error α) : Repeats (Run.ofExcept r) := by
  cases r with
  | ok x => exact .pure x
  | error e => exact .throw e

theorem files : Repeats Run.files := ⟨fun files _ => (.ok files, []), fun _ => rfl⟩

theorem bind (first : Repeats run) (rest : ∀ x, Repeats (next x)) : Repeats (run >>= next) := by
  obtain ⟨answer, gives⟩ := first
  choose further follows using rest
  refine ⟨fun files probes => match answer files probes with
    | (.error e, asked) => (.error e, asked)
    | (.ok x, asked) => ((further x files probes).1, (further x files probes).2 ++ asked),
    fun host => ?_⟩
  rw [on_bind, gives]
  dsimp only
  rcases answer host.files host.probes with ⟨outcome, asked⟩
  cases outcome with
  | error e => rfl
  | ok x => simp only [follows, List.append_assoc]

theorem map {f : α → β} (h : Repeats run) : Repeats (ExceptT.map f run : Run β) := by
  obtain ⟨answer, gives⟩ := h
  refine ⟨fun files probes => ((answer files probes).1.map f, (answer files probes).2),
    fun host => ?_⟩
  rw [on_map, gives]

theorem tryCatch {handler : Error → Run α} (h : Repeats run)
    (handles : ∀ e, Repeats (handler e)) : Repeats (MonadExcept.tryCatch run handler) := by
  obtain ⟨answer, gives⟩ := h
  choose caught follows using handles
  refine ⟨fun files probes => match answer files probes with
    | (.ok x, asked) => (.ok x, asked)
    | (.error e, asked) => ((caught e files probes).1, (caught e files probes).2 ++ asked),
    fun host => ?_⟩
  rw [on_tryCatch, gives]
  dsimp only
  rcases answer host.files host.probes with ⟨outcome, asked⟩
  cases outcome with
  | ok x => rfl
  | error e => simp only [follows, List.append_assoc]

theorem mapM {f : α → Run β} (h : ∀ x, Repeats (f x)) (xs : List α) : Repeats (xs.mapM f) := by
  induction xs with
  | nil => exact .pure []
  | cons x rest ih =>
      rw [List.mapM_cons]
      exact (h x).bind fun _ => ih.bind fun _ => .pure _

theorem probe (words : List Value) : Repeats (Run.probe words) := by
  refine ⟨fun _ probes => ((probes words).found,
    (probes words).closings.map (.arguments words)), fun host => ?_⟩
  exact probe_on words host

/-- Machines with the same files and answers are given the same. -/
theorem outcome_eq (h : Repeats run) {host other : Host} (files : host.files = other.files)
    (probes : host.probes = other.probes) : (run.on host).1 = (run.on other).1 := by
  obtain ⟨answer, gives⟩ := h
  rw [gives, gives, files, probes]

theorem exists_spawned (h : Repeats run) (host : Host) :
    ∃ asked, (run.on host).2 = { host with spawned := asked ++ host.spawned } := by
  obtain ⟨answer, gives⟩ := h
  exact ⟨_, by rw [gives]⟩

/-- On machines with the same files and answers the same programs are started. -/
theorem spawned_eq (h : Repeats run) {host other : Host} {asked : List Spawn}
    (files : host.files = other.files) (probes : host.probes = other.probes)
    (started : (run.on other).2.spawned = asked ++ other.spawned) :
    (run.on host).2 = { host with spawned := asked ++ host.spawned } := by
  obtain ⟨answer, gives⟩ := h
  rw [gives] at started ⊢
  rw [files, probes, List.append_cancel_right started]

end Repeats

end Run

namespace Prober

structure Repeats (p : Prober) : Prop where
  duration : ∀ path, (p.durationText path).Repeats
  sound : ∀ path, (p.soundText path).Repeats

theorem ofProgram_repeats (program : Value) : (ofProgram program).Repeats where
  duration path := (Run.Repeats.probe (durationQuery program path)).bind fun _ => .pure _
  sound path := (Run.Repeats.probe (soundQuery program path)).bind fun _ => .pure _

variable {p : Prober}

theorem perform_repeats (h : p.Repeats) (limit : Double) (job : Job) :
    (p.perform limit job).Repeats := by
  have measured (path : Value) : (p.duration path).Repeats := (h.duration path).bind fun _ => .pure _
  cases job with
  | clip path =>
      refine .bind (.bind (.ofExcept _) fun _ => ?_) fun _ => .pure _
      exact (measured path).bind fun _ => .pure _
  | sound path => exact .bind ((h.sound path).bind fun _ => .pure _) fun _ => .pure _
  | item path => exact .bind ((measured path).bind fun _ => .pure _) fun _ => .pure _

theorem performAll_repeats (h : p.Repeats) (limit : Double) (jobs : List Job) :
    (p.performAll limit jobs).Repeats := by
  refine (Run.Repeats.mapM (fun job => ?_) jobs).bind fun outcomes => ?_
  · exact (perform_repeats h limit job).map.tryCatch fun _ => .pure _
  · exact Run.Repeats.mapM (fun outcome => .ofExcept outcome) outcomes

theorem resolve_repeats (h : p.Repeats) (workers : Int) (t : Timeline Double) :
    (p.resolve workers t).Repeats := by
  refine (Run.Repeats.ofExcept _).bind fun prepared => ?_
  dsimp only
  split
  · exact (Run.Repeats.mapM (perform_repeats h t.maxClip) _).bind fun _ => .pure _
  · exact (performAll_repeats h t.maxClip _).bind fun _ => .pure _

end Prober

end Reel
