import Reel.Proofs.Host.Places
import Reel.Proofs.Pipeline.Launches

/-!
# Properties of files that outlast commands

Commands change files by what their scripts leave, and by nothing else. A property of files that
outlasts what a script leaves therefore outlasts a row of commands, whoever listens and however the
row ends. That no place is listed twice is such a property, and it outlasts making the directory of
an output as well.
-/
namespace Reel

namespace Run

variable {α β : Type} {inv : Files → Prop} {run : Run α} {next : α → Run β}

/-- The files keep the property, however the run ends. -/
def Preserves (inv : Files → Prop) (run : Run α) : Prop :=
  ∀ host, inv host.files → inv (run.on host).2.files

namespace Preserves

theorem of_same (h : ∀ host, (run.on host).2.files = host.files) : Preserves inv run :=
  fun host holds => (h host).symm ▸ holds

theorem pure (x : α) : Preserves inv (Pure.pure x) := .of_same fun _ => rfl

theorem throw (e : Error) : Preserves inv (MonadExcept.throw e : Run α) := .of_same fun _ => rfl

theorem ofExcept (r : Except Error α) : Preserves inv (Run.ofExcept r) :=
  .of_same fun host => by rw [on_ofExcept]

theorem bind (first : Preserves inv run) (rest : ∀ x, Preserves inv (next x)) :
    Preserves inv (run >>= next) := by
  intro host holds
  have between := first host holds
  rw [on_bind]
  cases ends : run.on host with
  | mk outcome after =>
      rw [ends] at between
      cases outcome with
      | error e => exact between
      | ok x => exact rest x after between

end Preserves

theorem report_preserves (r : Report) : Preserves inv (report r) := by
  refine .of_same fun host => ?_
  rw [report, on_bind, on_get]
  dsimp only
  split
  · rfl
  · simp only [on_bind, on_modify, on_get, on_ofExcept]

theorem beginCommand_preserves (command : String) : Preserves inv (beginCommand command) := by
  have told (r : Report) (index : Nat) : Preserves inv (do report r; return index : Run Nat) :=
    (report_preserves r).bind fun _ => .pure index
  refine Preserves.bind (.of_same fun _ => rfl) fun _ => ?_
  refine Preserves.bind (.of_same fun _ => rfl) fun host => ?_
  dsimp only
  split
  · exact told _ _
  · refine (Preserves.ofExcept _).bind fun place => ?_
    exact Preserves.bind (.of_same fun _ => rfl) fun _ => told _ _

theorem endCommand_preserves (command : String) (index : Nat) (started : Double) (code : Int)
    (diagnostic : String) :
    Preserves inv (endCommand command index started code diagnostic) :=
  Preserves.bind (.of_same fun _ => rfl) fun _ => report_preserves _

end Run

open Run

variable {inv : Files → Prop}

theorem Launch.run_preserves
    (leaves : ∀ files script, inv files → inv (CommandScript.leave files script)) (l : Launch) :
    Preserves inv l.run := by
  have starts : Preserves inv l.start := by
    rw [l.start_eq]
    refine Preserves.bind (.of_same fun _ => rfl) fun _ host holds => ?_
    obtain ⟨clock, ends⟩ := perform_on host
    rw [ends]
    exact leaves _ _ holds
  refine (beginCommand_preserves _).bind fun index => ?_
  refine Preserves.bind (.of_same fun _ => rfl) fun host => starts.bind fun outcome => ?_
  refine (Preserves.ofExcept _).bind fun answer => ?_
  exact (endCommand_preserves _ _ _ _ _).bind fun _ => .pure _

theorem passes_preserves
    (leaves : ∀ files script, inv files → inv (CommandScript.leave files script)) (program : Value)
    (runs : List Invocation) : Preserves inv (passes program runs) := by
  have one (i : Invocation) : Preserves inv (invocation program i) := by
    rw [invocation, Runner.invocation_eq]
    refine (Preserves.ofExcept _).bind fun order => ?_
    rw [obey_eq]
    exact ((Preserves.ofExcept _).bind fun launch => launch.run_preserves leaves).bind
      fun _ => .pure _
  induction runs with
  | nil => exact .throw _
  | cons first rest ih =>
      cases rest with
      | nil => exact one first
      | cons second rest =>
          refine (one first).bind fun result => ?_
          split
          · exact ih
          · exact .pure result

theorem CommandScript.leave_distinct (files : Files) (script : CommandScript)
    (h : files.Distinct) : (leave files script).Distinct := by
  unfold leave
  cases script.fault with
  | some fault => exact h
  | none => exact List.foldlRecOn _ _ h fun files h path _ => h.write path _

theorem makeWay_distinct (path : String) : Preserves Files.Distinct (makeWay path) := by
  intro host distinct
  have made := distinct.makePath path
  unfold makeWay
  simp only [on_bind, on_files, on_modify, on_pure]
  exact made

theorem makePath_distinct (path : String) (written : String → Value) :
    Preserves Files.Distinct (Run.makePath path written) := by
  unfold Run.makePath
  dsimp only
  refine Preserves.bind (.of_same fun _ => rfl) fun files => ?_
  split
  · split
    · exact .pure ()
    · refine (makeWay_distinct _).bind fun fault => ?_
      split
      · split
        · exact .pure ()
        · exact (Preserves.throw _).bind fun _ => .pure ()
      · exact .pure ()
  · split
    · exact .throw _
    · refine (makeWay_distinct _).bind fun fault => ?_
      split
      · split
        · exact .throw _
        · exact (Preserves.throw _).bind fun _ => .throw _
      · exact .throw _

theorem makeDirectoryOf_distinct (output : Value) :
    Preserves Files.Distinct (Project.makeDirectoryOf output) := by
  have made (path : String) (written : String → Value) : Preserves Files.Distinct (do
      let directory := Path.dirname path
      unless directory = "" || (← Run.files).exists? directory do
        Run.makePath directory written) := by
    refine Preserves.bind (.of_same fun _ => rfl) fun files => ?_
    split
    · exact .pure ()
    · exact makePath_distinct _ _
  unfold Project.makeDirectoryOf
  dsimp only
  split
  · rw [pure_bind]
    exact made _ _
  · refine (Preserves.ofExcept _).bind fun path => ?_
    rw [pure_bind]
    exact made _ _

end Reel
