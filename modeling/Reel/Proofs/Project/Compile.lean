import Reel.Project
import Reel.Proofs.Graph.Defects
import Reel.Proofs.Host.Commands
import Reel.Proofs.Timeline.Asking

/-!
# What compiling a project does

A project is checked before any program starts. What passed the check compiles with probes only,
and nothing that happens after the check is a rejection: the segments are still there once they
are resolved, the options are still those that were checked, and the output still has a path.
-/
namespace Reel

namespace Work

variable {α β : Type}

/-- The work on a project as a run that keeps the project with its result. -/
def keeping (work : Work α) (p : Project) : Run (α × Project) := ExceptT.mk fun host =>
  let (outcome, after, host) := work.on p host
  (outcome.map fun x => (x, after), host)

theorem keeping_pure (x : α) (p : Project) : keeping (pure x) p = pure (x, p) := rfl

theorem keeping_get (p : Project) : keeping get p = pure (p, p) := rfl

theorem keeping_modify (f : Project → Project) (p : Project) :
    keeping (modify f) p = pure ((), f p) := rfl

theorem keeping_bind (work : Work α) (next : α → Work β) (p : Project) :
    keeping (work >>= next) p = keeping work p >>= fun done => keeping (next done.1) done.2 := by
  funext host
  unfold keeping Work.on ExceptT.run StateT.run Id.run ExceptT.mk
  simp only [bind, ExceptT.bind, ExceptT.mk, StateT.bind]
  rcases work p host with ⟨⟨outcome, after⟩, between⟩
  cases outcome <;> rfl

theorem keeping_ofRun (run : Run α) (p : Project) :
    keeping (ofRun run) p = run >>= fun x => pure (x, p) := by
  funext host
  unfold keeping Work.on ofRun Run.on ExceptT.run StateT.run Id.run ExceptT.mk
  simp only [bind, ExceptT.bind, ExceptT.mk, StateT.bind]
  rcases run host with ⟨outcome, between⟩
  cases outcome <;> rfl

theorem keeping_ofExcept (r : Except Error α) (p : Project) :
    keeping (ofExcept r) p = Run.ofExcept r >>= fun x => pure (x, p) := keeping_ofRun _ p

theorem runOn_eq (work : Work α) (p : Project) :
    work.runOn p = keeping work p >>= fun done => pure done.1 := by
  funext host
  unfold keeping runOn Work.on ExceptT.run StateT.run Id.run ExceptT.mk
  simp only [bind, ExceptT.bind, ExceptT.mk, StateT.bind]
  rcases work p host with ⟨⟨outcome, after⟩, between⟩
  cases outcome <;> rfl

end Work

theorem Refusal.unrejected {t : Timeline Double} {e : Error} (nonempty : t.segments ≠ [])
    (h : Refusal t e) : e.Unrejected := by
  cases h with
  | empty none => exact absurd none nonempty
  | plain plain => exact plain.unrejected
  | format x written => exact (isPlain_of_format written).unrejected
  | segment path hs le => trivial
  | item path hi hm le => trivial

namespace Project

variable {p : Project}

structure Checked (p : Project) : Prop where
  segments : p.timeline.segments ≠ []
  encode : p.encode.validate = .ok ()
  output : ∃ path, p.outputPath = .ok path

theorem validate_yields (p : Project) (files : Files) :
    Yields (fun _ => True) (p.validate files) fun _ => p.Checked := by
  unfold validate
  dsimp only
  refine (Yields.any _).bind fun _ _ => ?_
  split
  · exact .error trivial
  · next nonempty =>
      have last : Yields (fun _ => True) (do
          p.encode.validate
          let output ← p.outputPath
          if ← files.existsAt output then reject (.outputExists (← output.toText)))
          fun _ => p.Checked := by
        refine (Yields.any _).bind fun _ valid => ?_
        refine (Yields.any _).bind fun output path => ?_
        refine (Yields.any _).bind fun taken _ => ?_
        split
        · exact (Yields.any _).bind fun _ _ => .error trivial
        · exact .ok ⟨by simpa [List.isEmpty_iff] using nonempty, valid, output, path⟩
      refine (Yields.any _).bind fun _ _ => ?_
      split
      · exact last
      · exact (Yields.any _).bind fun _ _ => (Yields.any _).bind fun _ _ => last

theorem passLogPlace_yields (p : Project) (output : Value) :
    Yields Error.IsPlain (p.passLogPlace output) fun _ => True := by
  have last (directory : Value) : Yields Error.IsPlain (do
      let name := "." ++ (← p.timeline.name.toText) ++ "-passlog"
      return Path.join (← directory.toPath) name) fun _ => True :=
    (toText_yields _).bind fun _ _ => (toPath_yields _).bind fun _ _ => .ok trivial
  unfold passLogPlace
  dsimp only
  split
  · exact Yields.bind (.map (toPath_yields output)) fun directory (_ : True) => last directory
  · exact Yields.bind (.ok trivial) fun directory (_ : True) => last directory

structure Compiled (p q : Project) : Prop where
  dryRun : q.dryRun = p.dryRun
  output : ∃ path, q.outputPath = .ok path

variable {e : Effects} {q : Project}

/-- The commands of a graph are written without asking back. -/
theorem invocations_does (valid : q.encode.validate = .ok ()) (done : p.Compiled q)
    (graph : Graph Double) (output : Value) :
    Run.Does e Error.Unrejected (Work.keeping (do
      Work.ofExcept (graph.invocations (← get).encode output nullDevice)) q) fun done =>
        p.Compiled done.2 := by
  rw [Work.keeping_bind, Work.keeping_get, pure_bind, Work.keeping_ofExcept]
  have written := (invocations_yields graph valid output nullDevice).widen
    fun _ => Error.IsPlain.unrejected
  exact (Run.Does.ofExcept written).bind fun _ _ => .pure done

theorem compile_careful (p : Project) :
    Run.Careful (.probes p.probeProgram) (Work.keeping compile p) fun done =>
      p.Compiled done.2 := by
  unfold compile
  simp only [Work.keeping_bind, Work.keeping_get, Work.keeping_ofRun, Work.keeping_ofExcept,
    Work.keeping_modify, pure_bind, bind_assoc]
  refine .bind_still .files fun files _ => ?_
  refine .bind_still (.ofExcept (p.validate_yields files)) fun _ checked => ?_
  refine .of_unrejected ?_
  have probed := Prober.resolve_does (Prober.ofProgram_asks p.probeProgram) p.probeWorkers
    p.timeline
  refine probed.unrejected.bind fun resolved length => ?_
  have nonempty : resolved.segments ≠ [] := by
    rw [← List.length_pos_iff, length, List.length_pos_iff]
    exact checked.segments
  refine (Run.Does.ofExcept ((build_yields resolved).widen
    fun _ => Refusal.unrejected nonempty)).bind fun graph _ => ?_
  obtain ⟨path, output⟩ := checked.output
  simp only [output, Run.ofExcept, pure_bind]
  split
  · have placed := (passLogPlace_yields p path).widen fun _ => Error.IsPlain.unrejected
    rw [Work.keeping_bind, Work.keeping_ofExcept, bind_assoc]
    refine (Run.Does.ofExcept placed).bind fun log _ => ?_
    rw [pure_bind, Work.keeping_bind, Work.keeping_modify, pure_bind]
    refine invocations_does ?_ ?_ graph path
    · exact checked.encode
    · exact ⟨rfl, path, output⟩
  · refine invocations_does ?_ ?_ graph path
    · exact checked.encode
    · exact ⟨rfl, path, output⟩

end Project

end Reel
