import Reel.Proofs.Project.Compile

/-!
# What planning and rendering a project do

A plan and a dry run stop with the commands that were compiled: they do no more than compiling
does. A render goes on from there, changes files and starts programs, and rejects nothing any
more.
-/
namespace Reel

open Run

theorem clearAt_yields (files : Files) (v : Value) :
    Yields Error.IsPlain (PassLog.clearAt files v) fun _ => True := by
  unfold PassLog.clearAt
  split
  · exact .ok trivial
  · exact .error trivial
  · refine (toPath_yields _).bind fun log _ => ?_
    split
    · exact .error trivial
    · exact .ok trivial

namespace Project

variable {p : Project}

theorem makeDirectoryOf_does (output : Value) :
    Does .any Error.IsPlain (makeDirectoryOf output) fun _ => True := by
  have made (path : String) (written : String → Value) : Does .any Error.IsPlain (do
      let directory := Path.dirname path
      unless directory = "" || (← Run.files).exists? directory do
        Run.makePath directory written) fun _ => True := by
    refine Does.files.bind fun files _ => ?_
    split
    · exact .pure trivial
    · exact makePath_does _ _
  unfold makeDirectoryOf
  dsimp only
  split
  · rw [pure_bind]
    exact made _ _
  · refine (Does.ofExcept (toPath_yields output)).bind fun path _ => ?_
    rw [pure_bind]
    exact made _ _

/-- The logs are taken away whether or not the passes were started. -/
theorem runPasses_does (p : Project) (invocations : List Invocation) :
    Does .any Error.IsPlain (p.runPasses invocations) fun _ => True := by
  have clean : Does .any Error.IsPlain (do
      unless p.keepTemp do
        let files ← Run.ofExcept (PassLog.clearAt (← Run.files) p.encode.passLogPrefix)
        modify fun host => { host with files } : Run Unit) fun _ => True := by
    split
    · exact .pure trivial
    · refine Does.files.bind fun files _ => ?_
      exact (Does.ofExcept (clearAt_yields files _)).bind fun cleared _ => setFiles_does cleared
  have ran := (passes_does p.encoderProgram invocations).tryCatch fun cause plain =>
    clean.bind fun _ _ => .throw plain
  exact ran.bind fun result _ => clean.bind fun _ _ => .pure trivial

theorem renderTo_does {passes : Run PipelineResult}
    (does : Does .any Error.IsPlain passes fun _ => True) (output : Value) :
    Does .any Error.IsPlain (renderTo output passes) fun _ => True := by
  refine (makeDirectoryOf_does output).bind fun _ _ => does.bind fun result _ => ?_
  refine (Does.ofExcept (requireOk_yields result)).bind fun _ _ => ?_
  refine (Does.ofExcept (toText_yields output)).bind fun path _ => ?_
  exact (echo_does _).bind fun _ _ => .pure trivial

theorem rehearse_does {e : Effects} (program : Value) (invocations : List Invocation) :
    Does e Error.IsPlain (rehearse program invocations) fun _ => True := by
  refine Does.get.bind fun host _ => ?_
  split
  · exact .pure trivial
  · refine (Does.forM (fun i => ?_) invocations).bind fun _ _ => printLine_does _
    exact (Does.ofExcept (commandLine_yields i program)).bind fun _ _ => printLine_does _

theorem plan_careful (p : Project) :
    Careful (.probes p.probeProgram) (plan.runOn p) fun _ => True := by
  rw [Work.runOn_eq]
  unfold plan
  simp only [Work.keeping_bind, Work.keeping_get, Work.keeping_ofExcept, pure_bind, bind_assoc]
  refine (compile_careful p).bind fun done compiled => ?_
  obtain ⟨path, output⟩ := compiled.output
  have commands : Yields Error.IsPlain
      (done.1.mapM fun i => i.commandLine done.2.settings.ffmpeg) fun _ => True :=
    .mapM (fun i => commandLine_yields i _) done.1
  refine Does.unrejected (Does.bind (.ofExcept ?_) fun _ (_ : True) => .pure trivial)
  rw [output]
  refine Yields.bind (.ok trivial) fun _ (_ : True) => ?_
  split
  · exact (describe_yields _).bind fun _ _ => commands.bind fun _ _ => .ok trivial
  · exact commands.bind fun _ _ => .ok trivial

/-- The effects of a run: those of its probes if it is a dry run. -/
def effects (p : Project) : Effects := if p.dryRun then .probes p.probeProgram else .any

/-- A dry run does what compiling does. A run that is none stays careful as well. -/
theorem run_careful (p : Project) : Careful p.effects ((run none).runOn p) fun _ => True := by
  rw [Work.runOn_eq]
  unfold run
  simp only [Work.keeping_bind, Work.keeping_get, pure_bind, bind_assoc]
  have compiles := compile_careful p
  unfold effects
  split
  · next dry =>
      refine compiles.bind fun done compiled => ?_
      rw [if_pos (compiled.dryRun.trans dry)]
      simp only [Work.keeping_bind, Work.keeping_ofRun, Work.keeping_pure, pure_bind, bind_assoc]
      exact (rehearse_does _ _).unrejected.bind fun _ _ => .pure trivial
  · next live =>
      refine (compiles.widen (Effects.within_any _)).bind fun done compiled => ?_
      rw [if_neg (by rw [compiled.dryRun]; exact live)]
      obtain ⟨path, output⟩ := compiled.output
      simp only [Work.keeping_bind, Work.keeping_ofRun, Work.keeping_ofExcept, Work.keeping_pure,
        output, Run.ofExcept, pure_bind, bind_assoc]
      have renders := renderTo_does (runPasses_does done.2 done.1) path
      exact renders.unrejected.bind fun _ _ => .pure trivial

end Project

end Reel
