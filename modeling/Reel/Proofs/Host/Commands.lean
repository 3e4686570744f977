import Reel.Pipeline
import Reel.Proofs.Graph.Refusals
import Reel.Proofs.Host.Effects

/-!
# What running commands does

Printing does nothing to files and starts no program. Running a command may start a program and
change files, and whatever stops it is no rejection: nobody looks at the request any more.
-/
namespace Reel

theorem Host.Touched.of_same {e : Effects} {host after : Host}
    (listener : after.listener = host.listener) (spawned : after.spawned = host.spawned)
    (files : after.files = host.files)
    (scripts : after.probes = host.probes ∧ after.commands = host.commands) :
    host.Touched e after :=
  ⟨listener, ⟨[], spawned, by simp⟩, fun _ => files, fun _ => scripts⟩

theorem Host.Touched.of_written {host after : Host} (listener : after.listener = host.listener)
    (spawned : after.spawned = host.spawned) : host.Touched .any after :=
  ⟨listener, ⟨[], spawned, by simp⟩, fun kept => (kept trivial).elim,
    fun kept => (kept trivial).elim⟩

theorem commandPrefix_yields (index total : Value) :
    Yields Error.IsPlain (commandPrefix index total) fun _ => True := by
  have counts (v : Value) : Yields Error.IsPlain (countsNothing v) fun _ => True := by
    unfold countsNothing
    split
    · exact .ok trivial
    · exact isAtMostZero_yields v
  refine (counts index).bind fun none _ => ?_
  split
  · exact .ok trivial
  refine (counts total).bind fun open' _ => ?_
  split
  · exact (toText_yields index).bind fun _ _ => .ok trivial
  · exact (toText_yields index).bind fun _ _ => (toText_yields total).bind fun _ _ => .ok trivial

theorem requireOk_yields (r : PipelineResult) :
    Yields Error.IsPlain r.requireOk fun _ => True := by
  unfold PipelineResult.requireOk
  split
  · exact .ok trivial
  · exact (toText_yields r.pass).bind fun _ _ => .error trivial

theorem StartFault.isPlain_error (fault : StartFault) (program : String) :
    (fault.error program).IsPlain := by
  cases fault <;> trivial

namespace Run

variable {e : Effects} {stops : Error → Prop}

theorem printLine_does (line : String) : Does e stops (printLine line) fun _ => True :=
  .modify fun _ => .of_same rfl rfl rfl ⟨rfl, rfl⟩

theorem echo_does (line : String) : Does e stops (echo line) fun _ => True := by
  refine Does.get.bind fun host _ => ?_
  split
  · exact .pure trivial
  · exact printLine_does line

theorem report_does (r : Report) : Does e stops (report r) fun _ => True := by
  refine Does.get.bind fun host silent => ?_
  rw [silent]
  exact .pure trivial

theorem beginCommand_does (command : String) :
    Does e Error.IsPlain (beginCommand command) fun _ => True := by
  have counted : Does e Error.IsPlain
      (modify fun host : Host => { host with index := host.index + 1 } : Run Unit) fun _ => True :=
    .modify fun _ => .of_same rfl rfl rfl ⟨rfl, rfl⟩
  refine counted.bind fun _ _ => Does.get.bind fun host _ => ?_
  have told : Does e Error.IsPlain (do
      report (.started command host.index host.total host.clock)
      return host.index) fun _ => True :=
    (report_does _).bind fun _ _ => .pure trivial
  dsimp only
  split
  · exact told
  · refine (Does.ofExcept (commandPrefix_yields _ _)).bind fun place _ => ?_
    exact (printLine_does _).bind fun _ _ => told

theorem endCommand_does (command : String) (index : Nat) (started : Double) (returnCode : Int)
    (diagnostic : String) :
    Does e stops (endCommand command index started returnCode diagnostic) fun _ => True :=
  Does.get.bind fun _ _ => report_does _

theorem recordSpawn_does (spawn : Spawn) :
    Does .any stops (recordSpawn spawn) fun _ => True :=
  .modify fun _ => ⟨rfl, ⟨[spawn], rfl, fun _ _ => trivial⟩, fun kept => (kept trivial).elim,
    fun kept => (kept trivial).elim⟩

theorem perform_does : Does .any stops perform fun _ => True := by
  intro host silent
  unfold perform
  simp only [on_bind, on_get, on_set]
  split
  · exact ⟨.of_written rfl rfl, .ok trivial⟩
  · exact ⟨.of_written rfl rfl, .ok trivial⟩

theorem start_does (words : List Value) : Does .any stops (start words) fun _ => True :=
  (recordSpawn_does _).bind fun _ _ => perform_does

theorem startShell_does (line : String) : Does .any stops (startShell line) fun _ => True :=
  (recordSpawn_does _).bind fun _ _ => perform_does

theorem command_does (arguments : List Value) :
    Does .any Error.IsPlain (command arguments) fun _ => True := by
  refine (Does.ofExcept (Yields.mapM toText_yields arguments)).bind fun words _ => ?_
  refine (beginCommand_does _).bind fun index _ => Does.get.bind fun host _ => ?_
  have told (code : Int) (diagnostic : String) : Does .any Error.IsPlain (do
      endCommand (Shell.join words) index host.clock code diagnostic
      return (code, diagnostic)) fun _ => True :=
    (endCommand_does _ _ _ _ _).bind fun _ _ => .pure trivial
  refine (start_does _).bind fun outcome _ => ?_
  dsimp only
  split
  · exact Does.bind (.pure trivial) fun reported (_ : True) => told reported.1 reported.2
  · next fault _ => exact .stopped (fault.isPlain_error _)
  · exact Does.bind (.pure trivial) fun reported (_ : True) => told reported.1 reported.2

theorem shell_does (line : String) : Does .any Error.IsPlain (shell line) fun _ => True := by
  refine (beginCommand_does _).bind fun index _ => Does.get.bind fun host _ => ?_
  refine (startShell_does line).bind fun outcome _ => ?_
  split
  next fault => exact .throw (fault.isPlain_error line)
  next ended => exact (endCommand_does _ _ _ _ _).bind fun _ _ => .pure trivial

theorem invocation_does (program : Value) (i : Invocation) :
    Does .any Error.IsPlain (invocation program i) fun _ => True := by
  unfold invocation Runner.invocation
  split
  · exact (command_does _).bind fun _ _ => .pure trivial
  · refine (Does.ofExcept (commandLine_yields i program)).bind fun line _ => ?_
    exact (shell_does line).bind fun _ _ => .pure trivial

theorem passes_does (program : Value) (invocations : List Invocation) :
    Does .any Error.IsPlain (passes program invocations) fun _ => True := by
  induction invocations with
  | nil => exact .throw trivial
  | cons first rest ih =>
      cases rest with
      | nil => exact invocation_does program first
      | cons second rest =>
          refine (invocation_does program first).bind fun result _ => ?_
          split
          · exact ih
          · exact .pure trivial

theorem setFiles_does (files : Files) : Does .any stops
    (modify fun host : Host => { host with files } : Run Unit) fun _ => True :=
  .modify fun _ => .of_written rfl rfl

theorem makeWay_does (path : String) : Does .any stops (makeWay path) fun _ => True := by
  refine Does.files.bind fun files _ => ?_
  exact (setFiles_does _).bind fun _ _ => .pure trivial

theorem makePath_does (path : String) (written : String → Value) :
    Does .any Error.IsPlain (makePath path written) fun _ => True := by
  unfold makePath
  dsimp only
  refine Does.files.bind fun files _ => ?_
  -- Whether the path is sound as a whole decides what is made and how it ends.
  split
  · split
    · exact .pure trivial
    · refine (makeWay_does _).bind fun fault _ => ?_
      split
      · split
        · exact .pure trivial
        · exact .stopped trivial
      · exact .pure trivial
  · split
    · exact .throw trivial
    · refine (makeWay_does _).bind fun fault _ => ?_
      split
      · split
        · exact .throw trivial
        · exact .stopped trivial
      · exact .throw trivial

end Run

end Reel
