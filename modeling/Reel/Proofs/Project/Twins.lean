import Reel.Proofs.Pipeline.Echo

/-!
# Machines that differ in the console only

Twins have the same files, scripts and clock and have started the same programs. They may differ
in what is printed, in who listens and in how commands are counted. Nothing of that decides what a
render does, as long as a listener stops nothing and echoed commands can be numbered. So a run on
twins ends alike and leaves twins. This is followed for two runs at once, which may be different.
-/
namespace Reel

/-- Two machines that differ in the console only. -/
structure Host.Twin (a b : Host) : Prop where
  files : a.files = b.files
  probes : a.probes = b.probes
  commands : a.commands = b.commands
  clock : a.clock = b.clock
  spawned : a.spawned = b.spawned

/-- A console that lets some more commands pass: who listens stops nothing, and commands are not
echoed or have short numbers. -/
structure Host.Patient (more : Nat) (host : Host) : Prop where
  listener : ∀ l, host.listener = some l → ∀ reports, l reports = .ok ()
  echo : host.quiet = true ∨ host.total = .null ∧ host.index + more ≤ 2 ^ 41

namespace Host

variable {a b host : Host} {more fewer : Nat}

theorem Twin.refl (host : Host) : host.Twin host := ⟨rfl, rfl, rfl, rfl, rfl⟩

theorem Twin.symm (h : a.Twin b) : b.Twin a :=
  ⟨h.files.symm, h.probes.symm, h.commands.symm, h.clock.symm, h.spawned.symm⟩

theorem Twin.trans (first : a.Twin b) (second : b.Twin host) : a.Twin host :=
  ⟨first.files.trans second.files, first.probes.trans second.probes,
    first.commands.trans second.commands, first.clock.trans second.clock,
    first.spawned.trans second.spawned⟩

theorem Patient.mono (h : host.Patient more) (le : fewer ≤ more) : host.Patient fewer :=
  ⟨h.listener, h.echo.imp_right fun echoed => ⟨echoed.1, by omega⟩⟩

/-- Who listens and how commands are echoed does not change. -/
theorem Patient.of_console (h : a.Patient more) (listener : b.listener = a.listener)
    (quiet : b.quiet = a.quiet) (total : b.total = a.total) (index : b.index = a.index) :
    b.Patient more :=
  ⟨listener ▸ h.listener, by rw [quiet, total, index]; exact h.echo⟩

end Host

/-- Two outcomes that are related results, or the same error. -/
inductive SameEnd {α β : Type} (related : α → β → Prop) : Except Error α → Except Error β → Prop
  | ok {x : α} {y : β} : related x y → SameEnd related (.ok x) (.ok y)
  | error (e : Error) : SameEnd related (.error e) (.error e)

namespace SameEnd

variable {α β γ : Type} {related weaker : α → β → Prop} {r : Except Error α} {r' : Except Error β}

theorem refl (r : Except Error α) : SameEnd Eq r r := by
  cases r with
  | ok x => exact .ok rfl
  | error e => exact .error e

theorem mono (h : SameEnd related r r') (imp : ∀ x y, related x y → weaker x y) :
    SameEnd weaker r r' := by
  cases h with
  | ok h => exact .ok (imp _ _ h)
  | error e => exact .error e

theorem map (f : α → γ) {r' : Except Error α} (h : SameEnd Eq r r') :
    SameEnd Eq (r.map f) (r'.map f) := by
  cases h with
  | ok h => exact .ok (congrArg f h)
  | error e => exact .error e

end SameEnd

namespace Run

variable {α β γ δ : Type} {run : Run α} {other : Run β} {next : α → Run γ} {next' : β → Run δ}
  {related weaker : α → β → Prop} {goal : γ → δ → Prop} {i j k : Nat}

/-- On twins whose consoles let enough commands pass, the runs end alike and leave twins. -/
def Paired (k : Nat) (run : Run α) (other : Run β) (related : α → β → Prop) : Prop :=
  ∀ more a b, a.Twin b → a.Patient (more + k) → b.Patient (more + k) →
    SameEnd related (run.on a).1 (other.on b).1 ∧ (run.on a).2.Twin (other.on b).2 ∧
      (run.on a).2.Patient more ∧ (other.on b).2.Patient more

abbrev Indifferent (k : Nat) (run : Run α) : Prop := Paired k run run Eq

namespace Paired

theorem pure {x : α} {y : β} (h : related x y) :
    Paired 0 (Pure.pure x) (Pure.pure y) related :=
  fun _ _ _ twin patient patient' => ⟨.ok h, twin, patient, patient'⟩

theorem throw (e : Error) : Paired 0 (throw e : Run α) (throw e : Run β) related :=
  fun _ _ _ twin patient patient' => ⟨.error e, twin, patient, patient'⟩

theorem ofExcept {r : Except Error α} {r' : Except Error β} (h : SameEnd related r r') :
    Paired 0 (Run.ofExcept r) (Run.ofExcept r') related := by
  cases h with
  | ok h => exact .pure h
  | error e => exact .throw e

theorem mono (h : Paired i run other related) (le : i ≤ j)
    (imp : ∀ x y, related x y → weaker x y) : Paired j run other weaker := by
  intro more a b twin patient patient'
  obtain ⟨ends, after, left, left'⟩ := h (more + (j - i)) a b twin
    (patient.mono (by omega)) (patient'.mono (by omega))
  exact ⟨ends.mono imp, after, left.mono (by omega), left'.mono (by omega)⟩

theorem bind (first : Paired i run other related)
    (rest : ∀ x y, related x y → Paired j (next x) (next' y) goal) :
    Paired (i + j) (run >>= next) (other >>= next') goal := by
  intro more a b twin patient patient'
  obtain ⟨ends, after, left, left'⟩ := first (more + j) a b twin
    (patient.mono (by omega)) (patient'.mono (by omega))
  rw [on_bind, on_bind]
  generalize run.on a = one, other.on b = two at ends after left left'
  obtain ⟨outcome, between⟩ := one
  obtain ⟨outcome', between'⟩ := two
  cases ends with
  | error e => exact ⟨.error e, after, left.mono (by omega), left'.mono (by omega)⟩
  | ok h => exact rest _ _ h more between between' after left left'

end Paired

namespace Indifferent

theorem pure (x : α) : Indifferent 0 (Pure.pure x : Run α) := Paired.pure rfl

theorem ofExcept (r : Except Error α) : Indifferent 0 (Run.ofExcept r) :=
  Paired.ofExcept (.refl r)

/-- What starts no commands leaves the console to what follows. -/
theorem bind (first : Indifferent 0 run) (rest : ∀ x, Indifferent k (next x)) :
    Indifferent k (run >>= next) := by
  rw [← Nat.zero_add k]
  refine Paired.bind first fun x y h => ?_
  obtain rfl : x = y := h
  exact rest x

theorem of_onFiles (h : OnFiles run) : Indifferent 0 run := by
  obtain ⟨step, steps⟩ := h
  intro more a b twin patient patient'
  rw [steps, steps, twin.files]
  exact ⟨.refl _, ⟨rfl, twin.probes, twin.commands, twin.clock, twin.spawned⟩,
    patient.of_console rfl rfl rfl rfl, patient'.of_console rfl rfl rfl rfl⟩

theorem tryCatch {handler : Error → Run α} (h : Indifferent k run)
    (handles : ∀ e, Indifferent 0 (handler e)) :
    Indifferent k (MonadExcept.tryCatch run handler) := by
  intro more a b twin patient patient'
  obtain ⟨ends, after, left, left'⟩ := h more a b twin patient patient'
  rw [on_tryCatch, on_tryCatch]
  generalize run.on a = one, run.on b = two at ends after left left'
  obtain ⟨outcome, between⟩ := one
  obtain ⟨outcome', between'⟩ := two
  cases ends with
  | ok h => exact ⟨.ok h, after, left, left'⟩
  | error e => exact handles e more between between' after left left'

theorem map (f : α → β) (h : Indifferent k run) :
    Indifferent k (ExceptT.map f run : Run β) := by
  intro more a b twin patient patient'
  obtain ⟨ends, after, left, left'⟩ := h more a b twin patient patient'
  rw [on_map, on_map]
  exact ⟨ends.map f, after, left, left'⟩

theorem mapM {f : α → Run β} (h : ∀ x, Indifferent 0 (f x)) (xs : List α) :
    Indifferent 0 (xs.mapM f) := by
  induction xs with
  | nil => exact .pure []
  | cons x rest ih =>
      rw [List.mapM_cons]
      exact (h x).bind fun y => ih.bind fun ys => .pure (y :: ys)

end Indifferent

theorem get_paired : Paired 0 (get : Run Host) get Host.Twin :=
  fun _ _ _ twin patient patient' => ⟨.ok twin, twin, patient, patient'⟩

/-- The run shows in the console only, and always gives a result. -/
def Shows (k : Nat) (run : Run α) : Prop :=
  ∀ more host, host.Patient (more + k) →
    ∃ x after, run.on host = (.ok x, after) ∧ host.Twin after ∧ after.Patient more

namespace Shows

theorem pure (x : α) : Shows 0 (Pure.pure x : Run α) :=
  fun _ host patient => ⟨x, host, rfl, .refl host, patient⟩

theorem bind (first : Shows k run) (rest : ∀ x, Shows 0 (next x)) : Shows k (run >>= next) := by
  intro more host patient
  obtain ⟨x, between, ends, twin, left⟩ := first more host patient
  obtain ⟨y, after, ends', twin', left'⟩ := rest x more between left
  refine ⟨y, after, ?_, twin.trans twin', left'⟩
  rw [on_bind, ends]
  exact ends'

theorem printLine (line : String) : Shows 0 (printLine line) :=
  fun _ _ patient => ⟨(), _, rfl, ⟨rfl, rfl, rfl, rfl, rfl⟩, patient.of_console rfl rfl rfl rfl⟩

theorem echo (line : String) : Shows 0 (echo line) := by
  intro more host patient
  rw [Run.echo, on_bind, on_get]
  dsimp only
  split
  · exact pure () more host patient
  · exact printLine line more host patient

theorem report (r : Report) : Shows 0 (report r) := by
  intro more host patient
  rw [Run.report, on_bind, on_get]
  dsimp only
  split
  · exact pure () more host patient
  · next l listens =>
      refine ⟨(), { host with reports := r :: host.reports }, ?_, ⟨rfl, rfl, rfl, rfl, rfl⟩,
        patient.of_console rfl rfl rfl rfl⟩
      simp only [on_bind, on_modify, on_get, on_ofExcept, patient.listener l listens]

theorem paired {run : Run α} {other : Run β} (h : Shows k run) (h' : Shows k other) :
    Paired k run other fun _ _ => True := by
  intro more a b twin patient patient'
  obtain ⟨x, after, ends, kept, left⟩ := h more a patient
  obtain ⟨y, after', ends', kept', left'⟩ := h' more b patient'
  rw [ends, ends']
  exact ⟨.ok trivial, (kept.symm.trans twin).trans kept', left, left'⟩

end Shows

theorem beginCommand_shows (command : String) : Shows 1 (beginCommand command) := by
  intro more host patient
  have told (r : Report) (index : Nat) : Shows 0 (do report r; return index : Run Nat) :=
    (Shows.report r).bind fun _ => .pure index
  have counted : ({ host with index := host.index + 1 } : Host).Patient more := by
    refine ⟨patient.listener, patient.echo.imp_right fun echoed => ⟨echoed.1, ?_⟩⟩
    have := echoed.2
    show host.index + 1 + more ≤ 2 ^ 41
    omega
  have twin : host.Twin { host with index := host.index + 1 } := ⟨rfl, rfl, rfl, rfl, rfl⟩
  rw [beginCommand, on_bind, on_modify]
  dsimp only
  rw [on_bind, on_get]
  dsimp only
  split
  · obtain ⟨x, after, ends, twin', left⟩ := told _ _ more _ counted
    exact ⟨x, after, ends, twin.trans twin', left⟩
  · next loud =>
      obtain ⟨unannounced, short⟩ := patient.echo.resolve_left loud
      have legible : (Value.int (host.index + 1 : Nat)).isLegible = true :=
        isLegible_small (by omega)
      obtain ⟨place, numbered⟩ := exists_commandPrefix Value.announces_null legible
      have shown : Shows 0 (do
          printLine ((if place = "" then "" else place ++ " ") ++ "CMD: '" ++ command ++ "'")
          report (.started command (host.index + 1) host.total host.clock)
          return host.index + 1 : Run Nat) := (Shows.printLine _).bind fun _ => told _ _
      obtain ⟨x, after, ends, twin', left⟩ := shown more _ counted
      refine ⟨x, after, ?_, twin.trans twin', left⟩
      rw [on_bind, on_ofExcept, unannounced, numbered]
      rw [unannounced] at ends
      exact ends

theorem endCommand_shows (command : String) (index : Nat) (started : Double) (returnCode : Int)
    (diagnostic : String) :
    Shows 0 (endCommand command index started returnCode diagnostic) := by
  intro more host patient
  rw [endCommand, on_bind, on_get]
  exact Shows.report _ more host patient

theorem recordSpawn_indifferent (spawn : Spawn) : Indifferent 0 (recordSpawn spawn) :=
  fun _ _ _ twin patient patient' =>
    ⟨.ok rfl, ⟨twin.files, twin.probes, twin.commands, twin.clock,
      congrArg (spawn :: ·) twin.spawned⟩,
      patient.of_console rfl rfl rfl rfl, patient'.of_console rfl rfl rfl rfl⟩

theorem perform_indifferent : Indifferent 0 perform := by
  intro more a b twin patient patient'
  unfold perform
  simp only [on_bind, on_get, on_set, twin.commands]
  cases (b.commands.headD {}).fault with
  | some fault =>
      exact ⟨.ok rfl, ⟨twin.files, twin.probes, rfl, twin.clock, twin.spawned⟩,
        patient.of_console rfl rfl rfl rfl, patient'.of_console rfl rfl rfl rfl⟩
  | none =>
      let script := b.commands.headD {}
      have files := congrArg
        (fun files => script.creates.foldl (fun fs path => Files.write fs path (.file [])) files)
        twin.files
      exact ⟨.ok rfl, ⟨files, twin.probes, rfl, congrArg (Double.add · script.seconds) twin.clock,
        twin.spawned⟩, patient.of_console rfl rfl rfl rfl, patient'.of_console rfl rfl rfl rfl⟩

theorem start_indifferent (words : List Value) : Indifferent 0 (start words) :=
  (recordSpawn_indifferent _).bind fun _ => perform_indifferent

theorem startProbe_indifferent (words : List Value) (closes : Bool) :
    Indifferent 0 (startProbe words closes) := by
  intro more a b twin patient patient'
  rw [startProbe_on, startProbe_on, twin.probes]
  exact ⟨.ok rfl, ⟨twin.files, rfl, twin.commands, twin.clock,
    congrArg (Spawn.arguments words closes :: ·) twin.spawned⟩,
    patient.of_console rfl rfl rfl rfl, patient'.of_console rfl rfl rfl rfl⟩

theorem startShell_indifferent (line : String) : Indifferent 0 (startShell line) :=
  (recordSpawn_indifferent _).bind fun _ => perform_indifferent

theorem command_indifferent (arguments : List Value) : Indifferent 1 (command arguments) := by
  refine Indifferent.bind (.ofExcept _) fun words => ?_
  -- The number of the command may differ, but nothing follows from it.
  refine Paired.bind (j := 0) ((beginCommand_shows _).paired (beginCommand_shows _))
    fun index index' _ => ?_
  refine Paired.bind (j := 0) get_paired fun host host' twin => ?_
  have started := twin.clock
  have told (code : Int) (diagnostic : String) : Paired 0
      (do endCommand (Shell.join words) index host.clock code diagnostic; return (code, diagnostic))
      (do
        endCommand (Shell.join words) index' host'.clock code diagnostic
        return (code, diagnostic)) Eq :=
    Paired.bind ((endCommand_shows _ _ _ _ _).paired (endCommand_shows _ _ _ _ _))
      fun _ _ _ => .pure rfl
  refine Paired.bind (j := 0) (start_indifferent _) fun outcome outcome' same => ?_
  obtain rfl : outcome = outcome' := same
  dsimp only
  split
  · exact told _ _
  · exact Paired.throw _
  · exact told _ _

theorem shell_indifferent (line : String) : Indifferent 1 (shell line) := by
  refine Paired.bind (j := 0) ((beginCommand_shows _).paired (beginCommand_shows _))
    fun index index' _ => ?_
  refine Paired.bind (j := 0) get_paired fun host host' twin => ?_
  refine Paired.bind (j := 0) (startShell_indifferent line) fun outcome outcome' same => ?_
  obtain rfl : outcome = outcome' := same
  dsimp only
  split
  · exact Paired.throw _
  · exact Paired.bind ((endCommand_shows _ _ _ _ _).paired (endCommand_shows _ _ _ _ _))
      fun _ _ _ => .pure rfl

theorem invocation_indifferent (program : Value) (i : Invocation) :
    Indifferent 1 (invocation program i) := by
  have told (reported : Int × String) : Indifferent 0
      (pure ⟨reported.1, reported.2, i.pass⟩ : Run PipelineResult) := .pure _
  unfold invocation Runner.invocation
  split
  · refine Paired.bind (j := 0) (command_indifferent _) fun reported reported' same => ?_
    obtain rfl : reported = reported' := same
    exact told reported
  · refine Indifferent.bind (.ofExcept _) fun line => ?_
    refine Paired.bind (j := 0) (shell_indifferent line) fun reported reported' same => ?_
    obtain rfl : reported = reported' := same
    exact told reported

theorem passes_indifferent (program : Value) (runs : List Invocation) :
    Indifferent runs.length (passes program runs) := by
  induction runs with
  | nil => exact Paired.throw _
  | cons first rest ih =>
      cases rest with
      | nil => exact invocation_indifferent program first
      | cons second rest =>
          have row : Indifferent (1 + (second :: rest).length)
              (passes program (first :: second :: rest)) := by
            refine Paired.bind (invocation_indifferent program first) fun result result' same => ?_
            obtain rfl : result = result' := same
            split
            · exact ih
            · exact (Paired.pure rfl).mono (Nat.zero_le _) fun _ _ => id
          rw [Nat.add_comm] at row
          exact row

theorem probe_indifferent (words : List Value) : Indifferent 0 (Run.probe words) := by
  refine (startProbe_indifferent words true).bind fun outcome => ?_
  extract_lets last
  have ends (outcome : Except StartFault Ended) : Indifferent 0 (last outcome) := by
    dsimp only [last]
    split
    · exact Paired.throw _
    · exact Paired.throw _
    · exact .pure _
    · exact .pure _
  split
  · exact (startProbe_indifferent words false).bind ends
  · exact Indifferent.bind (.pure outcome) ends

end Run

open Run

namespace Prober

theorem perform_indifferent (program : Value) (limit : Double) (job : Job) :
    Indifferent 0 ((ofProgram program).perform limit job) := by
  have measured (path : Value) : Indifferent 0 ((ofProgram program).duration path) :=
    ((probe_indifferent _).bind fun _ => .pure _).bind fun _ => .pure _
  cases job with
  | clip path =>
      refine Indifferent.bind ((Indifferent.ofExcept _).bind fun _ => ?_) fun _ => .pure _
      exact (measured path).bind fun _ => .pure _
  | sound path =>
      refine Indifferent.bind (Indifferent.bind ?_ fun _ => .pure _) fun _ => .pure _
      exact (probe_indifferent _).bind fun _ => .pure _
  | item path =>
      exact Indifferent.bind ((measured path).bind fun _ => .pure _) fun _ => .pure _

theorem resolve_indifferent (program : Value) (workers : Int) (t : Timeline Double) :
    Indifferent 0 ((ofProgram program).resolve workers t) := by
  have performs := perform_indifferent program t.maxClip
  refine (Indifferent.ofExcept _).bind fun prepared => ?_
  dsimp only
  split
  · exact (Indifferent.mapM performs _).bind fun _ => .pure _
  · refine Indifferent.bind (Indifferent.bind ?_ fun _ => ?_) fun _ => .pure _
    · exact .mapM (fun job => (performs job).map Except.ok |>.tryCatch fun _ => .pure _) _
    · exact .mapM (fun outcome => .ofExcept outcome) _

end Prober

namespace Project

theorem compilation_indifferent (p : Project) : Indifferent 0 p.compilation := by
  refine Indifferent.bind ?_ fun _ => (Prober.resolve_indifferent _ _ _).bind fun _ => ?_
  · exact .of_onFiles (OnFiles.files.bind fun _ => .ofExcept _)
  · refine (Indifferent.ofExcept _).bind fun _ => (Indifferent.ofExcept _).bind fun _ => ?_
    exact (Indifferent.ofExcept _).bind fun _ => (Indifferent.ofExcept _).bind fun _ => .pure _

theorem runPasses_indifferent (p : Project) (runs : List Invocation) :
    Indifferent runs.length (p.runPasses runs) := by
  let clean : Run Unit := do
    unless p.keepTemp do
      let files ← Run.ofExcept (PassLog.clearAt (← Run.files) p.encode.passLogPrefix)
      modify fun host => { host with files }
  have cleans : Indifferent 0 clean := by
    refine .of_onFiles ?_
    unfold clean
    split
    · exact .pure ()
    · exact OnFiles.files.bind fun files => (OnFiles.ofExcept _).bind fun _ => .setFiles _
  have row : Indifferent runs.length (tryCatch (Run.passes p.encoderProgram runs) fun e => do
      clean
      throw e) :=
    (passes_indifferent _ _).tryCatch fun e => cleans.bind fun _ => Paired.throw e
  refine Paired.bind (j := 0) row fun result result' same => ?_
  obtain rfl : result = result' := same
  exact cleans.bind fun _ => .pure result

theorem renderTo_indifferent (output : Value) {passes : Run PipelineResult} {k : Nat}
    (h : Indifferent k passes) : Indifferent k (renderTo output passes) := by
  refine (Indifferent.of_onFiles (makeDirectoryOf_onFiles output)).bind fun _ => ?_
  refine Paired.bind (j := 0) h fun result result' same => ?_
  obtain rfl : result = result' := same
  refine Indifferent.bind (.ofExcept _) fun _ => Indifferent.bind (.ofExcept _) fun path => ?_
  exact Paired.bind ((Shows.echo _).paired (Shows.echo _)) fun _ _ _ => .pure rfl

end Project

end Reel
