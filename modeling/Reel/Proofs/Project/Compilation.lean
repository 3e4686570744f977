import Reel.Proofs.Project.Compile

/-!
# Compilations

Compiling reads a project and the machine, and notes in the project what it reaches: the resolved
timeline, the graph, and a place for the logs of two passes. None of these notes is looked at when
the project is compiled again, for the place is chosen from what stays. So what compiling gives is
a run of its own, and it is the same run for a project with such notes.
-/
namespace Reel

namespace Work

variable {α β : Type} {p : Project} {host : Host}

theorem on_bind (work : Work α) (next : α → Work β) (p : Project) (host : Host) :
    (work >>= next).on p host = match work.on p host with
      | (.ok x, q, after) => (next x).on q after
      | (.error e, q, after) => (.error e, q, after) := by
  unfold on ExceptT.run StateT.run Id.run
  simp only [bind, ExceptT.bind, ExceptT.mk, StateT.bind]
  rcases work p host with ⟨⟨outcome, q⟩, after⟩
  cases outcome <;> rfl

@[simp] theorem on_pure (x : α) (p : Project) (host : Host) :
    (pure x : Work α).on p host = (.ok x, p, host) := rfl

@[simp] theorem on_get (p : Project) (host : Host) :
    (get : Work Project).on p host = (.ok p, p, host) := rfl

@[simp] theorem on_modify (f : Project → Project) (p : Project) (host : Host) :
    (modify f : Work Unit).on p host = (.ok (), f p, host) := rfl

@[simp] theorem on_ofRun (run : Run α) (p : Project) (host : Host) :
    (ofRun run).on p host = ((run.on host).1, p, (run.on host).2) := rfl

@[simp] theorem on_ofExcept (r : Except Error α) (p : Project) (host : Host) :
    (ofExcept r).on p host = (r, p, host) := by
  cases r <;> rfl

theorem runOn_on (work : Work α) (p : Project) (host : Host) :
    (work.runOn p).on host = ((work.on p host).1, (work.on p host).2.2) := rfl

end Work

theorem Run.ofExcept_bind {α β : Type} (r : Except Error α) (f : α → Except Error β) :
    Run.ofExcept (r >>= f) = Run.ofExcept r >>= fun x => Run.ofExcept (f x) := by
  cases r <;> rfl

structure Compilation where
  resolved : Timeline Double
  graph : Graph Double
  output : Value
  encode : EncodeOptions
  invocations : List Invocation

namespace Project

variable {p q r : Project} {host : Host}

/-- The options with a place for the logs of two passes. -/
def passEncode (p : Project) (output : Value) : Except Error EncodeOptions :=
  if p.encode.twoPass && p.encode.passLogPrefix.isNull then do
    return { p.encode with passLogPrefix := .text (← p.passLogPlace output) }
  else .ok p.encode

/-- Compiling as a run that leaves the project as it is. -/
def compilation (p : Project) : Run Compilation := do
  (do Run.ofExcept (p.validate (← Run.files)) : Run Unit)
  let resolved ← (Prober.ofProgram p.probeProgram).resolve p.probeWorkers p.timeline
  let graph ← Run.ofExcept (Graph.build resolved)
  let output ← Run.ofExcept p.outputPath
  let encode ← Run.ofExcept (p.passEncode output)
  let invocations ← Run.ofExcept (graph.invocations encode output nullDevice)
  return { resolved, graph, output, encode, invocations }

/-- The project once it has been compiled. -/
def compiledTo (p : Project) (c : Compilation) : Project :=
  { p with resolved := some c.resolved, graph := some c.graph, encode := c.encode }

/-- The second project is the first one with other notes: what it was resolved to, its graph, and
a place for logs that is chosen as compiling the first one would. -/
structure Keeps (p q : Project) : Prop where
  same : { p with resolved := q.resolved, graph := q.graph, encode := q.encode } = q
  encode : q.encode = p.encode ∨
    ∃ output, p.outputPath = .ok output ∧ p.passEncode output = .ok q.encode

theorem Keeps.refl (p : Project) : p.Keeps p := ⟨rfl, .inl rfl⟩

/-- Started from one project with notes, the work gives what the run gives and leaves another. -/
def Notes {α β : Type} (p : Project) (work : Work α) (q : Project) (run : Run β)
    (related : α → Project → β → Prop) : Prop :=
  ∀ host, ∃ r, p.Keeps r ∧ match run.on host with
    | (.ok y, after) => ∃ x, work.on q host = (.ok x, r, after) ∧ related x r y
    | (.error e, after) => work.on q host = (.error e, r, after)

namespace Notes

variable {α β γ : Type} {next : α → Work β} {run : Run γ} {related : β → Project → γ → Prop}

theorem bind_run {first : Run α} {rest : α → Run γ} (kept : p.Keeps q)
    (h : ∀ x, p.Notes (next x) q (rest x) related) :
    p.Notes (Work.ofRun first >>= next) q (first >>= rest) related := by
  intro host
  rw [Run.on_bind, Work.on_bind, Work.on_ofRun]
  cases first.on host with
  | mk outcome after =>
      cases outcome with
      | error e => exact ⟨q, kept, rfl⟩
      | ok x => exact h x after

theorem bind_ofExcept {r : Except Error α} {rest : α → Run γ} (kept : p.Keeps q)
    (h : ∀ x, r = .ok x → p.Notes (next x) q (rest x) related) :
    p.Notes (Work.ofExcept r >>= next) q (Run.ofExcept r >>= rest) related := by
  intro host
  rw [Run.on_bind, Work.on_bind, Work.on_ofExcept, Run.on_ofExcept]
  cases r with
  | error e => exact ⟨q, kept, rfl⟩
  | ok x => exact h x rfl host

theorem bind_modify {f : Project → Project} {next : Unit → Work β}
    (h : p.Notes (next ()) (f q) run related) :
    p.Notes (modify f >>= next) q run related := by
  intro host
  rw [Work.on_bind, Work.on_modify]
  exact h host

theorem bind_get {next : Project → Work β} (h : p.Notes (next q) q run related) :
    p.Notes (get >>= next) q run related := by
  intro host
  rw [Work.on_bind, Work.on_get]
  exact h host

/-- The last step gives its result, and the run may say more about it. -/
theorem last {r : Except Error α} {f : α → β} {related : α → Project → β → Prop} (kept : p.Keeps q)
    (h : ∀ x, r = .ok x → related x q (f x)) :
    p.Notes (Work.ofExcept r) q (Run.ofExcept r >>= fun x => pure (f x)) related := by
  intro host
  refine ⟨q, kept, ?_⟩
  rw [Run.on_bind, Run.on_ofExcept, Work.on_ofExcept]
  cases r with
  | error e => rfl
  | ok x => exact ⟨x, rfl, h x rfl⟩

end Notes

/-- Compiling gives what its run gives, and changes nothing but the notes. -/
theorem compile_notes (p : Project) : p.Notes compile p p.compilation fun invocations q c =>
    invocations = c.invocations ∧ q = p.compiledTo c := by
  unfold compile compilation
  refine .bind_get (.bind_run (.refl p) fun _ => .bind_run (.refl p) fun resolved => ?_)
  refine .bind_modify (.bind_run ⟨rfl, .inl rfl⟩ fun graph => .bind_modify ?_)
  refine .bind_ofExcept ⟨rfl, .inl rfl⟩ fun output path => ?_
  let noted := { p with resolved := some resolved, graph := some graph }
  have written (encode : EncodeOptions) (kept : encode = p.encode ∨
      ∃ output, p.outputPath = .ok output ∧ p.passEncode output = .ok encode) :
      p.Notes (do Work.ofExcept (graph.invocations (← get).encode output nullDevice))
        { noted with encode } (do
          let invocations ← Run.ofExcept (graph.invocations encode output nullDevice)
          return ({ resolved, graph, output, encode, invocations } : Compilation))
        fun invocations q c => invocations = c.invocations ∧ q = p.compiledTo c :=
    .bind_get (.last ⟨rfl, kept⟩ fun _ _ => ⟨rfl, rfl⟩)
  dsimp only
  split
  · next two =>
      have placed : p.passEncode output = p.passLogPlace output >>= fun log =>
          .ok { p.encode with passLogPrefix := .text log } := if_pos two
      rw [placed, Run.ofExcept_bind, bind_assoc]
      refine .bind_ofExcept ⟨rfl, .inl rfl⟩ fun log here => .bind_modify ?_
      exact written _ (.inr ⟨output, path, by rw [placed, here]; rfl⟩)
  · next one =>
      have kept : p.passEncode output = .ok p.encode := if_neg one
      rw [kept]
      exact written p.encode (.inl rfl)

/-- The options with a place for logs are the given ones, or have such a place where there was
none. -/
theorem passEncode_eq {output : Value} {e : EncodeOptions} (h : p.passEncode output = .ok e) :
    e = p.encode ∨ p.encode.twoPass = true ∧
      ∃ log, p.passLogPlace output = .ok log ∧ e = { p.encode with passLogPrefix := .text log } := by
  unfold passEncode at h
  split at h
  · next two =>
      obtain ⟨log, placed, h⟩ := exists_of_bind_ok h
      rw [Bool.and_eq_true] at two
      exact .inr ⟨two.1, log, placed, (Except.ok.inj h).symm⟩
  · exact .inl (Except.ok.inj h).symm

theorem Keeps.fields (h : p.Keeps q) : q.timeline = p.timeline ∧ q.settings = p.settings ∧
    q.outputOverride = p.outputOverride ∧ q.dryRun = p.dryRun ∧ q.keepTemp = p.keepTemp ∧
    q.probeProgram = p.probeProgram ∧ q.probeWorkers = p.probeWorkers ∧
    q.encoderProgram = p.encoderProgram := by
  rw [← h.same]
  exact ⟨rfl, rfl, rfl, rfl, rfl, rfl, rfl, rfl⟩

/-- The options of a project with notes are the first ones but for the place of logs. -/
theorem Keeps.encode_eq (h : p.Keeps q) : ∃ log, q.encode = { p.encode with passLogPrefix := log } := by
  rcases h.encode with kept | ⟨output, -, placed⟩
  · exact ⟨_, kept⟩
  · rcases passEncode_eq placed with kept | ⟨-, log, -, logged⟩
    · exact ⟨_, kept⟩
    · exact ⟨_, logged⟩

theorem Keeps.outputPath_eq (h : p.Keeps q) : q.outputPath = p.outputPath := by
  obtain ⟨log, encode⟩ := h.encode_eq
  rw [← h.same, encode]
  rfl

theorem Keeps.validate_eq (h : p.Keeps q) : q.validate = p.validate := by
  obtain ⟨log, encode⟩ := h.encode_eq
  rw [← h.same, encode]
  rfl

theorem Keeps.passEncode_eq (h : p.Keeps q) {output : Value} (path : p.outputPath = .ok output) :
    q.passEncode output = p.passEncode output := by
  rcases h.encode with kept | ⟨output', path', placed⟩
  · rw [← h.same, kept]
    rfl
  · obtain rfl : output = output' := Except.ok.inj (path.symm.trans path')
    rw [placed]
    rcases Project.passEncode_eq placed with kept | ⟨-, log, -, logged⟩
    · rw [← placed, ← h.same, kept]
      rfl
    · rw [passEncode, if_neg (by simp [logged, Value.isNull])]

/-- The notes do not show when the project is compiled again. -/
theorem Keeps.compilation_eq (h : p.Keeps q) : q.compilation = p.compilation := by
  obtain ⟨timeline, -, -, -, -, program, workers, -⟩ := h.fields
  unfold compilation
  rw [h.validate_eq, h.outputPath_eq, timeline, program, workers]
  refine bind_congr fun _ => bind_congr fun resolved => bind_congr fun graph => ?_
  cases path : p.outputPath with
  | error e => rfl
  | ok output =>
      simp only [Run.ofExcept, pure_bind]
      rw [h.passEncode_eq path]

theorem Keeps.trans (first : p.Keeps q) (second : q.Keeps r) : p.Keeps r where
  same := by
    rw [← second.same, ← first.same]
  encode := by
    rcases second.encode with kept | ⟨output, path, placed⟩
    · rw [kept]
      exact first.encode
    · rw [first.outputPath_eq] at path
      rw [first.passEncode_eq path] at placed
      exact .inr ⟨output, path, placed⟩

variable {after : Host} {c : Compilation}

theorem keeps_compiledTo (h : p.compilation.on host = (.ok c, after)) : p.Keeps (p.compiledTo c) := by
  obtain ⟨r, kept, same⟩ := p.compile_notes host
  rw [h] at same
  obtain ⟨_, -, -, rfl⟩ := same
  exact kept

theorem compile_on_ok (h : p.compilation.on host = (.ok c, after)) :
    compile.on p host = (.ok c.invocations, p.compiledTo c, after) := by
  obtain ⟨r, -, same⟩ := p.compile_notes host
  rw [h] at same
  obtain ⟨_, ends, rfl, rfl⟩ := same
  exact ends

theorem compile_on_error {e : Error} (h : p.compilation.on host = (.error e, after)) :
    ∃ q, p.Keeps q ∧ compile.on p host = (.error e, q, after) := by
  obtain ⟨q, kept, same⟩ := p.compile_notes host
  rw [h] at same
  exact ⟨q, kept, same⟩

def planOf (p : Project) (c : Compilation) : Except Error Value := do
  let output ← p.outputPath
  let graph ← c.graph.describe
  let commands ← c.invocations.mapM fun i => i.commandLine p.settings.ffmpeg
  return .record [("project", p.timeline.name), ("output", output), ("graph", graph),
    ("commands", .texts commands)]

theorem plan_on_ok (h : p.compilation.on host = (.ok c, after)) :
    plan.on p host = ((p.compiledTo c).planOf c, p.compiledTo c, after) := by
  rw [plan, Work.on_bind, compile_on_ok h]
  simp only [Work.on_bind, Work.on_get, Work.on_ofExcept]
  rfl

theorem plan_on_error {e : Error} (h : p.compilation.on host = (.error e, after)) :
    ∃ q, p.Keeps q ∧ plan.on p host = (.error e, q, after) := by
  obtain ⟨q, kept, ends⟩ := compile_on_error h
  exact ⟨q, kept, by rw [plan, Work.on_bind, ends]⟩

theorem run_on_error {e : Error} (h : p.compilation.on host = (.error e, after)) :
    ∃ q, p.Keeps q ∧ (run none).on p host = (.error e, q, after) := by
  obtain ⟨q, kept, ends⟩ := compile_on_error h
  exact ⟨q, kept, by rw [run, Work.on_bind, ends]⟩

theorem run_on_dry (dry : p.dryRun = true) (h : p.compilation.on host = (.ok c, after)) :
    (run none).on p host =
      (((rehearse p.settings.ffmpeg c.invocations).on after).1.map fun _ => none,
        p.compiledTo c, ((rehearse p.settings.ffmpeg c.invocations).on after).2) := by
  rw [run, Work.on_bind, compile_on_ok h]
  simp only [Work.on_bind, Work.on_get]
  rw [if_pos (show (p.compiledTo c).dryRun = true from dry), Work.on_bind, Work.on_ofRun]
  have program : (p.compiledTo c).settings.ffmpeg = p.settings.ffmpeg := rfl
  rw [program]
  cases (rehearse p.settings.ffmpeg c.invocations).on after with
  | mk outcome last => cases outcome <;> rfl

theorem run_on_live (live : p.dryRun = false) (h : p.compilation.on host = (.ok c, after))
    (path : p.outputPath = .ok c.output) :
    (run none).on p host =
      (((renderTo c.output ((p.compiledTo c).runPasses c.invocations)).on after).1.map some,
        p.compiledTo c,
        ((renderTo c.output ((p.compiledTo c).runPasses c.invocations)).on after).2) := by
  have goes : (p.compiledTo c).outputPath = .ok c.output :=
    (keeps_compiledTo h).outputPath_eq.trans path
  have still : ¬(p.compiledTo c).dryRun = true := by
    simpa [compiledTo] using live
  rw [run, Work.on_bind, compile_on_ok h]
  simp only [Work.on_bind, Work.on_get]
  rw [if_neg still, Work.on_bind, Work.on_ofExcept, goes]
  simp only [Work.on_bind, Work.on_ofRun]
  cases (renderTo c.output ((p.compiledTo c).runPasses c.invocations)).on after with
  | mk outcome last => cases outcome <;> rfl

/-- A run of commands that were compiled before shows them, or renders. -/
theorem runOn_run_some (p : Project) (invocations : List Invocation) :
    (run (some invocations)).runOn p =
      if p.dryRun then do
        rehearse p.settings.ffmpeg invocations
        return none
      else do
        let output ← Run.ofExcept p.outputPath
        return some (← renderTo output (p.runPasses invocations)) := by
  rw [Work.runOn_eq]
  unfold run
  simp only [Work.keeping_bind, Work.keeping_get, pure_bind]
  split
  · simp only [Work.keeping_bind, Work.keeping_ofRun, Work.keeping_pure, pure_bind, bind_assoc]
  · simp only [Work.keeping_bind, Work.keeping_ofRun, Work.keeping_ofExcept, Work.keeping_pure,
      pure_bind, bind_assoc]

end Project

end Reel
