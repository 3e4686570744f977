import Reel.Environment.Plain
import Reel.Proofs.Project.Reach
import Reel.Proofs.Project.Words
import Reel.Proofs.Timeline.Repeats

/-!
# Plans say what is run

Compiling, planning and rehearsing look at the files and at the answers of probes, and note in the
project only what compiling again does not look at. So each of these calls gives the same however
often and in which order they are made, and what a plan shows is what a run starts.
-/
namespace Reel

def Value.entry? (name : String) : Value → Option Value
  | .map entries => Value.lookup? (.text name) entries
  | _ => none

/-- The value shows these command lines, and these texts as the nodes of the graph. -/
structure Value.Plans (v : Value) (lines filters : List String) : Prop where
  commands : v.entry? "commands" = some (.texts lines)
  nodes : ∃ nodes, (v.entry? "graph").bind (Value.entry? "nodes") = some (.list nodes) ∧
    nodes.map (Value.entry? "filter") = filters.map fun text => some (.text text)

theorem Node.describe_filter {n : Node Double} {v : Value} (h : n.describe = .ok v) :
    ∃ text, n.render = .ok text ∧ v.entry? "filter" = some (.text text) := by
  obtain ⟨text, written, h⟩ := exists_of_bind_ok h
  refine ⟨text, written, ?_⟩
  rw [← Except.ok.inj h]
  rfl

theorem Node.describe_filters {nodes : List (Node Double)} {vs : List Value}
    (h : nodes.mapM Node.describe = .ok vs) :
    ∃ filters, nodes.mapM Node.render = .ok filters ∧
      vs.map (Value.entry? "filter") = filters.map fun text => some (.text text) := by
  induction nodes generalizing vs with
  | nil =>
      obtain rfl : [] = vs := Except.ok.inj h
      exact ⟨[], rfl, rfl⟩
  | cons n rest ih =>
      rw [List.mapM_cons] at h
      obtain ⟨v, first, h⟩ := exists_of_bind_ok h
      obtain ⟨others, described, h⟩ := exists_of_bind_ok h
      obtain rfl : v :: others = vs := Except.ok.inj h
      obtain ⟨text, written, shown⟩ := describe_filter first
      obtain ⟨filters, written', shown'⟩ := ih described
      refine ⟨text :: filters, ?_, by simp [shown, shown']⟩
      rw [List.mapM_cons, written, written']
      rfl

/-- The run does nothing but print lines, and these and its result hang on nothing. -/
def Run.OnlyPrints {α : Type} (run : Run α) : Prop :=
  ∃ r lines, ∀ host, run.on host = (r, { host with printed := lines ++ host.printed })

namespace Run.OnlyPrints

variable {α β : Type} {run : Run α} {next : α → Run β}

theorem pure (x : α) : OnlyPrints (Pure.pure x : Run α) := ⟨.ok x, [], fun _ => rfl⟩

theorem ofExcept (r : Except Error α) : OnlyPrints (Run.ofExcept r) := by
  cases r with
  | ok x => exact .pure x
  | error e => exact ⟨.error e, [], fun _ => rfl⟩

theorem printLine (line : String) : OnlyPrints (Run.printLine line) :=
  ⟨.ok (), [line ++ "\n"], fun _ => rfl⟩

theorem bind (first : OnlyPrints run) (rest : ∀ x, OnlyPrints (next x)) :
    OnlyPrints (run >>= next) := by
  obtain ⟨r, lines, prints⟩ := first
  cases r with
  | error e => exact ⟨.error e, lines, fun host => by rw [on_bind, prints]⟩
  | ok x =>
      obtain ⟨r', later, prints'⟩ := rest x
      refine ⟨r', later ++ lines, fun host => ?_⟩
      rw [on_bind, prints]
      dsimp only
      rw [prints', List.append_assoc]

theorem forM {f : α → Run Unit} (h : ∀ x, OnlyPrints (f x)) (xs : List α) :
    OnlyPrints (xs.forM f) := by
  induction xs with
  | nil => exact .pure ()
  | cons x rest ih => exact (h x).bind fun _ => ih

end Run.OnlyPrints

namespace Project

variable {p q : Project} {c : Compilation} {v : Value} {host now : Host}

/-- What a rehearsal gives and the lines that it prints. -/
def rehearsal (program : Value) (quiet : Bool) (invocations : List Invocation) :
    Except Error Unit × List String :=
  let (result, after) := (rehearse program invocations).on { quiet }
  (result, after.printed)

theorem rehearse_on (program : Value) (invocations : List Invocation) (host : Host) :
    (rehearse program invocations).on host =
      ((rehearsal program host.quiet invocations).1,
        { host with
          printed := (rehearsal program host.quiet invocations).2 ++ host.printed }) := by
  have shows : Run.OnlyPrints (do
      invocations.forM fun i => do Run.printLine (← Run.ofExcept (i.commandLine program))
      Run.printLine "dry run: validation complete") :=
    (Run.OnlyPrints.forM (fun _ => (Run.OnlyPrints.ofExcept _).bind fun _ => .printLine _) _).bind
      fun _ => .printLine _
  obtain ⟨r, lines, prints⟩ := shows
  have steps (host : Host) : (rehearse program invocations).on host =
      if host.quiet then (.ok (), host)
      else (r, { host with printed := lines ++ host.printed }) := by
    rw [rehearse, Run.on_bind, Run.on_get]
    dsimp only
    split
    · rfl
    · exact prints host
  rw [rehearsal, steps, steps]
  dsimp only
  split
  · rfl
  · rw [List.append_nil]

/-- A plan shows the command lines of what was compiled and the text of every node. -/
theorem planOf_plans (h : p.planOf c = .ok v) : ∃ lines filters, v.Plans lines filters ∧
    c.invocations.mapM (fun i => i.commandLine p.settings.ffmpeg) = .ok lines ∧
    c.graph.filterComplex = .ok (String.intercalate ";" filters) := by
  obtain ⟨output, -, h⟩ := exists_of_bind_ok h
  obtain ⟨graph, described, h⟩ := exists_of_bind_ok h
  obtain ⟨lines, commands, h⟩ := exists_of_bind_ok h
  obtain ⟨nodes, shown, described⟩ := exists_of_bind_ok described
  obtain ⟨filters, written, texts⟩ := Node.describe_filters shown
  refine ⟨lines, filters, ⟨?_, nodes, ?_, texts⟩, commands, ?_⟩
  · rw [← Except.ok.inj h]
    rfl
  · rw [← Except.ok.inj h, ← Except.ok.inj described]
    rfl
  · rw [Graph.filterComplex, written]
    rfl

theorem Keeps.planOf_eq (h : p.Keeps q) : q.planOf c = p.planOf c := by
  obtain ⟨timeline, settings, -⟩ := h.fields
  rw [planOf, planOf, h.outputPath_eq, timeline, settings]

theorem compilation_repeats (p : Project) : p.compilation.Repeats := by
  have resolves := Prober.resolve_repeats (Prober.ofProgram_repeats p.probeProgram) p.probeWorkers
    p.timeline
  refine (Run.Repeats.bind .files fun _ => .ofExcept _).bind fun _ => resolves.bind fun _ => ?_
  refine (Run.Repeats.ofExcept _).bind fun _ => (Run.Repeats.ofExcept _).bind fun _ => ?_
  exact (Run.Repeats.ofExcept _).bind fun _ => (Run.Repeats.ofExcept _).bind fun _ => .pure _

/-- What can be asked of a project without rendering it. -/
inductive Call where
  | compile
  | plan
  | rehearse

/-- What a call gives: its result, and for a rehearsal the lines that it prints, latest first. -/
inductive Reply where
  | compiled (result : Except Error (List Invocation))
  | planned (result : Except Error Value)
  | rehearsed (result : Except Error (Option PipelineResult)) (lines : List String)

/-- Makes a call. A rehearsal is a run of the project with its dry run switched on. -/
def Call.on (p : Project) (host : Host) : Call → Reply × Project × Host
  | .compile =>
    let (result, q, after) := Project.compile.on p host.fresh
    (.compiled result, q, after)
  | .plan =>
    let (result, q, after) := Project.plan.on p host.fresh
    (.planned result, q, after)
  | .rehearse =>
    let (result, q, after) := (Project.run none).on { p with dryRun := true } host.fresh
    (.rehearsed result after.printed, { q with dryRun := p.dryRun }, after)

/-- Makes calls one after the other. -/
def callAll : List Call → Project → Host → List Reply × Project × Host
  | [], p, host => ([], p, host)
  | call :: rest, p, host =>
    let (reply, q, after) := call.on p host
    let (replies, last, still) := callAll rest q after
    (reply :: replies, last, still)

/-- What a call gives when it is known what compiling arrives at. -/
def Call.reply (p : Project) (quiet : Bool) : Call → Except Error Compilation → Reply
  | .compile, compiled => .compiled (compiled.map Compilation.invocations)
  | .plan, compiled => .planned (compiled >>= p.planOf)
  | .rehearse, .ok c =>
    let (result, lines) := rehearsal p.settings.ffmpeg quiet c.invocations
    .rehearsed (result.map fun _ => none) lines
  | .rehearse, .error e => .rehearsed (.error e) []

theorem Keeps.withDryRun (h : p.Keeps q) (dryRun : Bool) :
    Keeps { p with dryRun } { q with dryRun } where
  same := by rw [← h.same]
  encode := h.encode

/-- A project is itself again once its dry run is switched back. -/
theorem Keeps.rehearsed (h : p.Keeps q) {r : Project} (h' : Keeps { q with dryRun := true } r) :
    p.Keeps { r with dryRun := q.dryRun } := by
  have kept := ((h.withDryRun true).trans h').withDryRun q.dryRun
  obtain ⟨-, -, -, dryRun, -⟩ := h.fields
  rw [dryRun] at kept ⊢
  exact kept

structure Rests (now after : Host) : Prop where
  files : after.files = now.files
  probes : after.probes = now.probes
  quiet : after.quiet = now.quiet

/-- A call on a project with notes gives what compiling the first one arrives at, and leaves the
project with notes and the machine with all that calls look at. -/
theorem Call.on_eq (call : Call) (kept : p.Keeps q) (now : Host) :
    (call.on q now).1 = call.reply p now.quiet (p.compilation.on now).1 ∧
      p.Keeps (call.on q now).2.1 ∧ Rests now (call.on q now).2.2 := by
  have same : (q.compilation.on now.fresh).1 = (p.compilation.on now).1 := by
    rw [kept.compilation_eq]
    exact p.compilation_repeats.outcome_eq rfl rfl
  obtain ⟨asked, left⟩ := q.compilation_repeats.exists_spawned now.fresh
  rw [← same]
  cases ends : q.compilation.on now.fresh with
  | mk outcome after =>
      rw [ends] at left
      let still : Host := { now.fresh with spawned := asked ++ now.fresh.spawned }
      obtain rfl : after = still := left
      have rests : Rests now still := ⟨rfl, rfl, rfl⟩
      cases call with
      | compile =>
          cases outcome with
          | error e =>
              obtain ⟨r, kept', stopped⟩ := compile_on_error ends
              rw [Call.on, stopped]
              exact ⟨rfl, kept.trans kept', rests⟩
          | ok c =>
              rw [Call.on, compile_on_ok ends]
              exact ⟨rfl, kept.trans (keeps_compiledTo ends), rests⟩
      | plan =>
          cases outcome with
          | error e =>
              obtain ⟨r, kept', stopped⟩ := plan_on_error ends
              rw [Call.on, stopped]
              exact ⟨rfl, kept.trans kept', rests⟩
          | ok c =>
              have compiled := kept.trans (keeps_compiledTo ends)
              rw [Call.on, plan_on_ok ends, compiled.planOf_eq]
              exact ⟨rfl, compiled, rests⟩
      | rehearse =>
          have dry : ({ q with dryRun := true } : Project).compilation.on now.fresh =
            (outcome, still) := ends
          cases outcome with
          | error e =>
              obtain ⟨r, kept', stopped⟩ := run_on_error dry
              rw [Call.on, stopped]
              exact ⟨rfl, kept.rehearsed kept', rests⟩
          | ok c =>
              obtain ⟨-, settings, -⟩ := kept.fields
              rw [Call.on, run_on_dry rfl dry, rehearse_on]
              refine ⟨?_, kept.rehearsed (keeps_compiledTo dry), rfl, rfl, rfl⟩
              dsimp only
              rw [settings]
              exact congrArg (Reply.rehearsed _) (List.append_nil _)

theorem callAll_eq (calls : List Call) {p q : Project} {host now : Host} (kept : p.Keeps q)
    (rests : Rests host now) :
    (callAll calls q now).1 = calls.map (fun call => (call.on p host).1) ∧
      p.Keeps (callAll calls q now).2.1 ∧ Rests host (callAll calls q now).2.2 := by
  induction calls generalizing q now with
  | nil => exact ⟨rfl, kept, rests⟩
  | cons call rest ih =>
      obtain ⟨gives, kept', rests'⟩ := call.on_eq kept now
      obtain ⟨first, -⟩ := call.on_eq (.refl p) host
      have same : (p.compilation.on now).1 = (p.compilation.on host).1 :=
        p.compilation_repeats.outcome_eq rests.files rests.probes
      have still : Rests host (call.on q now).2.2 :=
        ⟨rests'.files.trans rests.files, rests'.probes.trans rests.probes,
          rests'.quiet.trans rests.quiet⟩
      obtain ⟨replies, last⟩ := ih kept' still
      refine ⟨?_, last⟩
      rw [List.map_cons, first, ← rests.quiet, ← same, ← gives, ← replies]
      rfl

/-- Lines that are cut back into words have the words of their commands, one by one. -/
theorem exists_words {program encoder : Value} {runs : List Invocation} {lines : List String}
    {good : List String → Prop}
    (each : ∀ i ∈ runs, ∀ line, i.commandLine program = .ok line →
      ∃ ws, i.words encoder = .ok ws ∧ Shell.split? line = some ws ∧ good ws)
    (h : List.Forall₂ (fun i line => i.commandLine program = .ok line) runs lines) :
    ∃ words, lines.map Shell.split? = words.map some ∧
      List.Forall₂ (fun i ws => i.words encoder = .ok ws) runs words ∧ ∀ ws ∈ words, good ws := by
  induction h with
  | nil => exact ⟨[], rfl, .nil, by simp⟩
  | cons first _ ih =>
      rw [List.forall_mem_cons] at each
      obtain ⟨ws, written, split, fine⟩ := each.1 _ first
      obtain ⟨words, splits, all, others⟩ := ih each.2
      refine ⟨ws :: words, ?_, .cons written all, List.forall_mem_cons.mpr ⟨fine, others⟩⟩
      rw [List.map_cons, split, splits]
      rfl

/-- The words of a command are read with one setting that holds the text of the graph. -/
def HoldsGraph (text : String) (ws : List String) : Prop :=
  ∃ r, Reading.ofWords? (Value.words ws.tail) = some r ∧
    r.output.filter (Setting.among ["-filter_complex"]) = [.option "-filter_complex" text]

/-- The lines of a plan are cut back into the words of the commands, which hold what the nodes of
the plan say. -/
theorem Compiles.shown {files : Files} (h : p.Compiles files c) (textual : p.Textual)
    (planned : p.planOf c = .ok v) :
    ∃ lines filters words, v.Plans lines filters ∧ lines.map Shell.split? = words.map some ∧
      List.Forall₂ (fun i ws => i.words p.encoderProgram = .ok ws) c.invocations words ∧
      ∀ ws ∈ words, HoldsGraph (String.intercalate ";" filters) ws := by
  obtain ⟨lines, filters, plans, commands, written⟩ := planOf_plans planned
  obtain ⟨text, written', texts⟩ := h.words textual
  obtain rfl := Except.ok.inj (written.symm.trans written')
  obtain ⟨name, program⟩ := textual.program
  have each : ∀ i ∈ c.invocations, ∀ line, i.commandLine p.settings.ffmpeg = .ok line →
      ∃ ws, i.words p.encoderProgram = .ok ws ∧ Shell.split? line = some ws ∧
        HoldsGraph (String.intercalate ";" filters) ws := by
    intro i hi line shown
    obtain ⟨plain, wordy, r, reads, holds⟩ := texts i hi
    have all : ∀ v ∈ p.settings.ffmpeg :: i.arguments, v.Wordy :=
      List.forall_mem_cons.mpr ⟨.inl ⟨name, program⟩, wordy⟩
    obtain ⟨ws, same, started, split⟩ := Invocation.split?_commandLine plain all shown
    refine ⟨ws, textual.encoder ▸ started, split, r, ?_, holds⟩
    cases ws with
    | nil => cases same
    | cons w rest => rwa [(List.cons.inj same).2] at reads
  obtain ⟨words, splits, started, holds⟩ := exists_words each (forall₂_of_mapM commands)
  exact ⟨lines, filters, words, plans, splits, started, holds⟩

/-- A run of the project on a machine starts commands with these words one after the other, behind
programs that ask about media, and all of them if it gives a result. It comes up to the first that
fails or does not start, unless the directory of the output cannot be made or the console stops it
before. -/
def RunsAs (p : Project) (host : Host) (words : List (List String)) : Prop :=
  ∃ asked started, ((run none).on p host).2.2.spawned =
      (started.map Spawn.ofWords).reverse ++ (asked ++ host.spawned) ∧
    (∀ spawn ∈ asked, spawn.Asks p.probeProgram) ∧
    started <+: CommandScript.reached host.commands words ∧
    (host.Patient words.length → started = CommandScript.reached host.commands words ∨
      started = [] ∧ ∃ output e, p.outputPath = .ok output ∧
        ((makeDirectoryOf output).on host).1 = .error e) ∧
    ∀ result, ((run none).on p host).1 = .ok result → started = words

/-- Whoever listens, compiling starts programs that ask about media and changes nothing else. -/
theorem compilation_asks (p : Project) (host : Host) :
    ∃ asked, (p.compilation.on host).2 = { host with spawned := asked ++ host.spawned } ∧
      ∀ spawn ∈ asked, spawn.Asks p.probeProgram := by
  let alone : Host := { host with listener := .none }
  obtain ⟨touched, -⟩ := compilation_does p alone rfl
  obtain ⟨asked, spawned, asks⟩ := touched.spawned
  have files : host.files = alone.files := rfl
  exact ⟨asked, p.compilation_repeats.spawned_eq files rfl spawned, asks⟩

theorem runsAs_of_compilation (live : p.dryRun = false) (goes : p.GoesByPath)
    (compiled : (p.compilation.on host).1 = .ok c) {words : List (List String)}
    (all : List.Forall₂ (fun i ws => i.words p.encoderProgram = .ok ws) c.invocations words) :
    p.RunsAs host words := by
  obtain ⟨asked, left, asks⟩ := p.compilation_asks host
  let after : Host := { host with spawned := asked ++ host.spawned }
  have ends : p.compilation.on host = (.ok c, after) := Prod.ext compiled left
  have compiles := compiles_of_on ends
  have plain : ∀ i ∈ c.invocations, i.shellCommand = .null :=
    fun i hi => (compiles.spares goes i hi).1
  obtain ⟨started, spawned, front, whole, reaches⟩ :=
    render_reaches (p.compiledTo c) c.output plain all after
  rw [RunsAs, run_on_live live ends compiles.output]
  refine ⟨asked, started, spawned, asks, front, fun calm => ?_, fun result given => ?_⟩
  · refine (reaches (calm.of_console rfl rfl rfl rfl)).imp_right fun ⟨nothing, e, unmade⟩ => ?_
    have files : host.files = after.files := rfl
    exact ⟨nothing, c.output, e, compiles.output,
      ((makeDirectoryOf_onFiles c.output).outcome_eq files).trans unmade⟩
  · obtain ⟨passed, ended, -⟩ := exists_of_map_ok given
    exact whole passed ended

/-- However often a project is compiled, planned and rehearsed in whatever order, each call gives
what it gives at first, and timeline and files stay. The lines that a plan shows are cut back into
words, of which every command's hold the text of the nodes that the plan shows, and a run of the
project then starts commands with these words, as long as the files and the answers about media
are the same. -/
theorem plan_says_what_runs {p : Project} (textual : p.Textual) (host : Host)
    (calls : List Call) :
    (callAll calls p host).1 = calls.map (fun call => (call.on p host).1) ∧
    (callAll calls p host).2.1.timeline = p.timeline ∧
    (callAll calls p host).2.2.files = host.files ∧
    ∀ v, (Call.plan.on p host).1 = .planned (.ok v) → ∃ lines filters words,
      v.Plans lines filters ∧ lines.map Shell.split? = words.map some ∧
      (∀ ws ∈ words, HoldsGraph (String.intercalate ";" filters) ws) ∧
      ∀ live : Host, live.files = host.files → live.probes = host.probes →
        RunsAs { (callAll calls p host).2.1 with dryRun := false } live words := by
  have begun : Rests host host := ⟨rfl, rfl, rfl⟩
  obtain ⟨replies, kept, rests⟩ := callAll_eq calls (.refl p) begun
  obtain ⟨timeline, -, override, -, -, -, -, encoder⟩ := kept.fields
  refine ⟨replies, timeline, rests.files, fun v planned => ?_⟩
  obtain ⟨gives, -⟩ := Call.plan.on_eq (.refl p) host
  rw [planned] at gives
  obtain ⟨c, compiled, shown⟩ := exists_of_bind_ok (Reply.planned.inj gives).symm
  have ends : p.compilation.on host = (.ok c, (p.compilation.on host).2) := by rw [← compiled]
  have compiles := compiles_of_on ends
  obtain ⟨lines, filters, words, plans, splits, started, holds⟩ := compiles.shown textual shown
  refine ⟨lines, filters, words, plans, splits, holds, fun live files probes => ?_⟩
  have same := kept.withDryRun false
  refine runsAs_of_compilation (c := c) rfl ?_ ?_ (encoder.symm ▸ started)
  · rw [GoesByPath, override]
    exact textual.goes
  · rw [same.compilation_eq]
    exact (p.compilation_repeats.outcome_eq files probes).trans compiled

/-- A project that is loaded with the name of an encoder keeps to texts. -/
theorem textual_of_load [Environment] {file : Value} {settings : Settings} {host after : Host}
    (program : ∃ s, settings.ffmpeg = .text s)
    (h : (load file settings none).on host = (.ok p, after)) : p.Textual := by
  unfold load at h
  split at h
  · cases h
  · obtain ⟨timeline, between, -, h⟩ := Run.exists_of_bind_ok h
    obtain ⟨given, -⟩ := Run.exists_of_ofExcept_ok h
    obtain ⟨format, -, given⟩ := exists_of_bind_ok given
    rw [pure_bind] at given
    obtain rfl := Except.ok.inj given
    exact ⟨program, rfl, ⟨⟨_, rfl⟩, ⟨_, rfl⟩, .inl rfl⟩, .inl rfl⟩

/-- A project with a clip whose path has to be quoted. -/
def quotedTrip : Host where
  files := ⟨[(["trip.yml"], .file (Text.encode "segments: [\"it's a walk.mp4\"]")),
    (["it's a walk.mp4"], .file [])]⟩

def tripSettings : Settings where
  rootPath := "root"

section Plain

attribute [local instance] Environment.plain

theorem plan_says_what_runs_trip :
    ∃ p v, ((load "trip.yml" tripSettings none).on quotedTrip).1 = .ok p ∧ p.Textual ∧
      (Call.plan.on p quotedTrip).1 = .planned (.ok v) ∧
      (callAll [.plan, .rehearse, .compile, .plan] p quotedTrip).1 =
        [Call.plan, .rehearse, .compile, .plan].map (fun call => (call.on p quotedTrip).1) ∧
      ∃ lines filters words, v.Plans lines filters ∧
        lines.map Shell.split? = words.map some ∧
        RunsAs { (callAll [.plan, .rehearse, .compile, .plan] p quotedTrip).2.1 with
          dryRun := false } quotedTrip words := by
  have given : (do
      let p ← ((load "trip.yml" tripSettings none).on quotedTrip).1
      (plan.on p quotedTrip.fresh).1).isOk = true := by decide +kernel
  obtain ⟨v, planned⟩ := exists_of_isOk given
  obtain ⟨p, loaded, planned⟩ := exists_of_bind_ok planned
  have ends : (load "trip.yml" tripSettings none).on quotedTrip =
      (.ok p, ((load "trip.yml" tripSettings none).on quotedTrip).2) := by rw [← loaded]
  have textual : p.Textual := textual_of_load ⟨"ffmpeg", rfl⟩ ends
  have replied : (Call.plan.on p quotedTrip).1 = .planned (.ok v) := congrArg Reply.planned planned
  obtain ⟨replies, -, -, shows⟩ :=
    plan_says_what_runs textual quotedTrip [.plan, .rehearse, .compile, .plan]
  obtain ⟨lines, filters, words, plans, splits, -, runs⟩ := shows v replied
  exact ⟨p, v, loaded, textual, replied, replies, lines, filters, words, plans, splits,
    runs quotedTrip rfl rfl⟩

end Plain

end Project

end Reel
