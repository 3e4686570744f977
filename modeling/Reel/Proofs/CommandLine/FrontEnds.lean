import Reel.CommandLine.Dashboard
import Reel.Proofs.CommandLine.Effects
import Reel.Proofs.CommandLine.Spelling
import Reel.Proofs.Dashboard.Sequence
import Reel.Proofs.Project.Twins

/-!
# Two front ends, one render

The renderer and the dashboard share the options that say what is rendered and how. They make the
encoding options in different ways, read the project a different number of times, compile it at
different moments and do different things about errors. Still they arrive at one project, and what
they do to the machine from there on differs in the console alone.
-/
namespace Reel

open Run

/-- Runs a computation on a display that is dropped afterwards. -/
def Live.runOn {α : Type} (live : Live α) (s : Display) : Run α := ExceptT.mk fun host =>
  let (outcome, _, host) := live.on s host
  (outcome, host)

theorem Live.runOn_on {α : Type} (live : Live α) (s : Display) (host : Host) :
    (live.runOn s).on host = ((live.on s host).1, (live.on s host).2.2) := rfl

/-- A machine on which a program has just begun: nobody listens, nothing is announced. -/
structure Host.Idle (host : Host) : Prop where
  listener : host.listener = none
  total : host.total = .null
  index : host.index = 0

theorem Host.Idle.patient {host : Host} (idle : host.Idle) {k : Nat} (short : k ≤ 2 ^ 41) :
    host.Patient k where
  listener := by simp [idle.listener]
  echo := .inr ⟨idle.total, by rw [idle.index]; omega⟩

/-- The machines have the same files, and the same programs were started on them. -/
def Host.Agrees (a b : Host) : Prop := a.files = b.files ∧ a.spawned = b.spawned

theorem Host.Twin.agrees {a b : Host} (twin : a.Twin b) : a.Agrees b := ⟨twin.files, twin.spawned⟩

namespace Project

variable {p : Project} {c : Compilation} {e : Error} {host after : Host}

/-- A project whose output has no path does not compile, and nothing is done about that. -/
theorem compilation_unplaced (h : p.outputPath = .error e) (host : Host) :
    ∃ cause, p.compilation.on host = (.error cause, host) := by
  have checked := p.validate_yields host.files
  have looked : (do Run.ofExcept (p.validate (← Run.files)) : Run Unit).on host =
      (p.validate host.files, host) := by
    rw [on_bind, on_files]
    exact on_ofExcept _ _
  rw [compilation, on_bind, looked]
  cases valid : p.validate host.files with
  | error cause => exact ⟨cause, rfl⟩
  | ok _ =>
      obtain ⟨path, goes⟩ := (checked.of_ok valid).output
      rw [h] at goes
      cases goes

theorem idle_of_compilation {r : Except Error Compilation} (idle : host.Idle)
    (h : p.compilation.on host = (r, after)) : after.Idle := by
  obtain ⟨spawned, left⟩ := p.compilation_repeats.exists_spawned host
  rw [h] at left
  dsimp only at left
  rw [left]
  exact ⟨idle.listener, idle.total, idle.index⟩

/-- Rendering what was compiled does the same on twins, with or without a listener. -/
theorem run_agrees {b compiled : Host} {outcome : Except Error (Option PipelineResult)}
    (ends : p.compilation.on host = (.ok c, compiled)) (idle : host.Idle)
    (twin : compiled.Twin b) (patient : b.Patient c.invocations.length) (quiet : b.quiet = true)
    (ran : ((run (some c.invocations)).runOn (p.compiledTo c)).on b = (outcome, after)) :
    ((run none).on p host).2.2.Agrees after := by
  have compiles := compiles_of_on ends
  cases dry : p.dryRun with
  | true =>
      rw [run_on_dry dry ends, rehearse_on]
      rw [run_on_quiet (p := p.compiledTo c) dry _ quiet] at ran
      obtain rfl : b = after := congrArg Prod.snd ran
      exact twin.agrees
  | false =>
      have path : (p.compiledTo c).outputPath = .ok c.output :=
        (keeps_compiledTo ends).outputPath_eq.trans compiles.output
      have live : ¬(p.compiledTo c).dryRun = true := by simpa [compiledTo] using dry
      rw [run_on_live dry ends compiles.output]
      have still : compiled.Patient (0 + c.invocations.length) :=
        (idle_of_compilation idle ends).patient (by have := compiles.length_le; omega)
      obtain ⟨-, left, -, -⟩ := renderTo_indifferent c.output
        (runPasses_indifferent (p.compiledTo c) c.invocations) 0 compiled b twin still
        (patient.mono (by omega))
      rw [runOn_run_some, if_neg live, path, on_bind, on_ofExcept] at ran
      dsimp only at ran
      rw [on_bind] at ran
      generalize (renderTo c.output ((p.compiledTo c).runPasses c.invocations)).on b = rendered
        at left ran
      obtain ⟨result, last⟩ := rendered
      have ended : last = after := by
        cases result with
        | ok _ => exact congrArg Prod.snd ran
        | error _ => exact congrArg Prod.snd ran
      exact ended ▸ left.agrees

end Project

/-- The dashboard is bare, and no call on it fails on its way. -/
structure Display.Quiet (s : Display) : Prop where
  answers : ∀ n, s.fate n = .answered
  bare : s.dashboard.Bare

namespace Display.Quiet

variable {s : Display}

theorem exists_call (h : s.Quiet) {c : Call} {now : Double}
    (completes : Reaction.Completes Dashboard.Bare (c.reaction now)) :
    ∃ left, s.call c now = (.ok (), left) ∧ left.Quiet := by
  obtain ⟨_, left, ends, bare⟩ := completes s.dashboard h.bare
  refine ⟨{ s with dashboard := left, calls := c :: s.calls }, ?_, h.answers, bare⟩
  rw [Display.call, h.answers]
  dsimp only
  rw [ends]

theorem exists_command (h : s.Quiet) (r : Report) (now : Double) :
    ∃ left, s.call (.command r) now = (.ok (), left) ∧ left.Quiet :=
  h.exists_call (Dashboard.hear_completes _ _)

theorem told (h : s.Quiet) (reports : List Report) : (s.told reports).Quiet := by
  induction reports with
  | nil => exact h
  | cons r earlier ih =>
      obtain ⟨left, ends, quiet⟩ := ih.exists_command r (timeOf r)
      have same : s.told (r :: earlier) = left := congrArg Prod.snd ends
      exact same ▸ quiet

/-- Nothing that is told to such a display stops the program. -/
theorem listener_eq (h : s.Quiet) (reports : List Report) : s.listener reports = .ok () := by
  cases reports with
  | nil => rfl
  | cons r earlier =>
      obtain ⟨left, ends, -⟩ := (h.told earlier).exists_command r (timeOf r)
      exact congrArg Prod.fst ends

end Display.Quiet

namespace Dashboard

variable [Environment] {d : Dashboard} {s : Display} {p : Project} {host b after : Host}

theorem loading_on (opened : ((openProject d).on b).1 = .ok p) :
    (loading d).on b = (p.outputPath.map fun output => (p, output), b) := by
  have opens : (openProject d).on b = (.ok p, b) := by
    rw [(openProject_reads d).on_eq b, opened]
  rw [loading, Run.on_bind, opens]
  dsimp only
  rw [Run.on_bind, Run.on_ofExcept]
  cases p.outputPath with
  | ok output => rfl
  | error e => rfl

theorem loading_eq (opened : ((openProject d).on b).1 = .ok p) {q : Project} {output : Value}
    {loaded : Host} (h : (loading d).on b = (.ok (q, output), loaded)) : q = p ∧ loaded = b := by
  rw [loading_on opened] at h
  obtain ⟨_, -, same⟩ := exists_of_map_ok (congrArg Prod.fst h)
  exact ⟨(congrArg Prod.fst same).symm, (congrArg Prod.snd h).symm⟩

/-- However the render of a project goes, a run of the project on a twin does the same. -/
theorem Course.agrees {stopped : Except Error Unit} {told : List Call}
    (course : Course s b stopped told after) (still : s.Quiet)
    (opened : ((openProject s.dashboard).on b).1 = .ok p) (idle : host.Idle) (twin : host.Twin b)
    (quiet : b.quiet = true) (silent : b.listener = none) :
    ((Project.run none).on p host).2.2.Agrees after := by
  have loads := loading_on opened
  have announced (n : Nat) : ({ b with total := .int n, index := 0 } : Host).Patient 0 :=
    ⟨by simp [silent], .inl quiet⟩
  have compiles (n : Nat) := p.compilation_indifferent 0 host { b with total := .int n, index := 0 }
    ⟨twin.files, twin.probes, twin.commands, twin.clock, twin.spawned⟩ (idle.patient (by omega))
    (announced n)
  have announces {q : Project} {c : Compilation} {files : Files}
      (compiles : q.Compiles files c) (now : Double) (output : Value) :
      ∃ left, { s with dashboard := s.dashboard.planned q output c }.call
        (.planReady (.int c.invocations.length)) now = (.ok (), left) ∧ left.Quiet := by
    have short : c.invocations.length ≤ 2 ^ 41 := by
      have := compiles.length_le
      omega
    have ready : ({ s with dashboard := s.dashboard.planned q output c } : Display).Quiet :=
      ⟨still.answers, still.bare.unattached, still.bare.unwritten⟩
    exact ready.exists_call (planReady_completes short now)
  cases course with
  | @unloaded e after unloaded =>
      rw [loads] at unloaded
      obtain rfl : b = after := congrArg Prod.snd unloaded
      cases path : p.outputPath with
      | ok output =>
          rw [path] at unloaded
          cases unloaded
      | error e =>
          obtain ⟨cause, stops⟩ := Project.compilation_unplaced path host
          obtain ⟨q, -, ends⟩ := Project.run_on_error stops
          rw [ends]
          exact twin.agrees
  | @uncompiled q output e loaded after loaded' stops =>
      obtain ⟨rfl, rfl⟩ := loading_eq opened loaded'
      obtain ⟨ends, left, -, -⟩ := compiles q.commandTotal
      rw [stops] at ends left
      generalize compiled : q.compilation.on host = one at ends left
      obtain ⟨outcome, last⟩ := one
      cases ends with
      | error =>
          obtain ⟨_, -, ends⟩ := Project.run_on_error compiled
          rw [ends]
          exact left.agrees
  | @unshown q output c e shown loaded after loaded' stops fails =>
      obtain ⟨rfl, rfl⟩ := loading_eq opened loaded'
      obtain ⟨_, ends, -⟩ := announces (Project.compiles_of_on stops) after.clock output
      rw [fails] at ends
      cases ends
  | @ran q output c shown outcome loaded compiled after loaded' stops shows ran =>
      obtain ⟨rfl, rfl⟩ := loading_eq opened loaded'
      obtain ⟨ends, left, -, -⟩ := compiles q.commandTotal
      rw [stops] at ends left
      generalize begun : q.compilation.on host = one at ends left
      obtain ⟨result, last⟩ := one
      cases ends with
      | @ok c' _ same =>
          obtain rfl : c' = c := same
          obtain ⟨spawned, still⟩ := q.compilation_repeats.exists_spawned
            { loaded with total := .int q.commandTotal, index := 0 }
          rw [stops] at still
          have silent : compiled.quiet = true := (congrArg Host.quiet still).trans quiet
          obtain ⟨left', told, attentive⟩ :=
            announces (Project.compiles_of_on begun) compiled.clock output
          rw [shows] at told
          obtain rfl : shown = left' := congrArg Prod.snd told
          have agrees : ((Project.run none).on q host).2.2.Agrees after := by
            refine Project.run_agrees begun idle ?_ ⟨?_, .inl ?_⟩ ?_ ran
            · exact ⟨left.files, left.probes, left.commands, left.clock, left.spawned⟩
            · rintro l listens reports
              obtain rfl := Option.some.inj listens
              exact attentive.listener_eq reports
            · exact silent
            · exact silent
          exact agrees

theorem Course.unopened {e : Error} {stopped : Except Error Unit} {told : List Call}
    (course : Course s b stopped told after)
    (unopened : ((openProject s.dashboard).on b).1 = .error e) : after = b := by
  have opens : (openProject s.dashboard).on b = (.error e, b) := by
    rw [(openProject_reads s.dashboard).on_eq b, unopened]
  have unloaded : (loading s.dashboard).on b = (.error e, b) := by
    rw [loading, Run.on_bind, opens]
  cases course with
  | unloaded h => exact congrArg Prod.snd (h.symm.trans unloaded)
  | uncompiled h => rw [unloaded] at h; cases h
  | unshown h => rw [unloaded] at h; cases h
  | ran h => rw [unloaded] at h; cases h

/-- A render does to files and programs what its course does. -/
theorem perform_course (s : Display) (trace : String) (host : Host) :
    ∃ stopped told middle, Course s { host with quiet := true } stopped told middle ∧
      middle.Agrees (((perform trace).runOn s).on host).2 := by
  obtain ⟨stopped, told, middle, finished, left, course, -, ends⟩ := perform_on trace s host
  refine ⟨stopped, told, middle, course, ?_⟩
  rw [Live.runOn_on, ends]
  exact ⟨rfl, rfl⟩

end Dashboard

namespace CommandLine

variable {b : DashboardArguments} {host : Host} {settings : Settings} {loaded : Project}

/-- The encoding options that are asked for, in a format. -/
def DashboardArguments.options (b : DashboardArguments) (format : String) : EncodeOptions where
  outputFormat := format
  twoPass := !b.bitrate.isNull
  videoBitrate := b.bitrate
  fast := b.fast

def DashboardArguments.projectOf (b : DashboardArguments) (loaded : Project) : Project :=
  { loaded with
    outputOverride := b.output
    dryRun := b.dryRun
    encode := b.options loaded.encode.outputFormat }

theorem encode_forRenderer (b : DashboardArguments) (format : Value) :
    b.forRenderer.encode format = (EncodeOptions.formatOf format).map b.options := by
  unfold Arguments.encode
  cases EncodeOptions.formatOf format with
  | ok format => rfl
  | error e => rfl

/-- Without options that ask for it, nothing is encoded in another way. -/
theorem options_plain (bitrate : b.bitrate.isNull = true) (fast : b.fast = false)
    (format : String) : b.options format = { outputFormat := format } := by
  have none : b.bitrate = .null := by
    cases given : b.bitrate with
    | null => rfl
    | _ => rw [given] at bitrate; cases bitrate
  rw [DashboardArguments.options, none, fast]
  rfl

/-- The dashboard of some arguments that keeps no journal. -/
def DashboardArguments.dashboard (b : DashboardArguments) (settings : Settings)
    (encode : Option EncodeOptions) : Dashboard where
  file := b.project
  outputOverride := b.output
  dryRun := b.dryRun
  settings := settings
  encode := encode

section

variable [Environment]

theorem loadSettings_forRenderer (b : DashboardArguments) :
    b.forRenderer.loadSettings = Settings.load b.settings [("root_path", b.root)] := by
  have same (values : List (String × Value)) :
      Settings.override values
        [("root_path", b.root), ("cache_dir", .null), ("probe_workers", .null)] =
      Settings.override values [("root_path", b.root)] := by
    have root : ∃ moved, ∀ rest,
        Settings.override values (("root_path", b.root) :: rest) = Settings.override moved rest :=
      ⟨_, fun rest => by rw [Settings.override, if_pos (by decide)]⟩
    obtain ⟨moved, root⟩ := root
    rw [root, root, Settings.override_null (by decide), Settings.override_null (by decide)]
  unfold Arguments.loadSettings Settings.load
  simp only [DashboardArguments.forRenderer, same]
  rfl

theorem renderProject_error {e : Error}
    (h : ((Project.load b.project settings none).on host).1 = .error e) :
    ((renderProject b.forRenderer settings b.project).on host).2 = host := by
  have ends : (Project.load b.project settings none).on host = (.error e, host) := by
    rw [(Project.load_reads _ _ _).on_eq host, h]
  rw [renderProject, on_bind, ends]

theorem renderProject_ok
    (h : ((Project.load b.project settings none).on host).1 = .ok loaded) :
    ((renderProject b.forRenderer settings b.project).on host).2 =
      ((Project.run none).on (b.projectOf loaded) host).2.2 := by
  have ends : (Project.load b.project settings none).on host = (.ok loaded, host) := by
    rw [(Project.load_reads _ _ _).on_eq host, h]
  obtain ⟨named, -, kept, -⟩ := Project.load_none h
  have encoded : b.forRenderer.encode loaded.timeline.outputFormat =
      .ok (b.options loaded.encode.outputFormat) := by
    rw [encode_forRenderer, named]
    rfl
  have arrived : { loaded with
      outputOverride := b.output, dryRun := b.dryRun, keepTemp := false
      encode := b.options loaded.encode.outputFormat } = b.projectOf loaded := by
    rw [← kept]
    rfl
  have steps : renderProject b.forRenderer settings b.project = (do
      let loaded ← Project.load b.project settings none
      let encode ← Run.ofExcept (b.forRenderer.encode loaded.timeline.outputFormat)
      let _ ← (Project.run none).runOn { loaded with
        outputOverride := b.output, dryRun := b.dryRun, keepTemp := false, encode }) := rfl
  rw [steps, on_bind, ends]
  dsimp only
  rw [encoded, on_bind, on_ofExcept]
  dsimp only
  rw [arrived, on_bind, Work.runOn_on]
  rcases (Project.run none).on (b.projectOf loaded) host with ⟨outcome, after⟩
  cases outcome with
  | ok _ => rfl
  | error _ => rfl

theorem encode_ok (h : ((Project.load b.project settings none).on host).1 = .ok loaded) :
    (b.encode settings).on host = (.ok (if !b.bitrate.isNull || b.fast then
      some (b.options loaded.encode.outputFormat) else none), host) := by
  have ends : (Project.load b.project settings none).on host = (.ok loaded, host) := by
    rw [(Project.load_reads _ _ _).on_eq host, h]
  obtain ⟨named, -⟩ := Project.load_none h
  unfold DashboardArguments.encode
  split
  · rw [on_bind, ends]
    dsimp only
    rw [on_bind, on_ofExcept, named]
    rfl
  · rfl

/-- The project is not there for the options either, if they are looked for. -/
theorem encode_error {e : Error}
    (h : ((Project.load b.project settings none).on host).1 = .error e) :
    (b.encode settings).on host = (.error e, host) ∨
      (b.encode settings).on host = (.ok none, host) := by
  have ends : (Project.load b.project settings none).on host = (.error e, host) := by
    rw [(Project.load_reads _ _ _).on_eq host, h]
  unfold DashboardArguments.encode
  split
  · exact .inl (by rw [on_bind, ends])
  · exact .inr rfl

theorem openProject_error {e : Error} {encode : Option EncodeOptions}
    (h : ((Project.load b.project settings encode).on host).1 = .error e) :
    ((Dashboard.openProject (b.dashboard settings encode)).on host).1 = .error e := by
  have ends : (Project.load b.project settings encode).on host = (.error e, host) := by
    rw [(Project.load_reads _ _ _).on_eq host, h]
  rw [Dashboard.openProject, on_bind]
  dsimp only [DashboardArguments.dashboard]
  rw [ends]

theorem openProject_dashboard (host : Host)
    (h : ((Project.load b.project settings none).on host).1 = .ok loaded) :
    ((Dashboard.openProject (b.dashboard settings (if !b.bitrate.isNull || b.fast then
      some (b.options loaded.encode.outputFormat) else none))).on host).1 =
        .ok (b.projectOf loaded) := by
  obtain ⟨-, plain, -, given⟩ := Project.load_none h
  have read (encode : Option EncodeOptions) {p : Project}
      (h : ((Project.load b.project settings encode).on host).1 = .ok p) :
      ((Dashboard.openProject (b.dashboard settings encode)).on host).1 =
        .ok { p with outputOverride := b.output, dryRun := b.dryRun } := by
    have ends : (Project.load b.project settings encode).on host = (.ok p, host) := by
      rw [(Project.load_reads _ _ _).on_eq host, h]
    rw [Dashboard.openProject, on_bind]
    dsimp only [DashboardArguments.dashboard]
    rw [ends]
    rfl
  cases asked : !b.bitrate.isNull || b.fast with
  | true =>
      rw [if_pos rfl]
      exact read _ (given _)
  | false =>
      rw [Bool.or_eq_false_iff, Bool.not_eq_false'] at asked
      rw [if_neg (by simp)]
      rw [read _ h, DashboardArguments.projectOf, options_plain asked.1 asked.2, ← plain]

/-- Opens the dashboard that the words ask for, and renders its project. The calls on the dashboard
get through. -/
def runDashboard (directory trace : String) (words : List String) : Run Unit := do
  (Dashboard.perform trace).runOn { dashboard := ← openDashboard directory words }

theorem runDashboard_eq {words : List String} (read : DashboardArguments.read words = .ok b)
    (plain : b.debug = false) (directory trace : String) :
    runDashboard directory trace words = (do
      let settings ← Settings.load b.settings [("root_path", b.root)]
      let encode ← b.encode settings
      (Dashboard.perform trace).runOn { dashboard := b.dashboard settings encode }) := by
  unfold runDashboard openDashboard
  simp only [read, plain, bind_assoc, pure_bind]
  rfl

/-- Once the settings are read, both render the project, or neither does. -/
theorem renderProject_agrees (b : DashboardArguments) (settings : Settings) (trace : String)
    (idle : host.Idle) :
    ((renderProject b.forRenderer settings b.project).on { host with quiet := false }).2.Agrees
      ((do
        let encode ← b.encode settings
        (Dashboard.perform trace).runOn { dashboard := b.dashboard settings encode } :
          Run Unit).on host).2 := by
  have reads := Project.load_reads b.project settings none
  have loud := reads.outcome_eq host { host with quiet := false } rfl
  have silent := reads.outcome_eq host { host with quiet := true } rfl
  cases loads : ((Project.load b.project settings none).on host).1 with
  | error e =>
      rw [renderProject_error (loud ▸ loads)]
      rcases encode_error loads with stops | asks
      · rw [on_bind, stops]
        exact ⟨rfl, rfl⟩
      · rw [on_bind, asks]
        obtain ⟨stopped, told, middle, course, same⟩ :=
          Dashboard.perform_course { dashboard := b.dashboard settings none } trace host
        obtain rfl := course.unopened (openProject_error (silent ▸ loads))
        exact same
  | ok loaded =>
      rw [renderProject_ok (loud ▸ loads), on_bind, encode_ok loads]
      dsimp only
      let s : Display := { dashboard := b.dashboard settings (if !b.bitrate.isNull || b.fast then
        some (b.options loaded.encode.outputFormat) else none) }
      obtain ⟨stopped, told, middle, course, same⟩ := Dashboard.perform_course s trace host
      have opens := openProject_dashboard { host with quiet := true } (silent ▸ loads)
      have begun : ({ host with quiet := false } : Host).Idle :=
        ⟨idle.listener, idle.total, idle.index⟩
      have still : s.Quiet := ⟨fun _ => rfl, rfl, rfl⟩
      have agrees := course.agrees still opens begun ⟨rfl, rfl, rfl, rfl, rfl⟩ rfl idle.listener
      exact ⟨agrees.1.trans same.1, agrees.2.trans same.2⟩

/-- Words that ask for the same project, output, folders, settings, bitrate and speed, and for a
rehearsal or not, do the same in the renderer and in a dashboard without a journal. -/
theorem renders_agree {words dashboardWords : List String}
    (read : Arguments.read words = .ok (.project b.project, b.forRenderer))
    (read' : DashboardArguments.read dashboardWords = .ok b) (plain : b.debug = false)
    (directory trace : String) (idle : host.Idle) :
    ((run words).on host).2.Agrees ((runDashboard directory trace dashboardWords).on host).2 := by
  obtain ⟨files, spawned⟩ := run_files read host
  rw [Host.Agrees, files, spawned, runDashboard_eq read' plain]
  have settles : (render (.project b.project) b.forRenderer) =
      Settings.load b.settings [("root_path", b.root)] >>= fun settings =>
        renderProject b.forRenderer settings b.project := by
    rw [← loadSettings_forRenderer]
    rfl
  have reads := Settings.load_reads b.settings [("root_path", b.root)]
  have same := reads.outcome_eq host { host with quiet := b.forRenderer.quiet } rfl
  rw [settles, on_bind, on_bind, reads.on_eq host, reads.on_eq, ← same]
  cases ((Settings.load b.settings [("root_path", b.root)]).on host).1 with
  | error e => exact ⟨rfl, rfl⟩
  | ok settings => exact renderProject_agrees b settings trace idle

/-- Words that the renderer and the dashboard both read do the same in both: whatever the files, the
answers about media and the ends of commands are like, the same programs are started in the same
order and the same files are left. And every choice of the options that both have can be put into
such words. -/
theorem front_ends_agree (directory trace : String) (host : Host) (idle : host.Idle) :
    (∀ (words : List String) (input : Input) (a : Arguments) (b : DashboardArguments),
      Arguments.read words = .ok (input, a) → DashboardArguments.read words = .ok b →
      ((run words).on host).2.files = ((runDashboard directory trace words).on host).2.files ∧
      ((run words).on host).2.spawned =
        ((runDashboard directory trace words).on host).2.spawned) ∧
    ∀ r : Request,
      Arguments.read r.words = .ok (.project r.arguments.project, r.arguments.forRenderer) ∧
      DashboardArguments.read r.words = .ok r.arguments := by
  refine ⟨fun words input a b read read' => ?_, Request.read_words⟩
  obtain ⟨rfl, rfl, plain⟩ := read_alike read read'
  exact renders_agree read read' plain directory trace idle

end

section Plain

attribute [local instance] Environment.plain

def fastTwice : List String :=
  ["-y", "trip.yml", "-o", "out/trip.mp4", "--two-pass", "2M", "--fast"]

theorem front_ends_agree_trip :
    ((run fastTwice).on foundClip).2.files =
        ((runDashboard "." "TRACE" fastTwice).on foundClip).2.files ∧
      ((run fastTwice).on foundClip).2.spawned =
        ((runDashboard "." "TRACE" fastTwice).on foundClip).2.spawned ∧
      ((run fastTwice).on foundClip).2.spawned.length = 4 := by
  let b : DashboardArguments :=
    { project := "trip.yml", output := "out/trip.mp4", bitrate := "2M", fast := true }
  have read : Arguments.read fastTwice = .ok (.project b.project, b.forRenderer) := by
    decide +kernel
  have read' : DashboardArguments.read fastTwice = .ok b := by decide +kernel
  obtain ⟨agree, -⟩ := front_ends_agree "." "TRACE" foundClip ⟨rfl, rfl, rfl⟩
  obtain ⟨files, spawned⟩ := agree fastTwice _ _ b read read'
  exact ⟨files, spawned, by decide +kernel⟩

end Plain

end CommandLine

end Reel
