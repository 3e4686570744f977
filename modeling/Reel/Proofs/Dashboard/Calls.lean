import Reel.Dashboard.Live
import Reel.Proofs.Project.Plan
import Reel.Proofs.Value.Reading

/-!
# The calls that a render makes on the dashboard

A render calls the dashboard when the commands are known, when a command starts or ends, when an
error stops it and when it is finished. Any of these calls can fail. Which calls are made hangs on
how far the render came, and there is one course of events for each place where it can stop.
-/
namespace Reel

namespace Reaction

variable {α β : Type} {fit : Dashboard → Prop} {reaction : Reaction α} {next : α → Reaction β}

theorem on_bind (reaction : Reaction α) (next : α → Reaction β) (d : Dashboard) :
    (reaction >>= next).on d = match reaction.on d with
      | (.ok x, d) => (next x).on d
      | (.error e, d) => (.error e, d) := by
  unfold on ExceptT.run StateT.run Id.run
  simp only [bind, ExceptT.bind, ExceptT.mk, StateT.bind]
  rcases reaction d with ⟨outcome, d⟩
  cases outcome <;> rfl

/-- On a dashboard that is fit nothing stops the reaction, and it leaves the dashboard fit. -/
def Completes (fit : Dashboard → Prop) (reaction : Reaction α) : Prop :=
  ∀ d, fit d → ∃ x left, reaction.on d = (.ok x, left) ∧ fit left

namespace Completes

theorem pure (x : α) : Completes fit (Pure.pure x : Reaction α) := fun d h => ⟨x, d, rfl, h⟩

theorem textOf {v : Value} (legible : v.isLegible = true) :
    Completes fit (Dashboard.textOf v) := by
  have written : v.toText = .ok v.shown := if_pos legible
  rw [Dashboard.textOf, written]
  exact .pure v.shown

theorem bind (first : Completes fit reaction) (rest : ∀ x, Completes fit (next x)) :
    Completes fit (reaction >>= next) := by
  intro d h
  obtain ⟨x, middle, ends, h⟩ := first d h
  rw [on_bind, ends]
  exact rest x middle h

/-- What follows a look at the dashboard can rely on its being fit. -/
theorem bind_get {next : Dashboard → Reaction β}
    (rest : ∀ d, fit d → Completes fit (next d)) :
    Completes fit ((get : Reaction Dashboard) >>= next) := by
  intro d h
  rw [on_bind]
  exact rest d h d h

end Completes

end Reaction

namespace Display

variable {s : Display}

/-- The calls that were made, the earliest first. -/
def made (s : Display) : List Call := s.calls.reverse

theorem call_made (s : Display) (c : Call) (now : Double) :
    (s.call c now).2.made = s.made ++ [c] := List.reverse_cons

theorem told_made (s : Display) (reports : List Report) :
    (s.told reports).made = s.made ++ reports.reverse.map .command := by
  induction reports with
  | nil => simp [told]
  | cons r earlier ih => rw [told, call_made, ih]; simp

end Display

namespace Live

variable {α β : Type} {live : Live α} {next : α → Live β} {s s' : Display} {host host' : Host}

theorem on_bind (live : Live α) (next : α → Live β) (s : Display) (host : Host) :
    (live >>= next).on s host = match live.on s host with
      | (.ok x, s, host) => (next x).on s host
      | (.error e, s, host) => (.error e, s, host) := by
  unfold on ExceptT.run StateT.run Id.run
  simp only [bind, ExceptT.bind, ExceptT.mk, StateT.bind]
  rcases live s host with ⟨⟨outcome, s⟩, host⟩
  cases outcome <;> rfl

theorem on_tryCatch (live : Live α) (handler : Error → Live α) (s : Display) (host : Host) :
    (tryCatch live handler).on s host = match live.on s host with
      | (.ok x, s, host) => (.ok x, s, host)
      | (.error e, s, host) => (handler e).on s host := by
  unfold on ExceptT.run StateT.run Id.run
  simp only [tryCatch, tryCatchThe, MonadExceptOf.tryCatch, ExceptT.tryCatch, ExceptT.mk, bind,
    StateT.bind]
  rcases live s host with ⟨⟨outcome, s⟩, host⟩
  cases outcome <;> rfl

@[simp] theorem on_get (s : Display) (host : Host) :
    (get : Live Display).on s host = (.ok s, s, host) := rfl

@[simp] theorem on_set (left s : Display) (host : Host) :
    (set left : Live Unit).on s host = (.ok (), left, host) := rfl

@[simp] theorem on_ofRun (run : Run α) (s : Display) (host : Host) :
    (ofRun run).on s host = ((run.on host).1, s, (run.on host).2) := rfl

@[simp] theorem on_ofExcept (r : Except Error α) (s : Display) (host : Host) :
    (ofExcept r).on s host = (r, s, host) := by cases r <;> rfl

@[simp] theorem on_call (c : Call) (s : Display) (host : Host) :
    (call c).on s host = ((s.call c host.clock).1, (s.call c host.clock).2, host) := rfl

@[simp] theorem on_update (f : Dashboard → Dashboard) (s : Display) (host : Host) :
    (update f).on s host = (.ok (), { s with dashboard := f s.dashboard }, host) := rfl

@[simp] theorem on_attempt (live : Live α) (s : Display) (host : Host) :
    (attempt live).on s host = (.ok (live.on s host).1, (live.on s host).2) := rfl

theorem on_bind_ok (x : α) (s' : Display) (host' : Host) (h : live.on s host = (.ok x, s', host')) :
    (live >>= next).on s host = (next x).on s' host' := by
  rw [on_bind, h]

theorem on_bind_error {e : Error} (h : live.on s host = (.error e, s', host')) :
    (live >>= next).on s host = (.error e, s', host') := by
  rw [on_bind, h]

end Live

namespace Dashboard

/-- The dashboard once the commands of its project are known. -/
def planned (d : Dashboard) (p : Project) (output : Value) (c : Compilation) : Dashboard :=
  { keepEncode (p.compiledTo c)
      { d with outputFile := output, commandTotal := .int p.commandTotal } with
    segmentCount := .int c.resolved.segments.length
    composedDuration := .real c.graph.duration }

/-- The dashboard has neither panels nor a journal that could fail. -/
structure Bare (d : Dashboard) : Prop where
  unattached : d.attached = false
  unwritten : d.journalPath = none

theorem planReady_completes {commands : Nat} (short : commands ≤ 2 ^ 41) (now : Double) :
    Reaction.Completes Bare (planReady (.int commands) now) := by
  have legible : (Value.int commands).isLegible = true := isLegible_small (by simpa using short)
  have noted (line : String) : Reaction.Completes Bare (note line) := by
    refine .bind_get fun d bare => ?_
    rw [if_neg (by simp [bare.unwritten])]
    exact .pure ()
  have updates : Reaction.Completes Bare (do
      updateMetrics now
      updateInfo) := by
    refine Reaction.Completes.bind (.bind_get fun d bare => ?_) fun _ => .bind_get fun d bare => ?_
    · rw [if_neg (by simp [bare.unattached])]
      exact .pure ()
    · rw [if_neg (by simp [bare.unattached])]
      exact .pure ()
  refine .bind_get fun d bare => ?_
  rw [if_neg (by simp [bare.unattached])]
  exact (Reaction.Completes.textOf legible).bind fun _ => (noted _).bind fun _ => updates

theorem hear_completes (n : Notice) (now : Double) : Reaction.Completes Bare (hear n now) := by
  refine .bind_get fun d bare => ?_
  rw [if_neg (by simp [bare.unattached])]
  exact .pure ()

section

variable [Environment]

/-- The project of the dashboard, and where its output goes. -/
def loading (d : Dashboard) : Run (Project × Value) := do
  let project ← openProject d
  return (project, ← Run.ofExcept project.outputPath)

/-- How a render can go: the project cannot be loaded, or not be compiled, the call with the number
of its commands fails, or these are run. It ends with what stopped it, after some calls, on a
machine. -/
inductive Course (s : Display) (host : Host) : Except Error Unit → List Call → Host → Prop
  | unloaded {e : Error} {after : Host} : (loading s.dashboard).on host = (.error e, after) →
      Course s host (.error e) [] after
  | uncompiled {p : Project} {output : Value} {e : Error} {loaded after : Host} :
      (loading s.dashboard).on host = (.ok (p, output), loaded) →
      p.compilation.on { loaded with total := .int p.commandTotal, index := 0 } =
        (.error e, after) →
      Course s host (.error e) [] after
  | unshown {p : Project} {output : Value} {c : Compilation} {e : Error} {shown : Display}
      {loaded after : Host} :
      (loading s.dashboard).on host = (.ok (p, output), loaded) →
      p.compilation.on { loaded with total := .int p.commandTotal, index := 0 } =
        (.ok c, after) →
      { s with dashboard := s.dashboard.planned p output c }.call
        (.planReady (.int c.invocations.length)) after.clock = (.error e, shown) →
      Course s host (.error e) [.planReady (.int c.invocations.length)] after
  | ran {p : Project} {output : Value} {c : Compilation} {shown : Display}
      {outcome : Except Error (Option PipelineResult)} {loaded compiled after : Host} :
      (loading s.dashboard).on host = (.ok (p, output), loaded) →
      p.compilation.on { loaded with total := .int p.commandTotal, index := 0 } =
        (.ok c, compiled) →
      { s with dashboard := s.dashboard.planned p output c }.call
        (.planReady (.int c.invocations.length)) compiled.clock = (.ok (), shown) →
      ((Project.run (some c.invocations)).runOn (p.compiledTo c)).on
        { compiled with reports := [], listener := some shown.listener } = (outcome, after) →
      Course s host (outcome.map fun _ => ())
        (.planReady (.int c.invocations.length) :: after.reports.reverse.map .command)
        { after with reports := after.reports ++ compiled.reports, listener := none }

end

variable {s : Display} {host : Host}

/-- The reports of a computation are calls in the order in which they were sent. -/
theorem following_on {α : Type} {run : Run α} {outcome : Except Error α} {after : Host}
    (ends : run.on { host with reports := [], listener := some s.listener } = (outcome, after)) :
    (following run).on s host = (outcome, s.told after.reports,
      { after with reports := after.reports ++ host.reports, listener := none }) := by
  have begun : (do
      modify fun host => { host with reports := [] }
      Run.setListener (some s.listener) : Run Unit).on host =
        (.ok (), { host with reports := [], listener := some s.listener }) := rfl
  have left (earlier : List Report) : (do
      modify fun host => { host with reports := after.reports ++ earlier }
      Run.setListener none : Run Unit).on after =
        (.ok (), { after with reports := after.reports ++ earlier, listener := none }) := rfl
  unfold following
  simp only [Live.on_bind, Live.on_get, Live.on_ofRun, Run.on_get, begun, Live.on_attempt, ends,
    left, Live.on_set, Live.on_ofExcept]

theorem withProject_on {α : Type} (work : Work α) (p : Project) (host : Host) :
    (withProject work p).on host =
      (.ok ((work.on p host).1, (work.on p host).2.1), (work.on p host).2.2) := rfl

variable [Environment]

theorem proceed_course {p : Project} {output : Value} {loaded : Host}
    (loads : (loading s.dashboard).on host = (.ok (p, output), loaded)) :
    ∃ outcome calls left after, (proceed p output).on s loaded = (outcome, left, after) ∧
      left.made = s.made ++ calls ∧ Course s host outcome calls after := by
  let announced : Host := { loaded with total := .int p.commandTotal, index := 0 }
  let noted : Dashboard :=
    { s.dashboard with outputFile := output, commandTotal := .int p.commandTotal }
  have compiling (q : Project) (r : Except Error (List Invocation)) (after : Host)
      (h : Project.compile.on p announced = (r, q, after)) :
      (Live.ofRun (withProject Project.compile p)).on { s with dashboard := noted } announced =
        (.ok (r, q), { s with dashboard := noted }, after) := by
    rw [Live.on_ofRun, withProject_on, h]
  rw [proceed]
  dsimp only
  rw [Live.on_bind_ok () { s with dashboard := noted } loaded rfl,
    Live.on_bind_ok () { s with dashboard := noted } announced rfl]
  rcases compiled : p.compilation.on announced with ⟨ending, after⟩
  cases ending with
  | error e =>
      obtain ⟨q, -, stopped⟩ := Project.compile_on_error compiled
      rw [Live.on_bind_ok _ _ _ (compiling _ _ _ stopped),
        Live.on_bind_ok _ _ _ (Live.on_update _ _ _),
        Live.on_bind_error (Live.on_ofExcept _ _ _)]
      exact ⟨_, _, _, _, rfl, (List.append_nil _).symm, .uncompiled loads compiled⟩
  | ok c =>
      rw [Live.on_bind_ok _ _ _ (compiling _ _ _ (Project.compile_on_ok compiled)),
        Live.on_bind_ok _ _ _ (Live.on_update _ _ _)]
      dsimp only
      rw [Live.on_bind_ok _ _ _ (Live.on_ofExcept _ _ _),
        Live.on_bind_ok () { s with dashboard := s.dashboard.planned p output c } after rfl]
      rcases planned : { s with dashboard := s.dashboard.planned p output c }.call
        (.planReady (.int c.invocations.length)) after.clock with ⟨shows, shown⟩
      have called : (Live.call (.planReady (.int c.invocations.length))).on
          { s with dashboard := s.dashboard.planned p output c } after = (shows, shown, after) := by
        rw [Live.on_call, planned]
      have made : shown.made = s.made ++ [.planReady (.int c.invocations.length)] := by
        have made := Display.call_made { s with dashboard := s.dashboard.planned p output c }
          (.planReady (.int c.invocations.length)) after.clock
        rwa [planned] at made
      cases shows with
      | error e =>
          rw [Live.on_bind_error called]
          exact ⟨_, _, _, _, rfl, made, .unshown loads compiled planned⟩
      | ok _ =>
          rcases ran : ((Project.run (some c.invocations)).runOn (p.compiledTo c)).on
            { after with reports := [], listener := some shown.listener } with ⟨outcome, last⟩
          rw [Live.on_bind_ok _ _ _ called, Live.on_bind, following_on ran]
          refine ⟨_, _, shown.told last.reports, _, ?_, ?_, .ran loads compiled planned ran⟩
          · cases outcome with
            | ok _ => rfl
            | error _ => rfl
          · rw [Display.told_made, made, List.append_assoc]
            rfl

theorem renderProject_course (s : Display) (host : Host) : ∃ outcome calls left after,
    renderProject.on s host = (outcome, left, after) ∧ left.made = s.made ++ calls ∧
      Course s host outcome calls after := by
  unfold renderProject
  rw [Live.on_bind_ok _ _ _ (Live.on_get s host)]
  rcases opened : (openProject s.dashboard).on host with ⟨opening, loaded⟩
  have opens : (Live.ofRun (openProject s.dashboard)).on s host = (opening, s, loaded) := by
    rw [Live.on_ofRun, opened]
  cases opening with
  | error e =>
      have unloaded : (loading s.dashboard).on host = (.error e, loaded) := by
        rw [loading, Run.on_bind, opened]
      rw [Live.on_bind_error opens]
      exact ⟨_, _, _, _, rfl, (List.append_nil _).symm, .unloaded unloaded⟩
  | ok p =>
      have loads : (loading s.dashboard).on host =
          (p.outputPath.map fun output => (p, output), loaded) := by
        rw [loading, Run.on_bind, opened]
        dsimp only
        rw [Run.on_bind, Run.on_ofExcept]
        cases p.outputPath <;> rfl
      rw [Live.on_bind_ok _ _ _ opens]
      cases path : p.outputPath with
      | error e =>
          rw [path] at loads
          rw [Live.on_bind_error (Live.on_ofExcept _ _ _)]
          exact ⟨_, _, _, _, rfl, (List.append_nil _).symm, .unloaded loads⟩
      | ok output =>
          rw [path] at loads
          rw [Live.on_bind_ok _ _ _ (Live.on_ofExcept _ _ _)]
          exact proceed_course loads

/-- What is told of an error that stopped a render. -/
def failure (trace : String) : Except Error Unit → List Call
  | .ok _ => []
  | .error e => [.setError (.text e.message) (.text trace)]

/-- However a render goes, what stopped it is told, and the machine is free when the end is. -/
theorem perform_on (trace : String) (s : Display) (host : Host) :
    ∃ ended body middle finished left,
      Course s { host with quiet := true } ended body middle ∧
      left.made = s.made ++ body ++ failure trace ended ++ [.finish] ∧
      (perform trace).on s host = (finished, left,
        { middle with total := .null, index := 0, listener := none, quiet := false }) := by
  obtain ⟨ended, body, left, middle, renders, made, course⟩ :=
    renderProject_course s { host with quiet := true }
  have caught : ∃ stopped told,
      (tryCatch renderProject fun e =>
        Live.call (.setError (.text e.message) (.text trace))).on s { host with quiet := true } =
          (stopped, told, middle) ∧ told.made = s.made ++ body ++ failure trace ended := by
    rw [Live.on_tryCatch, renders]
    cases ended with
    | ok _ => exact ⟨_, left, rfl, by rw [made, failure, List.append_nil]⟩
    | error e =>
        refine ⟨_, (left.call (.setError (.text e.message) (.text trace)) middle.clock).2, rfl, ?_⟩
        rw [Display.call_made, made, failure]
  obtain ⟨stopped, told, catches, made⟩ := caught
  have freed : (do
      Run.setTotal .null
      Run.setListener none
      Run.setQuiet false : Run Unit).on middle =
        (.ok (), { middle with total := .null, index := 0, listener := none, quiet := false }) :=
    rfl
  have last := Display.call_made told .finish middle.clock
  rw [made] at last
  unfold perform
  rw [Live.on_bind_ok () s { host with quiet := true } rfl]
  simp only [Live.on_bind, Live.on_attempt, catches, Live.on_ofRun, freed, Live.on_call]
  cases (told.call .finish middle.clock).1 with
  | error e => exact ⟨ended, body, middle, _, _, course, last, rfl⟩
  | ok _ => exact ⟨ended, body, middle, stopped, _, course, last, Live.on_ofExcept _ _ _⟩

end Dashboard

end Reel
