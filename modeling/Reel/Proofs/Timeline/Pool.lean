import Reel.Proofs.Graph.WellFormed
import Reel.Proofs.Timeline.Probing

/-!
# Probing in a pool of workers

A pool takes up jobs in any order, as many at a time as it has workers; each asks its question
once, at any moment, and hands its outcome in at any later one. The outcomes are collected by
place. Whatever the schedule, if answers hang on paths alone, every outcome is that of its own
job and the log of questions is the list of questions in some order. No schedule gets stuck, and
none goes on for ever.
-/
namespace Reel

open Resolve

inductive Stage where
  | waiting
  | taken
  | answered (outcome : Except Error (Answer Double))
  | finished (outcome : Except Error (Answer Double))

namespace Stage

def isBusy : Stage → Bool
  | taken | answered _ => true
  | waiting | finished _ => false

/-- What was answered, once the question is asked. -/
def outcome? : Stage → Option (Except Error (Answer Double))
  | answered outcome | finished outcome => some outcome
  | waiting | taken => none

def finished? : Stage → Option (Except Error (Answer Double))
  | finished outcome => some outcome
  | _ => none

def left : Stage → Nat
  | waiting => 3
  | taken => 2
  | answered _ => 1
  | finished _ => 0

end Stage

/-- A pool at work: the jobs by place, the machine, and the questions asked so far in order. -/
structure Pool where
  slots : List (Job × Stage)
  host : Host
  log : List Query := []

namespace Pool

def start (jobs : List Job) (host : Host) : Pool where
  slots := jobs.map fun job => (job, .waiting)
  host

def busy (slots : List (Job × Stage)) : Nat := slots.countP fun slot => slot.2.isBusy

/-- One step of the pool: a free worker takes a job up, a question is asked on the machine as it
is, or an outcome is handed in. -/
inductive Step (p : Prober) (limit : Double) (workers : Nat) : Pool → Pool → Prop
  | take {before after : List (Job × Stage)} {job : Job} {host : Host} {log : List Query} :
      busy (before ++ (job, .waiting) :: after) < workers →
      Step p limit workers ⟨before ++ (job, .waiting) :: after, host, log⟩
        ⟨before ++ (job, .taken) :: after, host, log⟩
  | ask {before after : List (Job × Stage)} {job : Job} {host next : Host} {log : List Query}
      {outcome : Except Error (Answer Double)} : (p.perform limit job).on host = (outcome, next) →
      Step p limit workers ⟨before ++ (job, .taken) :: after, host, log⟩
        ⟨before ++ (job, .answered outcome) :: after, next, log ++ [job.query]⟩
  | finish {before after : List (Job × Stage)} {job : Job} {host : Host} {log : List Query}
      {outcome : Except Error (Answer Double)} :
      Step p limit workers ⟨before ++ (job, .answered outcome) :: after, host, log⟩
        ⟨before ++ (job, .finished outcome) :: after, host, log⟩

/-- Any schedule of steps. -/
abbrev Reaches (p : Prober) (limit : Double) (workers : Nat) : Pool → Pool → Prop :=
  Relation.ReflTransGen (Step p limit workers)

/-- The outcomes by place, when all are handed in. -/
def outcomes? (pool : Pool) : Option (List (Except Error (Answer Double))) :=
  pool.slots.mapM fun slot => slot.2.finished?

def left (pool : Pool) : Nat := (pool.slots.map fun slot => slot.2.left).sum

variable {p : Prober} {steady : Host → Prop} {limit : Double} {workers : Nat} {f : Findings}
  {jobs : List Job} {host : Host} {pool next : Pool}

/-- The questions of the jobs that were asked, by place. -/
def askedQueries (slots : List (Job × Stage)) : List Query :=
  (slots.filter fun slot => slot.2.outcome?.isSome).map fun slot => slot.1.query

/-- The jobs keep their places; every outcome is the answer to its own job; the log lists the
questions asked, and the machine went through them and nothing else. -/
structure Kept (p : Prober) (steady : Host → Prop) (f : Findings) (jobs : List Job) (host : Host)
    (pool : Pool) : Prop where
  jobs : pool.slots.map Prod.fst = jobs
  outcomes : ∀ slot ∈ pool.slots, ∀ outcome ∈ slot.2.outcome?, outcome = .ok (f.answer slot.1)
  log : pool.log.Perm (askedQueries pool.slots)
  host : pool.host = p.asked pool.log host
  steady : steady pool.host

theorem Kept.start (f : Findings) (jobs : List Job) (hs : steady host) :
    Kept p steady f jobs host (Pool.start jobs host) where
  jobs := by simp [Pool.start, Function.comp_def]
  outcomes := by simp [Pool.start, Stage.outcome?]
  log := by simp [Pool.start, askedQueries, Stage.outcome?, List.filter_map, Function.comp_def]
  host := rfl
  steady := hs

theorem askedQueries_of_none (before after : List (Job × Stage)) (job : Job) {stage : Stage}
    (none : stage.outcome? = none) :
    askedQueries (before ++ (job, stage) :: after) = askedQueries before ++ askedQueries after := by
  simp [askedQueries, none]

theorem askedQueries_of_some (before after : List (Job × Stage)) (job : Job) {stage : Stage}
    {outcome : Except Error (Answer Double)} (some : stage.outcome? = some outcome) :
    askedQueries (before ++ (job, stage) :: after) =
      askedQueries before ++ job.query :: askedQueries after := by
  simp [askedQueries, some]

/-- Every step keeps this: only asking adds an outcome, that of the job itself. -/
theorem Kept.step (h : p.Finds steady limit f) (kept : Kept p steady f jobs host pool)
    (step : Step p limit workers pool next) : Kept p steady f jobs host next := by
  obtain ⟨places, outcomes, logged, machine, stays⟩ := kept
  cases step with
  | @take before after job now log free =>
      simp only [List.forall_mem_append, List.forall_mem_cons] at outcomes
      obtain ⟨first, -, last⟩ := outcomes
      refine ⟨by simpa using places, ?_, ?_, machine, stays⟩
      · simp only [List.forall_mem_append, List.forall_mem_cons]
        exact ⟨first, by simp [Stage.outcome?], last⟩
      · rw [askedQueries_of_none _ _ _ rfl] at logged ⊢
        exact logged
  | @ask before after job now next log outcome asks =>
      obtain ⟨gives, stays⟩ := Prober.perform_on h job now stays
      rw [gives] at asks
      obtain ⟨rfl, rfl⟩ := Prod.mk.inj asks
      simp only [List.forall_mem_append, List.forall_mem_cons] at outcomes
      obtain ⟨first, -, last⟩ := outcomes
      refine ⟨by simpa using places, ?_, ?_, ?_, stays⟩
      · simp only [List.forall_mem_append, List.forall_mem_cons]
        exact ⟨first, by simp [Stage.outcome?], last⟩
      · rw [askedQueries_of_none _ _ _ rfl] at logged
        rw [askedQueries_of_some _ _ _ rfl]
        have added := logged.append_right [job.query]
        rw [List.append_assoc] at added
        exact added.trans (List.perm_append_comm.append_left _)
      · have once : p.asked (log ++ [job.query]) host =
            ((p.ask job.query).on (p.asked log host)).2 := by
          rw [Prober.asked, List.foldl_append]
          rfl
        rw [once]
        exact congrArg (fun machine => ((p.ask job.query).on machine).2) machine
  | @finish before after job now log outcome =>
      simp only [List.forall_mem_append, List.forall_mem_cons] at outcomes
      obtain ⟨first, own, last⟩ := outcomes
      refine ⟨by simpa using places, ?_, ?_, machine, stays⟩
      · simp only [List.forall_mem_append, List.forall_mem_cons]
        exact ⟨first, own, last⟩
      · rw [askedQueries_of_some _ _ _ rfl] at logged ⊢
        exact logged

theorem Kept.reaches (h : p.Finds steady limit f) (kept : Kept p steady f jobs host pool)
    (run : Reaches p limit workers pool next) : Kept p steady f jobs host next := by
  induction run with
  | refl => exact kept
  | tail _ step ih => exact ih.step h step

/-- When all outcomes are handed in, each is the answer to its own job, and every question was
asked. -/
theorem all_finished {slots : List (Job × Stage)} {outcomes : List (Except Error (Answer Double))}
    (done : slots.mapM (fun slot => slot.2.finished?) = some outcomes)
    (own : ∀ slot ∈ slots, ∀ outcome ∈ slot.2.outcome?, outcome = .ok (f.answer slot.1)) :
    outcomes = (slots.map Prod.fst).map (fun job => .ok (f.answer job)) ∧
      askedQueries slots = (slots.map Prod.fst).map Job.query := by
  induction slots generalizing outcomes with
  | nil =>
      obtain rfl : [] = outcomes := Option.some.inj done
      exact ⟨rfl, rfl⟩
  | cons slot rest ih =>
      obtain ⟨job, stage⟩ := slot
      rw [List.forall_mem_cons] at own
      obtain ⟨first, others⟩ := own
      rw [List.mapM_cons] at done
      cases stage with
      | waiting => cases done
      | taken => cases done
      | answered outcome => cases done
      | finished outcome =>
          obtain ⟨given, this, done⟩ := Option.bind_eq_some_iff.1 done
          obtain rfl : outcome = given := Option.some.inj this
          obtain ⟨later, handed, done⟩ := Option.bind_eq_some_iff.1 done
          obtain rfl : outcome :: later = outcomes := Option.some.inj done
          obtain ⟨rfl, asked⟩ := ih handed others
          obtain rfl : outcome = .ok (f.answer job) := first outcome rfl
          refine ⟨rfl, ?_⟩
          have here : askedQueries ((job, .finished (.ok (f.answer job))) :: rest) =
              job.query :: askedQueries rest := askedQueries_of_some [] rest job rfl
          rw [here, asked]
          rfl

theorem left_step (step : Step p limit workers pool next) : pool.left = next.left + 1 := by
  cases step <;> simp [left, Stage.left] <;> omega

theorem exists_unfinished {slots : List (Job × Stage)}
    (unfinished : slots.mapM (fun slot => slot.2.finished?) = none) :
    ∃ slot ∈ slots, slot.2.finished? = none := by
  induction slots with
  | nil => cases unfinished
  | cons slot rest ih =>
      cases here : slot.2.finished? with
      | none => exact ⟨slot, List.mem_cons_self .., here⟩
      | some outcome =>
          rw [List.mapM_cons, here] at unfinished
          cases later : rest.mapM fun slot => slot.2.finished? with
          | none =>
              obtain ⟨slot, hs, open'⟩ := ih later
              exact ⟨slot, List.mem_cons_of_mem _ hs, open'⟩
          | some outcomes =>
              rw [later] at unfinished
              cases unfinished

/-- As long as an outcome is missing, some step can be taken: an outcome can be handed in, or a
question asked, or all workers are free and a job is waiting. -/
theorem exists_step (able : 0 < workers) (unfinished : pool.outcomes? = none) :
    ∃ next, Step p limit workers pool next := by
  obtain ⟨slots, host, log⟩ := pool
  by_cases answered : ∃ slot ∈ slots, ∃ outcome, slot.2 = .answered outcome
  · obtain ⟨⟨job, stage⟩, hs, outcome, rfl⟩ := answered
    obtain ⟨before, after, rfl⟩ := List.append_of_mem hs
    exact ⟨_, .finish⟩
  by_cases taken : ∃ slot ∈ slots, slot.2 = .taken
  · obtain ⟨⟨job, stage⟩, hs, rfl⟩ := taken
    obtain ⟨before, after, rfl⟩ := List.append_of_mem hs
    exact ⟨_, .ask rfl⟩
  have idle : busy slots = 0 := by
    rw [busy, List.countP_eq_zero]
    intro slot hs
    cases stage : slot.2 with
    | waiting => simp [Stage.isBusy]
    | taken => exact absurd ⟨slot, hs, stage⟩ taken
    | answered outcome => exact absurd ⟨slot, hs, outcome, stage⟩ answered
    | finished outcome => simp [Stage.isBusy]
  obtain ⟨⟨job, stage⟩, hs, missing⟩ := exists_unfinished unfinished
  cases stage with
  | waiting =>
      obtain ⟨before, after, rfl⟩ := List.append_of_mem hs
      exact ⟨_, .take (idle ▸ able)⟩
  | taken => exact absurd ⟨_, hs, rfl⟩ taken
  | answered outcome => exact absurd ⟨_, hs, outcome, rfl⟩ answered
  | finished outcome => cases missing

theorem exists_end (able : 0 < workers) (pool : Pool) :
    ∃ last outcomes, Reaches p limit workers pool last ∧ last.outcomes? = some outcomes := by
  induction steps : pool.left generalizing pool with
  | zero =>
      cases done : pool.outcomes? with
      | some outcomes => exact ⟨pool, outcomes, .refl, done⟩
      | none =>
          obtain ⟨next, step⟩ : ∃ next, Step p limit workers pool next := exists_step able done
          have fewer := left_step step
          omega
  | succ n ih =>
      cases done : pool.outcomes? with
      | some outcomes => exact ⟨pool, outcomes, .refl, done⟩
      | none =>
          obtain ⟨next, step⟩ : ∃ next, Step p limit workers pool next := exists_step able done
          have fewer := left_step step
          obtain ⟨last, outcomes, rest, done⟩ := ih next (by omega)
          exact ⟨last, outcomes, .head step rest, done⟩

end Pool

namespace Prober

/-- What a pool makes of a timeline, with the pool at its end: the outcomes are collected by
place, and the first error by place stops. A timeline that cannot be prepared starts no job. -/
inductive ResolvesInPool (p : Prober) (workers : Nat) (t : Timeline Double) (host : Host) :
    Pool → Except Error (Timeline Double) → Prop
  | unprepared {e : Error} : prepare t = .error e →
      ResolvesInPool p workers t host (Pool.start [] host) (.error e)
  | resolved {prepared : Timeline Double} {last : Pool}
      {outcomes : List (Except Error (Answer Double))} : prepare t = .ok prepared →
      Pool.Reaches p t.maxClip workers (Pool.start (jobs prepared) host) last →
      last.outcomes? = some outcomes →
      ResolvesInPool p workers t host last ((outcomes.mapM id).map (fill prepared))

variable {p : Prober} {steady : Host → Prop} {f : Findings} {workers : Nat}
  {t prepared : Timeline Double} {host : Host} {pool last : Pool}

theorem prepare_eq_error {e : Error} (stopped : prepare t = .error e) :
    t.audioSequence = .error e := by
  cases sequence : t.audioSequence with
  | error e' =>
      rw [prepare, sequence] at stopped
      exact congrArg Except.error (Except.error.inj stopped)
  | ok items =>
      rw [prepare_ok sequence] at stopped
      cases stopped

/-- The outcomes of the jobs of a timeline fill it in as found. -/
theorem fill_outcomes {outcomes : List (Except Error (Answer Double))}
    (hp : prepare t = .ok prepared)
    (given : outcomes = (jobs prepared).map fun job => .ok (f.answer job)) :
    (outcomes.mapM id).map (fill prepared) = f.resolve t ∧
      (jobs prepared).map Job.query = t.queries := by
  obtain ⟨items, sequence⟩ : ∃ items, t.audioSequence = .ok items := by
    cases sequence : t.audioSequence with
    | ok items => exact ⟨items, rfl⟩
    | error e =>
        rw [prepare, sequence] at hp
        cases hp
  obtain ⟨queries, filled⟩ := fill_answers f sequence hp
  refine ⟨?_, queries⟩
  have collected : outcomes.mapM id = .ok ((jobs prepared).map f.answer) := by
    rw [given, List.mapM_map]
    exact List.mapM_pure
  rw [collected, filled]
  rfl

/-- Whatever the schedule of a pool, the timeline is filled in as found, and each of its questions
is asked once. -/
theorem ResolvesInPool.eq {result : Except Error (Timeline Double)}
    (h : p.Finds steady t.maxClip f) (hs : steady host)
    (run : p.ResolvesInPool workers t host last result) :
    result = f.resolve t ∧ last.log.Perm t.queries ∧ last.host = p.asked last.log host := by
  cases run with
  | unprepared stopped =>
      have sequence := prepare_eq_error stopped
      rw [Findings.resolve, Timeline.queries, sequence]
      exact ⟨rfl, .nil, rfl⟩
  | resolved hp schedule done =>
      have kept := (Pool.Kept.start (p := p) f _ hs).reaches h schedule
      obtain ⟨given, asked⟩ := Pool.all_finished done kept.outcomes
      rw [kept.jobs] at given asked
      obtain ⟨filled, queries⟩ := fill_outcomes hp given
      refine ⟨filled, ?_, kept.host⟩
      have logged := kept.log
      rw [asked, queries] at logged
      exact logged

end Prober

/-- If the answers about media hang on paths alone, so does what a timeline is resolved into:
segments and items are filled in by place with what was found about their own media, whatever the
number of workers and whatever the order in which a pool takes jobs up, asks and hands in. Each
question of the timeline is asked once and no other is, and no order gets stuck. -/
theorem resolve_in_any_order {p : Prober} {steady : Host → Prop} (h : p.AnswersByPath steady)
    (t : Timeline Double) :
    ∃ f, p.Finds steady t.maxClip f ∧ ∀ host, steady host →
      (∀ workers, (p.resolve workers t).on host = (f.resolve t, p.asked t.queries host)) ∧
      ∀ workers,
        (∀ last result, p.ResolvesInPool workers t host last result →
          result = f.resolve t ∧ last.log.Perm t.queries ∧
            last.host = p.asked last.log host) ∧
        (0 < workers → ∀ prepared pool, prepare t = .ok prepared →
          Pool.Reaches p t.maxClip workers (Pool.start (jobs prepared) host) pool →
          ∃ last, Pool.Reaches p t.maxClip workers pool last ∧
            p.ResolvesInPool workers t host last (f.resolve t)) := by
  obtain ⟨f, finds⟩ := Prober.exists_finds h t.maxClip
  refine ⟨f, finds, fun host hs => ⟨fun workers => Prober.resolve_on finds workers hs, ?_⟩⟩
  intro workers
  refine ⟨fun last result run => run.eq finds hs, ?_⟩
  intro able prepared pool hp schedule
  obtain ⟨last, outcomes, rest, done⟩ : ∃ last outcomes,
      Pool.Reaches p t.maxClip workers pool last ∧ last.outcomes? = some outcomes :=
    Pool.exists_end able pool
  have run : p.ResolvesInPool workers t host last ((outcomes.mapM id).map (fill prepared)) :=
    .resolved hp (schedule.trans rest) done
  obtain ⟨same, -⟩ := run.eq finds hs
  exact ⟨last, rest, same ▸ run⟩

/-- What a probing program says about two clips, of which only the first has sound. -/
def clipProbes : List Value → ProbeScript :=
  Medium.probes [("walk.mp4", { duration := Text.encode "2.5", sound := Text.encode "audio" }),
    ("summit.mp4", { duration := Text.encode "7" })]

theorem clipProbes_startable (words : List Value) : (clipProbes words).fault ≠ some .refused :=
  Medium.probes_startable (by simp) words

theorem resolve_in_any_order_mixed :
    (∀ words, (clipProbes words).fault ≠ some .refused) ∧
    ∃ f : Findings, ∀ last result,
      (Prober.ofProgram "ffprobe").ResolvesInPool 3
        (Timeline.plain mixedSegments .crossfade true (Double.round 1))
        { probes := clipProbes } last result →
      result = f.resolve (Timeline.plain mixedSegments .crossfade true (Double.round 1)) ∧
        last.log.Perm [.duration "walk.mp4", .sound "walk.mp4", .duration "summit.mp4",
          .sound "summit.mp4"] := by
  obtain ⟨f, -, resolves⟩ := resolve_in_any_order
    (Prober.ofProgram_answersByPath "ffprobe" clipProbes_startable)
    (Timeline.plain mixedSegments .crossfade true (Double.round 1))
  refine ⟨clipProbes_startable, f, fun last result run => ?_⟩
  obtain ⟨-, anyOrder⟩ := resolves { probes := clipProbes } rfl
  obtain ⟨same, asked, -⟩ := (anyOrder 3).1 last result run
  exact ⟨same, asked⟩

end Reel
