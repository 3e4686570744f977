import Reel.Proofs.Host.Probe
import Reel.Proofs.Yields

/-!
# What a run does to the machine

Effects say which programs a run may start and whether it may change files. A run does no more
than some effects if this holds of the machine that it leaves, however it ends. Runs are followed
on machines to which nobody listens: a listener can stop the program for any reason.
-/
namespace Reel

/-- The programs that may be started, and whether files may change. -/
structure Effects where
  starts : Spawn → Prop
  writes : Prop

/-- The start of a program that asks about a medium. -/
inductive Spawn.Asks (program : Value) : Spawn → Prop
  | duration (path : Value) (closes : Bool) :
      Asks program (.arguments (durationQuery program path) closes)
  | sound (path : Value) (closes : Bool) :
      Asks program (.arguments (soundQuery program path) closes)

namespace Effects

def none : Effects where
  starts _ := False
  writes := False

def probes (program : Value) : Effects where
  starts := Spawn.Asks program
  writes := False

def any : Effects where
  starts _ := True
  writes := True

/-- The second effects allow all that the first allow. -/
structure Within (e wide : Effects) : Prop where
  starts : ∀ spawn, e.starts spawn → wide.starts spawn
  writes : e.writes → wide.writes

theorem Within.refl (e : Effects) : e.Within e := ⟨fun _ => id, id⟩

theorem within_any (e : Effects) : e.Within any := ⟨fun _ _ => trivial, fun _ => trivial⟩

theorem none_within (e : Effects) : none.Within e := ⟨fun _ => False.elim, False.elim⟩

end Effects

variable {e wide : Effects} {host middle after : Host}

structure Host.Touched (e : Effects) (host after : Host) : Prop where
  listener : after.listener = host.listener
  spawned : ∃ new, after.spawned = new ++ host.spawned ∧ ∀ spawn ∈ new, e.starts spawn
  files : ¬e.writes → after.files = host.files
  /-- What the programs answer and how they end is used up only where files may change. -/
  scripts : ¬e.writes → after.probes = host.probes ∧ after.commands = host.commands

namespace Host.Touched

theorem refl (e : Effects) (host : Host) : host.Touched e host :=
  ⟨rfl, ⟨[], rfl, by simp⟩, fun _ => rfl, fun _ => ⟨rfl, rfl⟩⟩

theorem trans (first : host.Touched e middle) (second : middle.Touched e after) :
    host.Touched e after := by
  obtain ⟨new, spawned, allowed⟩ := first.spawned
  obtain ⟨newer, spawned', allowed'⟩ := second.spawned
  refine ⟨second.listener.trans first.listener, ⟨newer ++ new, ?_, ?_⟩, fun kept => ?_,
    fun kept => ?_⟩
  · rw [spawned', spawned, List.append_assoc]
  · rw [List.forall_mem_append]
    exact ⟨allowed', allowed⟩
  · rw [second.files kept, first.files kept]
  · obtain ⟨probes, commands⟩ := first.scripts kept
    obtain ⟨probes', commands'⟩ := second.scripts kept
    exact ⟨probes'.trans probes, commands'.trans commands⟩

theorem mono (h : host.Touched e after) (within : e.Within wide) : host.Touched wide after := by
  obtain ⟨new, spawned, allowed⟩ := h.spawned
  exact ⟨h.listener, ⟨new, spawned, fun spawn hs => within.starts spawn (allowed spawn hs)⟩,
    fun kept => h.files fun writes => kept (within.writes writes),
    fun kept => h.scripts fun writes => kept (within.writes writes)⟩

/-- Without effects nothing is started and no file changes. -/
theorem untouched (h : host.Touched .none after) :
    after.files = host.files ∧ after.spawned = host.spawned := by
  obtain ⟨new, spawned, allowed⟩ := h.spawned
  cases new with
  | nil => exact ⟨h.files id, spawned⟩
  | cons spawn rest => exact (allowed spawn (List.mem_cons_self ..)).elim

end Host.Touched

namespace Run

variable {α β : Type} {stops more : Error → Prop} {run : Run α} {next : α → Run β}
  {post weaker mid : α → Prop} {goal : β → Prop}

/-- The run has no more than these effects, and yields the property within the stops. -/
def Does (e : Effects) (stops : Error → Prop) (run : Run α) (post : α → Prop) : Prop :=
  ∀ host, host.listener = .none →
    host.Touched e (run.on host).2 ∧ Yields stops (run.on host).1 post

namespace Does

theorem pure {x : α} (h : post x) : Does e stops (Pure.pure x) post :=
  fun host _ => ⟨.refl e host, .ok h⟩

theorem throw {cause : Error} (h : stops cause) : Does e stops (throw cause : Run α) post :=
  fun host _ => ⟨.refl e host, .error h⟩

theorem ofExcept {r : Except Error α} (h : Yields stops r post) :
    Does e stops (Run.ofExcept r) post := by
  cases h with
  | ok h => exact .pure h
  | error h => exact .throw h

theorem get : Does e stops (get : Run Host) fun host => host.listener = .none :=
  fun host silent => ⟨.refl e host, .ok silent⟩

theorem files : Does e stops Run.files fun _ => True :=
  fun host _ => ⟨.refl e host, .ok trivial⟩

theorem modify {f : Host → Host} (h : ∀ host : Host, host.Touched e (f host)) :
    Does e stops (modify f : Run Unit) fun _ => True :=
  fun host _ => ⟨h host, .ok trivial⟩

theorem bind (first : Does e stops run mid) (rest : ∀ x, mid x → Does e stops (next x) goal) :
    Does e stops (run >>= next) goal := by
  intro host silent
  obtain ⟨touched, yields⟩ := first host silent
  rw [on_bind]
  cases ends : run.on host with
  | mk outcome between =>
      rw [ends] at touched yields
      cases yields with
      | error h => exact ⟨touched, .error h⟩
      | ok h =>
          obtain ⟨further, yields⟩ := rest _ h between (touched.listener.trans silent)
          exact ⟨touched.trans further, yields⟩

theorem stopped {cause : Error} (h : stops cause) :
    Does e stops ((MonadExcept.throw cause : Run α) >>= next) goal :=
  Does.bind (.throw h) fun _ => False.elim

theorem mono (h : Does e stops run post) (imp : ∀ x, post x → weaker x) :
    Does e stops run weaker :=
  fun host silent => ⟨(h host silent).1, (h host silent).2.mono imp⟩

theorem widen (h : Does e stops run post) (within : e.Within wide)
    (imp : ∀ cause, stops cause → more cause) : Does wide more run post :=
  fun host silent => ⟨(h host silent).1.mono within, (h host silent).2.widen imp⟩

theorem unrejected (h : Does e Error.IsPlain run post) : Does e Error.Unrejected run post :=
  h.widen (.refl e) fun _ => Error.IsPlain.unrejected

theorem map {f : α → β} (h : Does e stops run fun x => goal (f x)) :
    Does e stops (ExceptT.map f run : Run β) goal := by
  intro host silent
  obtain ⟨touched, yields⟩ := h host silent
  rw [on_map]
  refine ⟨touched, ?_⟩
  cases outcome : (run.on host).1 with
  | ok x => exact .ok (yields.of_ok outcome)
  | error cause => exact .error (yields.of_error outcome)

theorem tryCatch {handler : Error → Run α} (h : Does e more run post)
    (handles : ∀ cause, more cause → Does e stops (handler cause) post) :
    Does e stops (MonadExcept.tryCatch run handler) post := by
  intro host silent
  obtain ⟨touched, yields⟩ := h host silent
  rw [on_tryCatch]
  cases ends : run.on host with
  | mk outcome between =>
      rw [ends] at touched yields
      cases yields with
      | ok h => exact ⟨touched, .ok h⟩
      | error h =>
          obtain ⟨further, yields⟩ := handles _ h between (touched.listener.trans silent)
          exact ⟨touched.trans further, yields⟩

theorem mapM {f : α → Run β} {xs : List α} (h : ∀ x ∈ xs, Does e stops (f x) goal) :
    Does e stops (xs.mapM f) fun ys => ∀ y ∈ ys, goal y := by
  induction xs with
  | nil => exact .pure (by simp)
  | cons x rest ih =>
      rw [List.forall_mem_cons] at h
      rw [List.mapM_cons]
      refine h.1.bind fun y hy => (ih h.2).bind fun ys hys => .pure ?_
      exact List.forall_mem_cons.mpr ⟨hy, hys⟩

theorem forM {f : α → Run PUnit} (h : ∀ x, Does e stops (f x) fun _ => True) (xs : List α) :
    Does e stops (xs.forM f) fun _ => True := by
  induction xs with
  | nil => exact .pure trivial
  | cons x rest ih =>
      have first : (x :: rest).forM f = f x >>= fun _ => rest.forM f := rfl
      rw [first]
      exact (h x).bind fun _ _ => ih

end Does

/-- The run has no more than these effects, and a rejection comes before any of them. -/
structure Careful (e : Effects) (run : Run α) (post : α → Prop) : Prop where
  does : Does e (fun _ => True) run post
  rejects : ∀ host, host.listener = .none → ∀ cause,
    (run.on host).1 = .error (.rejected cause) → host.Touched .none (run.on host).2

namespace Careful

/-- What comes after the effects began must not be a rejection. -/
theorem of_unrejected (h : Does e Error.Unrejected run post) : Careful e run post where
  does := h.widen (.refl e) fun _ _ => trivial
  rejects host silent _ rejected := ((h host silent).2.of_error rejected).elim

theorem bind_still (first : Does .none (fun _ => True) run mid)
    (rest : ∀ x, mid x → Careful e (next x) goal) : Careful e (run >>= next) goal where
  does := (first.widen e.none_within fun _ => id).bind fun x h => (rest x h).does
  rejects := by
    intro host silent cause
    obtain ⟨touched, yields⟩ := first host silent
    rw [on_bind]
    cases ends : run.on host with
    | mk outcome between =>
        rw [ends] at touched yields
        intro rejected
        cases yields with
        | error _ => exact touched
        | ok h =>
            exact touched.trans
              ((rest _ h).rejects between (touched.listener.trans silent) cause rejected)

theorem bind (first : Careful e run mid)
    (rest : ∀ x, mid x → Does e Error.Unrejected (next x) goal) :
    Careful e (run >>= next) goal where
  does := first.does.bind fun x h => (of_unrejected (rest x h)).does
  rejects := by
    intro host silent cause
    obtain ⟨touched, yields⟩ := first.does host silent
    have before := first.rejects host silent cause
    rw [on_bind]
    cases ends : run.on host with
    | mk outcome between =>
        rw [ends] at touched yields before
        intro rejected
        cases yields with
        | error _ => exact before (congrArg Except.error (Except.error.inj rejected))
        | ok h =>
            have later := (rest _ h between (touched.listener.trans silent)).2
            exact (later.of_error rejected).elim

theorem widen (h : Careful e run post) (within : e.Within wide) : Careful wide run post where
  does := h.does.widen within fun _ => id
  rejects := h.rejects

end Careful

end Run

end Reel
