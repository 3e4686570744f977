import Mathlib
import Reel.Host

/-!
# Runs that always give a result

A run gives a property if on every machine it ends with a result that has the property. Nothing
is said about the machine that it leaves.
-/
namespace Reel.Run

variable {α β : Type}

/-- On every machine the run ends with a result that has the property. -/
def Gives (run : Run α) (post : α → Prop) : Prop :=
  ∀ host, ∃ x after, run.on host = (.ok x, after) ∧ post x

@[simp] theorem on_get (host : Host) : (get : Run Host).on host = (.ok host, host) := rfl

@[simp] theorem on_set (next host : Host) : (set next : Run Unit).on host = (.ok (), next) := rfl

@[simp] theorem on_modify (f : Host → Host) (host : Host) :
    (modify f : Run Unit).on host = (.ok (), f host) := rfl

@[simp] theorem on_map (f : α → β) (run : Run α) (host : Host) :
    on (ExceptT.map f run) host = ((run.on host).1.map f, (run.on host).2) := by
  unfold on ExceptT.run StateT.run Id.run
  simp only [ExceptT.map, ExceptT.mk, bind, StateT.bind]
  cases run host with
  | mk outcome after => cases outcome <;> rfl

@[simp] theorem on_ofExcept (r : Except Error α) (host : Host) :
    (ofExcept r).on host = (r, host) := by
  cases r <;> rfl

@[simp] theorem on_files (host : Host) : files.on host = (.ok host.files, host) := rfl

theorem on_tryCatch (run : Run α) (handler : Error → Run α) (host : Host) :
    (tryCatch run handler).on host = match run.on host with
      | (.ok x, after) => (.ok x, after)
      | (.error e, after) => (handler e).on after := by
  unfold on ExceptT.run StateT.run Id.run
  simp only [tryCatch, tryCatchThe, MonadExceptOf.tryCatch, ExceptT.tryCatch, ExceptT.mk, bind,
    StateT.bind]
  cases run host with
  | mk outcome after => cases outcome <;> rfl

namespace Gives

theorem pure {x : α} {post : α → Prop} (h : post x) : Gives (Pure.pure x : Run α) post :=
  fun host => ⟨x, host, rfl, h⟩

theorem ofExcept {r : Except Error α} {x : α} (h : r = .ok x) :
    Gives (Run.ofExcept r) fun y => y = x := by
  subst h
  exact .pure rfl

theorem mono {run : Run α} {post weaker : α → Prop} (h : run.Gives post)
    (imp : ∀ x, post x → weaker x) : run.Gives weaker := by
  intro host
  obtain ⟨x, after, ends, hx⟩ := h host
  exact ⟨x, after, ends, imp x hx⟩

theorem bind {run : Run α} {next : α → Run β} {mid : α → Prop} {post : β → Prop}
    (h : run.Gives mid) (k : ∀ x, mid x → (next x).Gives post) :
    Gives (run >>= next) post := by
  intro host
  obtain ⟨x, between, ends, hx⟩ := h host
  obtain ⟨y, after, ends', hy⟩ := k x hx between
  refine ⟨y, after, ?_, hy⟩
  rw [on_bind, ends]
  exact ends'

theorem map {run : Run α} {f : α → β} {post : β → Prop} (h : run.Gives fun x => post (f x)) :
    Gives (ExceptT.map f run : Run β) post := by
  intro host
  obtain ⟨x, after, ends, hx⟩ := h host
  exact ⟨f x, after, by rw [on_map, ends]; rfl, hx⟩

theorem tryCatch {run : Run α} {post : α → Prop} (h : run.Gives post)
    (handler : Error → Run α) : Gives (MonadExcept.tryCatch run handler) post := by
  intro host
  obtain ⟨x, after, ends, hx⟩ := h host
  exact ⟨x, after, by rw [on_tryCatch, ends], hx⟩

theorem mapM {xs : List α} {f : α → Run β} {post : α → β → Prop}
    (h : ∀ x ∈ xs, (f x).Gives (post x)) :
    Gives (xs.mapM f) fun ys => List.Forall₂ post xs ys := by
  induction xs with
  | nil => exact .pure .nil
  | cons x xs ih =>
      rw [List.mapM_cons]
      refine (h x (List.mem_cons_self ..)).bind fun y hy => ?_
      refine (ih fun x' hx => h x' (List.mem_cons_of_mem _ hx)).bind fun ys hys => ?_
      exact .pure (.cons hy hys)

theorem collect {related : α → β → Prop} {xs : List α} {outcomes : List (Except Error β)}
    (h : List.Forall₂ (fun x outcome => ∃ y, outcome = .ok y ∧ related x y) xs outcomes) :
    Gives (outcomes.mapM Run.ofExcept) fun ys => List.Forall₂ related xs ys := by
  induction h with
  | nil => exact .pure .nil
  | cons first _ ih =>
      obtain ⟨y, hy, related⟩ := first
      rw [List.mapM_cons]
      refine (Gives.ofExcept hy).bind fun z hz => ?_
      refine ih.bind fun ys hys => ?_
      exact .pure (.cons (hz ▸ related) hys)

end Gives

end Reel.Run
