import Mathlib.Data.List.Forall2
import Reel.Error

/-!
# What a computation that may stop yields

A computation yields a property within a set of stops if its result has the property and every
error that it may end with lies in the set. A stop is as much part of the statement as a result,
so one law of a function says both what it gives and why it may refuse.
-/
namespace Reel

variable {α β : Type} {stops : Error → Prop}

/-- The result has the property, or the computation stops as it may. -/
inductive Yields (stops : Error → Prop) : Except Error α → (α → Prop) → Prop
  | ok {x : α} {post : α → Prop} : post x → Yields stops (.ok x) post
  | error {e : Error} {post : α → Prop} : stops e → Yields stops (.error e) post

namespace Yields

/-- What follows a computation may rely on what that yields. -/
theorem bind {r : Except Error α} {next : α → Except Error β} {mid : α → Prop} {post : β → Prop}
    (first : Yields stops r mid) (rest : ∀ x, mid x → Yields stops (next x) post) :
    Yields stops (r >>= next) post := by
  cases first with
  | ok h => exact rest _ h
  | error h => exact .error h

theorem mono {r : Except Error α} {post weaker : α → Prop} (h : Yields stops r post)
    (imp : ∀ x, post x → weaker x) : Yields stops r weaker := by
  cases h with
  | ok h => exact .ok (imp _ h)
  | error h => exact .error h

theorem self {r : Except Error α} (h : Yields stops r fun _ => True) :
    Yields stops r fun x => r = .ok x := by
  cases h with
  | ok _ => exact .ok rfl
  | error h => exact .error h

theorem widen {more : Error → Prop} {r : Except Error α} {post : α → Prop}
    (h : Yields stops r post) (imp : ∀ e, stops e → more e) : Yields more r post := by
  cases h with
  | ok h => exact .ok h
  | error h => exact .error (imp _ h)

theorem of_ok {r : Except Error α} {post : α → Prop} {x : α} (h : Yields stops r post)
    (hr : r = .ok x) : post x := by
  subst hr
  cases h with
  | ok h => exact h

theorem of_error {r : Except Error α} {post : α → Prop} {e : Error} (h : Yields stops r post)
    (hr : r = .error e) : stops e := by
  subst hr
  cases h with
  | error h => exact h

theorem any (r : Except Error α) : Yields (fun _ => True) r fun x => r = .ok x := by
  cases r with
  | ok x => exact .ok rfl
  | error e => exact .error trivial

theorem map {r : Except Error α} {f : α → β} {post : β → Prop}
    (h : Yields stops r fun x => post (f x)) : Yields stops (r.map f) post := by
  cases h with
  | ok h => exact .ok h
  | error h => exact .error h

theorem mapM {f : α → Except Error β} (h : ∀ x, Yields stops (f x) fun _ => True) (xs : List α) :
    Yields stops (xs.mapM f) fun _ => True := by
  induction xs with
  | nil => exact .ok trivial
  | cons x rest ih =>
      rw [List.mapM_cons]
      exact (h x).bind fun _ _ => ih.bind fun _ _ => .ok trivial

end Yields

theorem exists_of_isOk {r : Except Error α} (h : r.isOk = true) : ∃ x, r = .ok x := by
  cases r with
  | ok x => exact ⟨x, rfl⟩
  | error e => cases h

theorem exists_of_bind_ok {ε : Type} {r : Except ε α} {next : α → Except ε β} {y : β}
    (h : r >>= next = .ok y) : ∃ x, r = .ok x ∧ next x = .ok y := by
  cases r with
  | ok x => exact ⟨x, rfl, h⟩
  | error e => cases h

theorem exists_of_map_ok {ε : Type} {r : Except ε α} {f : α → β} {y : β} (h : r.map f = .ok y) :
    ∃ x, r = .ok x ∧ f x = y := by
  cases r with
  | ok x => exact ⟨x, rfl, Except.ok.inj h⟩
  | error e => cases h

/-- Each result of a row of computations is that of one among them. -/
theorem exists_of_mem_mapM {f : α → Except Error β} {xs : List α} {ys : List β}
    (h : xs.mapM f = .ok ys) : ∀ y ∈ ys, ∃ x ∈ xs, f x = .ok y := by
  induction xs generalizing ys with
  | nil =>
      obtain rfl : [] = ys := Except.ok.inj h
      simp
  | cons x rest ih =>
      rw [List.mapM_cons] at h
      obtain ⟨y, first, h⟩ := exists_of_bind_ok h
      obtain ⟨zs, others, h⟩ := exists_of_bind_ok h
      obtain rfl : y :: zs = ys := Except.ok.inj h
      rw [List.forall_mem_cons]
      refine ⟨⟨x, List.mem_cons_self .., first⟩, fun z hz => ?_⟩
      obtain ⟨x', hx, given⟩ := ih others z hz
      exact ⟨x', List.mem_cons_of_mem _ hx, given⟩

/-- The results of a row of computations are theirs one by one. -/
theorem forall₂_of_mapM {f : α → Except Error β} {xs : List α} {ys : List β}
    (h : xs.mapM f = .ok ys) : List.Forall₂ (fun x y => f x = .ok y) xs ys := by
  induction xs generalizing ys with
  | nil =>
      obtain rfl : [] = ys := Except.ok.inj h
      exact .nil
  | cons x rest ih =>
      rw [List.mapM_cons] at h
      obtain ⟨y, first, h⟩ := exists_of_bind_ok h
      obtain ⟨zs, others, h⟩ := exists_of_bind_ok h
      obtain rfl : y :: zs = ys := Except.ok.inj h
      exact .cons first (ih others)

theorem length_of_mapM {f : α → Except Error β} {xs : List α} {ys : List β}
    (h : xs.mapM f = .ok ys) : ys.length = xs.length :=
  (forall₂_of_mapM h).length_eq.symm

/-- An error that is not the rejection of a request. -/
def Error.Unrejected : Error → Prop
  | .rejected _ => False
  | _ => True

/-- An error that is neither a broken promise inside the construction of graphs nor the rejection
of a request. -/
def Error.IsPlain : Error → Prop
  | .defect _ | .rejected _ => False
  | _ => True

namespace Error.IsPlain

variable {e : Error}

theorem ne_defect (h : e.IsPlain) (cause : Defect) : e ≠ .defect cause := by
  rintro rfl
  exact h

theorem unrejected (h : e.IsPlain) : e.Unrejected := by
  cases e <;> first | exact h | exact trivial

end Error.IsPlain

end Reel
