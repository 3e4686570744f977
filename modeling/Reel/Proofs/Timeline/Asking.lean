import Reel.Proofs.Graph.Assembly
import Reel.Proofs.Host.Effects
import Reel.Proofs.Timeline.Probing

/-!
# What resolving a timeline does

Resolving does what its probes do and nothing else, refuses nothing, and loses no segment. Asking
a probing program starts that program and leaves files alone.
-/
namespace Reel

open Resolve

theorem Run.probe_does {program : Value} {words : List Value}
    (asks : ∀ closes, Spawn.Asks program (.arguments words closes)) :
    Run.Does (.probes program) Error.IsPlain (Run.probe words) fun _ => True := by
  intro host silent
  have ends := Run.probe_on words host
  rw [ends]
  refine ⟨⟨rfl, ⟨_, rfl, ?_⟩, fun _ => rfl, fun _ => ⟨rfl, rfl⟩⟩, ?_⟩
  · intro spawn hs
    obtain ⟨closes, -, rfl⟩ := List.mem_map.mp hs
    exact asks closes
  · unfold ProbeScript.found
    split
    · exact .ok trivial
    · exact .ok trivial
    · exact .error trivial
    · exact .ok trivial

theorem fillSegments_length (own : Bool) (segments : List (Segment Double))
    (answers : List (Answer Double)) :
    (fillSegments own segments answers).1.length = segments.length := by
  fun_induction fillSegments own segments answers with
  | case1 => rfl
  | case2 => simp_all
  | case3 => simp_all
  | case4 => simp_all
  | case5 => rfl

theorem fill_length (t : Timeline Double) (answers : List (Answer Double)) :
    (fill t answers).segments.length = t.segments.length :=
  fillSegments_length t.useTrackAudio t.segments answers

theorem prepare_yields (t : Timeline Double) :
    Yields Error.IsPlain (prepare t) fun prepared =>
      prepared.segments.length = t.segments.length :=
  (audioSequence_yields t).bind fun _ _ => .ok (by simp)

namespace Prober

variable {p : Prober} {e : Effects}

/-- Asking has no more than these effects, and refuses nothing. -/
structure Asks (p : Prober) (e : Effects) : Prop where
  duration : ∀ path, Run.Does e Error.IsPlain (p.durationText path) fun _ => True
  sound : ∀ path, Run.Does e Error.IsPlain (p.soundText path) fun _ => True

theorem ofProgram_asks (program : Value) : (ofProgram program).Asks (.probes program) where
  duration path := (Run.probe_does fun closes => .duration path closes).bind
    fun _ _ => .pure trivial
  sound path := (Run.probe_does fun closes => .sound path closes).bind fun _ _ => .pure trivial

theorem perform_does (h : p.Asks e) (limit : Double) (job : Job) :
    Run.Does e Error.IsPlain (p.perform limit job) fun _ => True := by
  have measured (path : Value) : Run.Does e Error.IsPlain (p.duration path) fun _ => True :=
    (h.duration path).bind fun _ _ => .pure trivial
  cases job with
  | clip path =>
      obtain ⟨x, cut⟩ := exists_clipDuration_eq p limit
      rw [perform, cut]
      exact Run.Does.bind ((measured path).bind fun _ _ => .pure trivial)
        fun _ (_ : True) => .pure trivial
  | sound path =>
      exact Run.Does.bind ((h.sound path).bind fun _ _ => .pure trivial)
        fun _ (_ : True) => .pure trivial
  | item path =>
      exact Run.Does.bind ((measured path).bind fun _ _ => .pure trivial)
        fun _ (_ : True) => .pure trivial

theorem performAll_does (h : p.Asks e) (limit : Double) (jobs : List Job) :
    Run.Does e Error.IsPlain (p.performAll limit jobs) fun _ => True := by
  have caught (job : Job) : Run.Does e Error.IsPlain
      (tryCatch ((p.perform limit job).map Except.ok) fun cause => pure (Except.error cause) :
        Run (Except Error (Answer Double)))
      fun outcome => Yields Error.IsPlain outcome fun _ => True := by
    refine Run.Does.tryCatch (.map ((perform_does h limit job).mono fun _ _ => .ok trivial)) ?_
    exact fun cause plain => .pure (.error plain)
  refine (Run.Does.mapM fun job _ => caught job).bind fun outcomes kept => ?_
  exact (Run.Does.mapM fun outcome ho => .ofExcept (kept outcome ho)).mono fun _ _ => trivial

theorem resolve_does (h : p.Asks e) (workers : Int) (t : Timeline Double) :
    Run.Does e Error.IsPlain (p.resolve workers t) fun resolved =>
      resolved.segments.length = t.segments.length := by
  refine (Run.Does.ofExcept (prepare_yields t)).bind fun prepared length => ?_
  have asked (answering : Run (List (Answer Double)))
      (does : Run.Does e Error.IsPlain answering fun _ => True) :
      Run.Does e Error.IsPlain (do return fill prepared (← answering)) fun resolved =>
        resolved.segments.length = t.segments.length :=
    does.bind fun answers _ => .pure ((fill_length prepared answers).trans length)
  dsimp only
  split
  · exact asked _ ((Run.Does.mapM fun job _ => perform_does h t.maxClip job).mono
      fun _ _ => trivial)
  · exact asked _ (performAll_does h t.maxClip _)

end Prober

end Reel
