import Reel.Proofs.Graph.Label
import Reel.Proofs.Value.Reading

/-!
# Labels in the order of issue

An allocator is asked for one label after the other, and a request that is refused leaves it as it
was. At all times it holds the labels that it has granted, each numbered by those before it. No two
requests have one text, so the check of the texts refuses what has been granted and nothing else.
-/
namespace Reel.Allocator

/-- A label that is asked for. -/
structure Request where
  kind : LabelKind
  index : Option Int
  deriving Repr, DecidableEq

namespace Request

def Fits (r : Request) : Prop := r.index.isSome = r.kind.isIndexed

instance (r : Request) : Decidable r.Fits := inferInstanceAs (Decidable (_ = _))

def text (r : Request) : String := Label.textOf r.kind (r.index.map toString)

/-- The label that answers the request, as the one with this number. -/
def label (r : Request) (serial : Nat) : Label :=
  { kind := r.kind, index := r.index.map toString, serial }

def refusal (r : Request) : Defect :=
  if r.Fits then .labelRepeated r.text
  else if r.kind.isIndexed then .labelNeedsIndex r.kind.name
  else .labelTakesNoIndex r.kind.name

/-- The index as a value. -/
def value (r : Request) : Value :=
  match r.index with
  | none => .null
  | some i => .int i

@[simp] theorem text_label (r : Request) (serial : Nat) : (r.label serial).text = r.text := rfl

theorem text_inj {r s : Request} : r.text = s.text ↔ r = s := by
  cases r
  cases s
  simp [text, Label.textOf_inj]

end Request

variable {a : Allocator} {r : Request} {requests : List Request}

theorem issue_request (a : Allocator) (r : Request) :
    a.issue r.kind r.index =
      if r.Fits ∧ r.text ∉ a.issued.map Label.text then
        .ok (r.label a.issued.length, { issued := a.issued ++ [r.label a.issued.length] })
      else .error r.refusal := by
  rw [issue_eq, ← Request.text]
  by_cases fits : r.index.isSome = r.kind.isIndexed
  · by_cases known : r.text ∈ a.issued.map Label.text
    · simp only [Request.refusal, Request.Fits, fits, known, if_true, not_true, and_false, if_false]
    · simp only [Request.Fits, fits, known, if_true, not_false_eq_true, and_self, if_false]
      rfl
  · simp only [Request.refusal, Request.Fits, fits, false_and, if_false]
    split <;> rfl

/-- First the index is read as a text, and then the label is issued. -/
theorem issueAt_bind (a : Allocator) (kind : LabelKind) (index : Value) :
    a.issueAt kind index =
      (if kind.isIndexed && !index.isNull then some <$> index.toText
        else .ok (if index.isNull then none else some "")) >>=
        fun text => (a.issueText kind text).mapError .defect := by
  unfold issueAt
  split
  all_goals
    apply congrArg (bind _)
    funext text
    dsimp only
    cases a.issueText kind text <;> rfl

/-- Asked with a value, an allocator does the same. Only an index that is too long to be written
does not come as far as the check of the texts. -/
theorem issueAt_eq (a : Allocator) (r : Request) :
    a.issueAt r.kind r.value =
      if r.kind.isIndexed && !r.value.isLegible then .error (.unreadable (Value.tooLong ""))
      else (a.issue r.kind r.index).mapError .defect := by
  obtain ⟨kind, index⟩ := r
  rw [issueAt_bind]
  cases index with
  | none => cases kind.isIndexed <;> rfl
  | some i =>
    cases counted : kind.isIndexed with
    | false =>
      -- The index is refused before it is written, however long it is.
      have refused (text : String) :
          a.issueText kind (some text) = .error (.labelTakesNoIndex kind.name) := by
        simp [issueText, counted]
      rw [issue, Option.map_some, refused]
      exact congrArg (Except.mapError Error.defect) (refused "")
    | true =>
      cases legible : (Value.int i).isLegible with
      | false =>
        have unwritten : (Value.int i).toText = .error (.unreadable (Value.tooLong "")) := by
          rw [Value.toText, legible]
          rfl
        simp only [Request.value, legible, unwritten]
        rfl
      | true =>
        simp only [Request.value, legible, Value.toText_int legible]
        rfl

/-- A request with the allocator that it is made of, the answer, and the allocator from then on. -/
structure Turn where
  request : Request
  before : Allocator
  answer : Except Defect Label
  after : Allocator

namespace Turn

def isGranted (t : Turn) : Bool := t.answer.isOk

def label? (t : Turn) : Option Label := t.answer.toOption

end Turn

def turn (a : Allocator) (r : Request) : Turn :=
  match a.issue r.kind r.index with
  | .ok (label, after) => { request := r, before := a, answer := .ok label, after }
  | .error defect => { request := r, before := a, answer := .error defect, after := a }

def grant (a : Allocator) (r : Request) : Turn where
  request := r
  before := a
  answer := .ok (r.label a.issued.length)
  after := { issued := a.issued ++ [r.label a.issued.length] }

def refuse (a : Allocator) (r : Request) : Turn where
  request := r
  before := a
  answer := .error r.refusal
  after := a

@[simp] theorem isGranted_grant (a : Allocator) (r : Request) : (a.grant r).isGranted = true := rfl

@[simp] theorem isGranted_refuse (a : Allocator) (r : Request) :
    (a.refuse r).isGranted = false := rfl

theorem turn_eq (a : Allocator) (r : Request) :
    a.turn r = if r.Fits ∧ r.text ∉ a.issued.map Label.text then a.grant r else a.refuse r := by
  by_cases new : r.Fits ∧ r.text ∉ a.issued.map Label.text
  · rw [turn, issue_request, if_pos new, if_pos new]
    rfl
  · rw [turn, issue_request, if_neg new, if_neg new]
    rfl

@[simp] theorem turn_request (a : Allocator) (r : Request) : (a.turn r).request = r := by
  rw [turn_eq]
  split <;> rfl

/-- The turns of requests that are made one after the other. -/
def turns (a : Allocator) : List Request → List Turn
  | [] => []
  | r :: rest => a.turn r :: (a.turn r).after.turns rest

/-- The requests that were granted. -/
def granted (turns : List Turn) : List Request := (turns.filter Turn.isGranted).map Turn.request

theorem mem_granted {turns : List Turn} :
    r ∈ granted turns ↔ ∃ t ∈ turns, t.isGranted = true ∧ t.request = r := by
  simp [granted, and_assoc]

theorem length_granted (turns : List Turn) :
    (granted turns).length = turns.countP Turn.isGranted := by
  simp [granted, List.countP_eq_length_filter]

theorem granted_append (earlier later : List Turn) :
    granted (earlier ++ later) = granted earlier ++ granted later := by
  simp [granted]

theorem granted_cons (t : Turn) (later : List Turn) :
    granted (t :: later) = granted [t] ++ granted later :=
  granted_append [t] later

theorem granted_grant (a : Allocator) (r : Request) : granted [a.grant r] = [r] := rfl

theorem granted_refuse (a : Allocator) (r : Request) : granted [a.refuse r] = [] := rfl

theorem requests_turns (a : Allocator) (requests : List Request) :
    (a.turns requests).map Turn.request = requests := by
  induction requests generalizing a with
  | nil => rfl
  | cons r rest ih => rw [turns, List.map_cons, turn_request, ih]

/-- Without the requests that are refused, the others take the same turns. -/
theorem turns_granted (a : Allocator) (requests : List Request) :
    a.turns (granted (a.turns requests)) = (a.turns requests).filter Turn.isGranted := by
  induction requests generalizing a with
  | nil => rfl
  | cons r rest ih =>
    have step := a.turn_eq r
    rw [turns, granted_cons]
    split at step
    · have first : granted [a.turn r] = [r] := by rw [step, granted_grant]
      rw [first, List.filter_cons_of_pos (by rw [step, isGranted_grant]), ← ih]
      rfl
    · rw [step, granted_refuse, List.filter_cons_of_neg (by simp)]
      exact ih a

/-- The texts that are issued are those that are asked for. -/
theorem texts_issued (a : Allocator) (requests : List Request) :
    ((a.turns requests).filterMap Turn.label?).map Label.text =
      (granted (a.turns requests)).map Request.text := by
  induction requests generalizing a with
  | nil => rfl
  | cons r rest ih =>
    have step := a.turn_eq r
    rw [turns, granted_cons, List.map_append, ← ih]
    split at step <;> rw [step] <;> rfl

/-- The allocator holds the labels of these requests, in this order. -/
structure Holds (a : Allocator) (served : List Request) : Prop where
  issued : a.issued = served.mapIdx fun serial r => r.label serial
  distinct : served.Nodup

theorem holds_empty : ({} : Allocator).Holds [] := ⟨rfl, List.nodup_nil⟩

namespace Holds

variable {served : List Request}

theorem length_issued (h : a.Holds served) : a.issued.length = served.length := by
  rw [h.issued, List.length_mapIdx]

theorem texts (h : a.Holds served) : a.issued.map Label.text = served.map Request.text := by
  rw [h.issued]
  apply List.ext_getElem <;> simp

theorem turn_eq (h : a.Holds served) (r : Request) :
    a.turn r = if r.Fits ∧ r ∉ served then a.grant r else a.refuse r := by
  have known : r.text ∈ a.issued.map Label.text ↔ r ∈ served := by
    simp [h.texts, Request.text_inj]
  rw [Allocator.turn_eq]
  simp only [known]

theorem turn (h : a.Holds served) (r : Request) :
    (a.turn r).after.Holds (served ++ granted [a.turn r]) := by
  have step := h.turn_eq r
  split at step
  · next new =>
    rw [step, granted_grant]
    constructor
    · rw [grant, h.length_issued, h.issued, List.mapIdx_concat]
    · simpa using h.distinct.concat new.2
  · rw [step, granted_refuse, List.append_nil]
    exact h

/-- At every place in a row of turns, the allocator holds what has been granted so far. -/
theorem split {earlier later : List Turn} (h : a.Holds served)
    (taken : a.turns requests = earlier ++ later) :
    ∃ (b : Allocator) (left : List Request),
      b.Holds (served ++ granted earlier) ∧ later = b.turns left := by
  induction earlier generalizing a served requests with
  | nil => exact ⟨a, requests, by simpa [granted] using h, taken.symm⟩
  | cons t earlier ih =>
    cases requests with
    | nil => cases taken
    | cons r rest =>
      obtain ⟨rfl, rest_taken⟩ := List.cons.inj taken
      obtain ⟨b, left, held, rfl⟩ := ih (h.turn r) rest_taken
      rw [List.append_assoc, ← granted_cons] at held
      exact ⟨b, left, held, rfl⟩

end Holds

/-- What becomes of a request when others have been made before. -/
structure Turn.Follows (t : Turn) (earlier : List Turn) : Prop where
  granted_iff : t.isGranted = true ↔
    t.request.Fits ∧ ∀ s ∈ earlier, s.isGranted = true → s.request ≠ t.request
  numbered : ∀ l, t.answer = .ok l → l = t.request.label (earlier.countP Turn.isGranted)
  refused : ∀ defect, t.answer = .error defect → defect = t.request.refusal ∧ t.after = t.before

theorem Holds.follows {earlier : List Turn} (h : a.Holds (granted earlier)) (r : Request) :
    (a.turn r).Follows earlier := by
  have step := h.turn_eq r
  have new : r ∉ granted earlier ↔ ∀ s ∈ earlier, s.isGranted = true → s.request ≠ r := by
    simp [mem_granted]
  split at step
  · next granting =>
    rw [step]
    constructor
    · exact iff_of_true rfl ⟨granting.1, new.mp granting.2⟩
    · intro l ok
      rw [← length_granted, ← h.length_issued]
      exact (Except.ok.inj ok).symm
    · intro defect error
      cases error
  · next refusing =>
    rw [step]
    constructor
    · apply iff_of_false
      · exact Bool.false_ne_true
      · exact fun granting => refusing ⟨granting.1, new.mpr granting.2⟩
    · intro l ok
      cases ok
    · intro defect error
      exact ⟨(Except.error.inj error).symm, rfl⟩

/-- The turns of requests to a new allocator. -/
def transcript (requests : List Request) : List Turn := ({} : Allocator).turns requests

/-- Requests that are made of a new allocator, one after the other. One is granted exactly if it has
an index for a counted kind and none for another, and no one before it was granted for the same kind
and index; its number is that of the granted ones before it. One that is refused hears of its own
defect and leaves the allocator as it was, so that the others go the same way without it. No two
requests have one text, and no text is issued twice. Requests whose index comes as a value are
answered alike, as long as it can be written at all. -/
theorem labels_issued_once (requests : List Request) :
    (transcript requests).map Turn.request = requests ∧
      (∀ earlier t later, transcript requests = earlier ++ t :: later → t.Follows earlier) ∧
      transcript (granted (transcript requests)) = (transcript requests).filter Turn.isGranted ∧
      (∀ r s : Request, r ≠ s → r.text ≠ s.text) ∧
      (((transcript requests).filterMap Turn.label?).map Label.text).Nodup ∧
      ∀ (a : Allocator) (r : Request), r.value.isLegible = true →
        a.issueAt r.kind r.value = (a.issue r.kind r.index).mapError .defect := by
  refine ⟨requests_turns _ _, ?_, turns_granted _ _, ?_, ?_, ?_⟩
  · intro earlier t later taken
    obtain ⟨a, left, held, rest⟩ := holds_empty.split taken
    cases left with
    | nil => cases rest
    | cons r left =>
      obtain ⟨rfl, -⟩ := List.cons.inj rest
      exact held.follows r
  · intro r s apart same
    exact apart (Request.text_inj.mp same)
  · obtain ⟨a, -, held, -⟩ := holds_empty.split (List.append_nil (transcript requests)).symm
    rw [transcript, texts_issued]
    exact held.distinct.map fun r s => Request.text_inj.mp
  · intro a r legible
    rw [issueAt_eq, legible, Bool.not_true, Bool.and_false]
    rfl

/-- Labels of kinds with stems that begin alike, some of them asked for twice. -/
def rollCall : List Request :=
  [⟨.trackAudio, some 1⟩, ⟨.trackSilence, some 1⟩, ⟨.videoConcat, some 3⟩, ⟨.audioSequence, none⟩,
    ⟨.trackAudio, some (-1)⟩, ⟨.trackAudio, some 1⟩, ⟨.trackAudio, none⟩, ⟨.audioSequence, none⟩,
    ⟨.trackAudio, some 11⟩]

theorem labels_issued_rollCall :
    (transcript rollCall).map Turn.answer =
        [.ok ⟨.trackAudio, some "1", 0⟩, .ok ⟨.trackSilence, some "1", 1⟩,
          .error (.labelTakesNoIndex "VIDEO_CONCAT"), .ok ⟨.audioSequence, none, 2⟩,
          .ok ⟨.trackAudio, some "-1", 3⟩, .error (.labelRepeated "a1"),
          .error (.labelNeedsIndex "TRACK_AUDIO"), .error (.labelRepeated "audio"),
          .ok ⟨.trackAudio, some "11", 4⟩] ∧
      (∀ earlier t later, transcript rollCall = earlier ++ t :: later → t.Follows earlier) ∧
      (((transcript rollCall).filterMap Turn.label?).map Label.text).Nodup ∧
      (Value.int 11).isLegible = true ∧
      ({} : Allocator).issueAt .trackAudio (.int 11) =
        (({} : Allocator).issue .trackAudio (some 11)).mapError .defect := by
  have legible : (Value.int 11).isLegible = true := isLegible_small (by decide)
  obtain ⟨-, follow, -, -, distinct, alike⟩ := labels_issued_once rollCall
  exact ⟨by decide +kernel, follow, distinct, legible, alike {} ⟨.trackAudio, some 11⟩ legible⟩

end Reel.Allocator
