import Reel.Proofs.Number.Signed
import Reel.Proofs.Number.Sums
import Reel.Proofs.Value.Reading
import Reel.Timeline.Record

/-!
# What the values of a record can be used for

A record is to give a timeline or to be rejected, whatever values it holds. Most values are: what
is no number falls back to a default, what is no time or no choice is a reason to reject. A few
values stop the reading in another way. For each use of a value, those that do are told apart from
those that do not.
-/
namespace Reel

section HangsOn

variable {α β : Type}

/-- Rejections aside, there is a result just if the condition holds. -/
inductive HangsOn (P : Prop) : Except Error α → Prop
  | ok {x : α} : P → HangsOn P (.ok x)
  | rejected (cause : Rejection) : HangsOn P (reject cause)
  | stops {e : Error} : e.Unrejected → ¬ P → HangsOn P (.error e)

namespace HangsOn

variable {P Q : Prop} {r : Except Error α}

theorem congr (h : HangsOn P r) (iff : P ↔ Q) : HangsOn Q r := by rwa [iff] at h

/-- What follows is only reached where the first condition holds. -/
theorem bind {next : α → Except Error β} (first : HangsOn P r)
    (rest : ∀ x, r = .ok x → HangsOn Q (next x)) : HangsOn (P ∧ Q) (r >>= next) := by
  cases first with
  | @ok x holds => exact (rest x rfl).congr (and_iff_right holds).symm
  | rejected cause => exact .rejected cause
  | stops unrejected fails => exact .stops unrejected fun both => fails both.1

theorem bind_ok {next : α → Except Error β} (first : HangsOn P r)
    (rest : ∀ x, r = .ok x → ∃ y, next x = .ok y) : HangsOn P (r >>= next) := by
  refine (first.bind (Q := True) fun x hx => ?_).congr (and_iff_left trivial)
  obtain ⟨y, hy⟩ := rest x hx
  exact hy ▸ .ok trivial

theorem map {f : α → β} (h : HangsOn P r) : HangsOn P (r.map f) :=
  match h with
  | .ok holds => .ok holds
  | .rejected cause => .rejected cause
  | .stops unrejected fails => .stops unrejected fails

theorem of_yields (h : Yields Error.IsPlain r fun _ => True) : HangsOn (r.isOk = true) r := by
  cases h with
  | ok _ => exact .ok rfl
  | error plain => exact .stops plain.unrejected Bool.false_ne_true

theorem mapM {P : α → Prop} {f : α → Except Error β} {xs : List α}
    (each : ∀ x ∈ xs, HangsOn (P x) (f x)) : HangsOn (∀ x ∈ xs, P x) (xs.mapM f) := by
  induction xs with
  | nil => exact .ok (by simp)
  | cons x rest ih =>
      rw [List.forall_mem_cons] at each
      rw [List.mapM_cons]
      apply congr (each.1.bind fun y _ => (ih each.2).bind_ok fun ys _ => ⟨y :: ys, rfl⟩)
      exact List.forall_mem_cons.symm

end HangsOn

end HangsOn

/-- A number without an end, or one of so many digits that it is not written out. -/
def Value.isBoundless : Value → Bool
  | .real (.infinite _) | .decimal (.infinite _) => true
  | .decimal (.finite _ coefficient exponent) => coefficient != 0 && 1000000 < exponent
  | _ => false

/-- The arithmetic of decimals has a number for the time, unless the time is refused. -/
def Timecode.computes : Value → Bool
  | .text s =>
    match read s with
    | .ok d => !d.isSignaling
    | .error (.decimal _) => false
    | .error _ => true
  | _ => true

theorem isLegible_of_not_truthy {v : Value} (h : v.truthy = false) : v.isLegible = true := by
  cases v with
  | int n =>
      obtain rfl : n = 0 := by simpa [Value.truthy] using h
      exact isLegible_small (by decide)
  | list items =>
      obtain rfl : items = [] := by simpa [Value.truthy] using h
      rfl
  | map entries =>
      obtain rfl : entries = [] := by simpa [Value.truthy] using h
      rfl
  | other thing => exact thing.legible_of_empty h
  | _ => rfl

namespace Magnitude

theorem dropZeros_spec (digits : Nat) (exponent : Int) : ∃ zeros : Nat,
    digits = (dropZeros digits exponent).1 * 10 ^ zeros ∧
      (dropZeros digits exponent).2 = exponent + zeros := by
  fun_induction dropZeros digits exponent with
  | case1 digits exponent more ih =>
      obtain ⟨zeros, value, place⟩ := ih
      refine ⟨zeros + 1, ?_, by omega⟩
      rw [pow_succ, ← Nat.mul_assoc, ← value]
      omega
  | case2 digits exponent done => exact ⟨0, by simp⟩

/-- Whole numbers of the same digits and exponent differ in their sign at most. -/
theorem ofDigits_inj {a b : Nat} {s t : Bool} (h : ofDigits s a 0 = ofDigits t b 0) : a = b := by
  have nonzero {n : Nat} (hn : n ≠ 0) : (dropZeros n 0).1 ≠ 0 := by
    obtain ⟨zeros, value, -⟩ := dropZeros_spec n 0
    rintro none
    rw [none, Nat.zero_mul] at value
    exact hn value
  obtain ⟨zeros, value, place⟩ := dropZeros_spec a 0
  obtain ⟨zeros', value', place'⟩ := dropZeros_spec b 0
  unfold ofDigits at h
  rcases eq_or_ne a 0 with rfl | ha <;> rcases eq_or_ne b 0 with rfl | hb
  · rfl
  · rw [if_pos rfl, if_neg hb] at h
    exact (nonzero hb (Magnitude.finite.inj h).2.1.symm).elim
  · rw [if_neg ha, if_pos rfl] at h
    exact (nonzero ha (Magnitude.finite.inj h).2.1).elim
  · rw [if_neg ha, if_neg hb] at h
    obtain ⟨-, digits, exponent⟩ := Magnitude.finite.inj h
    have same : zeros = zeros' := by omega
    rw [value, value', digits, same]

end Magnitude

theorem sameKey_int {m n : Int} (h : (Value.int m).sameKey (.int n) = true) :
    m.natAbs = n.natAbs := by
  simp only [Value.sameKey, Value.magnitude?, beq_iff_eq] at h
  exact Magnitude.ofDigits_inj h

/-- A value that is one of few places is short enough to be written. -/
theorem isLegible_of_sameKey {v : Value} {n : Nat} (few : n ≤ 2 ^ 41)
    (h : v.sameKey (.int n) = true) (key : v.isKey = true) : v.isLegible = true := by
  cases v with
  | int m =>
      have same := sameKey_int h
      rw [Int.natAbs_natCast] at same
      exact isLegible_small (same ▸ few)
  | list items => cases key
  | map entries => cases key
  | other thing => cases h
  | _ => rfl

theorem doubleOfDecimal_hangsOn (d : Decimal) :
    HangsOn (d.isSignaling = false) (Value.doubleOfDecimal d) := by
  cases d with
  | finite sign coefficient exponent => exact .ok rfl
  | infinite sign => exact .ok rfl
  | nan sign signaling payload =>
      cases signaling with
      | true => exact .stops trivial (by simp [Decimal.isSignaling])
      | false => exact .ok rfl

namespace Timecode

theorem readField_yields {stops : Error → Prop} (given : String) (cs : List Char)
    (refused : stops (.rejected (.timeText given))) :
    Yields stops (readField given cs) fun d => Decimal.read? (String.ofList cs) = some d := by
  unfold readField
  split
  · next d read => exact .ok read
  · exact .error refused

/-- The reason why a text is no time: it is refused, or its parts cannot be added up. -/
def Untimely (e : Error) : Prop :=
  (∃ cause, e = .rejected cause) ∨ ∃ signal, e = .decimal signal

theorem read_yields (s : String) : Yields Untimely (read s) fun _ => True := by
  have part (cs : List Char) : Yields Untimely (readField s cs) fun _ => True :=
    (readField_yields s cs (.inl ⟨_, rfl⟩)).mono fun _ _ => trivial
  have sum (hours minutes seconds : Decimal) :
      Yields Untimely (Value.ofSignal (combine hours minutes seconds)) fun _ => True := by
    cases combine hours minutes seconds with
    | ok d => exact .ok trivial
    | error signal => exact .error (.inr ⟨signal, rfl⟩)
  unfold read
  dsimp only
  split
  · exact .error (.inl ⟨_, rfl⟩)
  · exact part _
  · exact (part _).bind fun _ _ => (part _).bind fun _ _ => sum _ _ _
  · exact (part _).bind fun _ _ => (part _).bind fun _ _ => (part _).bind fun _ _ => sum _ _ _

end Timecode

inductive Use where
  | size (v : Value)
  | choice (v : Value)
  | text (v : Value)
  | time (v : Value)
  | file (v : Value)
  /-- A file that is looked at to tell its kind. -/
  | sight (v : Value)

namespace Use

variable [Environment] {files : Files}

/-- The value can be used as it is meant to be, or is a reason to reject the record. Infinities
are no sizes; lists, mappings and signaling numbers are not looked up among choices; whole numbers
of too many digits are not written; and the environment has an answer where it is asked for a home
or about a picture. -/
def suits (files : Files) : Use → Bool
  | .size v => !v.isBoundless
  | .choice v => v.isKey && v.isLegible
  | .text v => v.isLegible
  | .time v => Timecode.computes v
  | .file v => v.isLegible && (Files.expandHome v.shown).isOk
  | .sight v => (Files.expandHome v.shown >>= Record.detectKind files).isOk

theorem suits_file (v : Value) : (Use.file v).suits files = true ↔
    v.isLegible = true ∧ (Files.expandHome v.shown).isOk = true :=
  Bool.and_eq_true_iff

/-- The number that is used as a time. -/
def number? : Use → Option Double
  | .time (.real x) => some x
  | _ => none

def Genuine (use : Use) : Prop := ∀ x ∈ use.number?, x.Genuine

instance : DecidablePred Genuine :=
  fun use => inferInstanceAs (Decidable (∀ x ∈ use.number?, x.Genuine))

end Use

section Values

variable [Environment] {files : Files}

theorem whole?_hangsOn (v : Value) :
    HangsOn ((Use.size v).suits files = true) (Geometry.whole? v) := by
  have read (given : Value) (n : Option Int) (fits : (Use.size given).suits files = true)
      (h : given.toWhole = Value.toWhole.readWhole given n) :
      HangsOn ((Use.size given).suits files = true) (Geometry.whole? given) := by
    rw [Geometry.whole?, h]
    cases n <;> exact .ok fits
  cases v with
  | text s => exact read _ _ rfl rfl
  | bytes content => exact read _ _ rfl rfl
  | real x =>
      cases x with
      | infinite sign => exact .stops trivial (by simp [Use.suits, Value.isBoundless])
      | _ => exact .ok rfl
  | decimal d =>
      cases d with
      | infinite sign => exact .stops trivial (by simp [Use.suits, Value.isBoundless])
      | nan sign signaling payload => exact .ok rfl
      | finite sign coefficient exponent =>
          obtain ⟨n, cut⟩ : ∃ n, (Value.decimal (.finite sign coefficient exponent)).toWhole =
              if coefficient ≠ 0 ∧ 1000000 < exponent then
                .error (.outOfRange "cannot convert a number with too many digits to integer")
              else .ok n := ⟨_, rfl⟩
          by_cases far : coefficient ≠ 0 ∧ 1000000 < exponent
          · rw [if_pos far] at cut
            rw [Geometry.whole?, cut]
            exact .stops trivial (by simp [Use.suits, Value.isBoundless, far])
          · rw [if_neg far] at cut
            rw [Geometry.whole?, cut]
            refine .ok ?_
            rw [Use.suits, Value.isBoundless, Bool.not_eq_true', Bool.and_eq_false_iff,
              bne_eq_false_iff_eq, decide_eq_false_iff_not]
            omega
  | _ => exact .ok rfl

theorem dimension_hangsOn (v : Value) (default : Int) :
    HangsOn ((Use.size v).suits files = true) (Geometry.dimension v default) :=
  (whole?_hangsOn v).bind_ok fun _ _ => ⟨_, rfl⟩

theorem frameRate_hangsOn (v : Value) :
    HangsOn ((Use.size v).suits files = true) (Geometry.frameRate v) :=
  (whole?_hangsOn v).bind_ok fun _ _ => ⟨_, rfl⟩

theorem toText_hangsOn (v : Value) : HangsOn ((Use.text v).suits files = true) v.toText := by
  unfold Value.toText
  split
  · next legible => exact .ok legible
  · next illegible => exact .stops trivial illegible

theorem orElse_toText_hangsOn (v : Value) (s : String) :
    HangsOn ((Use.text v).suits files = true) (v.orElse (.text s)).toText := by
  unfold Value.orElse
  split
  · exact toText_hangsOn v
  · next nothing => exact .ok (isLegible_of_not_truthy (Bool.eq_false_iff.mpr nothing))

open Record

theorem unknown_hangsOn {α : Type} (field : String) (v : Value) :
    HangsOn ((Use.text v).suits files = true)
      (do reject (.unknownChoice field (← v.toText)) : Except Error α) := by
  unfold Value.toText
  split
  · exact .rejected _
  · next illegible => exact .stops trivial illegible

theorem choose_hangsOn {α : Type} (choices : Choices α) (few : choices.ordinals.length ≤ 2 ^ 41)
    (field : String) (v : Value) :
    HangsOn ((Use.choice v).suits files = true) (choices.choose field v) := by
  have both : (Use.choice v).suits files = true ↔ v.isKey = true ∧ v.isLegible = true :=
    Bool.and_eq_true_iff
  have unknown : HangsOn ((Use.text v).suits files = true) (_ : Except Error α) :=
    unknown_hangsOn field v
  unfold Choices.choose
  split
  · next s =>
      split
      · exact .ok rfl
      · exact .rejected _
  · split
    · next key =>
        split
        · next found =>
            have same := List.find?_some found
            have place := List.snd_lt_of_mem_zipIdx (List.mem_of_find?_eq_some found)
            exact .ok (both.mpr ⟨key, isLegible_of_sameKey (by omega) same key⟩)
        · exact unknown.congr (both.trans (and_iff_right key)).symm
    · next lacking => exact .stops trivial fun suits => lacking (both.mp suits).1

namespace Timecode

theorem secondsOr_hangsOn (default : Double) {v : Value} (genuine : (Use.time v).Genuine) :
    HangsOn ((Use.time v).suits files = true) (secondsOr (.real default) v) := by
  cases v with
  | null => exact .ok rfl
  | text s =>
      rw [secondsOr]
      split
      · next empty =>
          subst empty
          have computed : computes "" = true := by decide +kernel
          exact .ok computed
      · have outcome := read_yields s
        cases time : read s with
        | error e =>
            rcases outcome.of_error time with ⟨cause, rfl⟩ | ⟨signal, rfl⟩
            · exact .rejected cause
            · exact .stops trivial (by simp [Use.suits, computes, time])
        | ok d => exact (doubleOfDecimal_hangsOn d).congr (by simp [Use.suits, computes, time])
  | int n => exact .ok rfl
  | real x =>
      obtain ⟨d, read, quiet, -⟩ := Double.exists_read_text (genuine x rfl)
      have taken : secondsOr (.real default) (.real x) = Value.doubleOfDecimal d := by
        simp only [secondsOr, ofValue, read]
        rfl
      rw [taken]
      exact (doubleOfDecimal_hangsOn d).congr (iff_of_true quiet rfl)
  | _ => exact .rejected .timeKind

end Timecode

end Values

end Reel
