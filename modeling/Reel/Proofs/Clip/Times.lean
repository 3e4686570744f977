import Reel.Proofs.Clip.Words
import Reel.Proofs.Timecode.Written

/-!
# The times of a clip

A clip is cut from its start to its end. A time that is absent or blank is left out; any other is
written as a plain number with at most six places, or the clip is refused. That holds of times that
are finite numbers below ten to the 22nd or no numbers at all. Special values and larger numbers
are neither refused nor written plainly.
-/
namespace Reel.ClipJob

open Timecode

variable {job : ClipJob} {files : Files} {time start finish : Value} {name : String}

/-- A time may be absent, a text, a whole number or a double. -/
def IsTime : Value → Prop
  | .null | .text _ | .int _ | .real _ => True
  | _ => False

def isAbsent (time : Value) : Bool := time.isNull || Text.blank time.shown

def seconds? (time : Value) : Option ℚ := (ofValue time).toOption.bind Decimal.toRat?

/-- The time is no time at all. -/
def Refused (time : Value) : Prop :=
  isAbsent time = false ∧ ∃ cause, ofValue time = .error (.rejected cause)

/-- The time is left out, or a number that can be written with six places. -/
def Suits (time : Value) : Prop :=
  isAbsent time = true ∨ ∃ q, seconds? time = some q ∧ |rounded q| < 10 ^ 22

/-- The time is read as a value that is no number. -/
def Undefined (time : Value) : Prop :=
  isAbsent time = false ∧ ∃ sign payload, ofValue time = .ok (.nan sign false payload)

/-- What stands for a time is nothing if it is left out, and else the text of its number. -/
def Says (time : Value) (found : Option String) : Prop :=
  if isAbsent time then found = none
  else ∃ q text, seconds? time = some q ∧ found = some text ∧ Shows text (rounded q)

/-- What becomes of a time: it is written as it is to be, or refused, or written as no number, or
it stops the clip in another way. -/
inductive Outcome (time : Value) : Except Error (Option String) → Prop
  | said {found : Option String} : Suits time → Says time found → Outcome time (.ok found)
  | refused {cause : Rejection} : Refused time → Outcome time (.error (.rejected cause))
  | undefined {found : Option String} : Undefined time → Outcome time (.ok found)
  | stops {e : Error} : e.Unrejected → ¬ Suits time → ¬ Refused time → ¬ Undefined time →
      Outcome time (.error e)

theorem timeText_eq (legible : time.isLegible = true) :
    timeText time =
      if isAbsent time then .ok none else (ofValue time >>= formatDecimal).map some := by
  unfold timeText isAbsent
  rw [toText_eq legible]
  change (if (time.isNull || Text.blank time.shown) = true then _ else _) = _
  split
  · rfl
  · cases h : ofValue time with
    | error e => rfl
    | ok d =>
        cases h' : formatDecimal d <;>
          simp [bind, Except.bind, Except.map, h', pure, Except.pure]

/-- A decimal is written plainly, or as no number, or is an invalid operation. -/
theorem outcome_of_ok {d : Decimal} (wanted : isAbsent time = false) (read : ofValue time = .ok d) :
    Outcome time ((formatDecimal d).map some) := by
  have number : seconds? time = d.toRat? := by rw [seconds?, read]; rfl
  have accepted : ¬ Refused time := fun h => by
    obtain ⟨cause, other⟩ := h.2
    rw [read] at other
    cases other
  have unsuited (h : ∀ q, d.toRat? = some q → 10 ^ 22 ≤ |rounded q|) : ¬ Suits time := by
    rintro (absent | ⟨q, value, small⟩)
    · rw [wanted] at absent
      cases absent
    · exact absurd small (not_lt.mpr (h q (number ▸ value)))
  have stops (h : ∀ q, d.toRat? = some q → 10 ^ 22 ≤ |rounded q|)
      (other : ∀ sign payload, d ≠ .nan sign false payload) :
      Outcome time (.error (.decimal .invalidOperation)) := by
    refine .stops trivial (unsuited h) accepted ?_
    rintro ⟨-, sign, payload, undefined⟩
    exact other sign payload (Except.ok.inj (read.symm.trans undefined))
  cases d with
  | finite negative c e =>
      obtain ⟨q, value⟩ : ∃ q, (Decimal.finite negative c e).toRat? = some q := ⟨_, rfl⟩
      have written := formatDecimal_shows value
      split_ifs at written with small
      · obtain ⟨text, same, shows⟩ := written
        rw [same]
        refine .said (.inr ⟨q, number.trans value, small⟩) ?_
        rw [Says, if_neg (Bool.eq_false_iff.mp wanted)]
        exact ⟨q, text, number.trans value, rfl, shows⟩
      · rw [written]
        refine stops (fun r hr => ?_) nofun
        rw [value] at hr
        exact Option.some.inj hr ▸ not_lt.mp small
  | infinite sign => exact stops nofun nofun
  | nan sign signaling payload =>
      cases signaling with
      | true => exact stops nofun nofun
      | false => exact .undefined ⟨wanted, sign, payload, read⟩

theorem outcome_of_legible (legible : time.isLegible = true) :
    Outcome time (timeText time) := by
  rw [timeText_eq legible]
  split
  · next absent => exact .said (.inl absent) (by rw [Says, if_pos absent])
  next wanted =>
  have wanted := Bool.eq_false_iff.mpr wanted
  cases read : ofValue time with
  | ok d => exact outcome_of_ok wanted read
  | error e =>
      by_cases rejected : ∃ cause, e = .rejected cause
      · obtain ⟨cause, rfl⟩ := rejected
        exact .refused ⟨wanted, cause, read⟩
      · refine .stops ?_ ?_ ?_ ?_
        · cases e <;> first | trivial | exact rejected ⟨_, rfl⟩
        · rintro (absent | ⟨q, value, -⟩)
          · rw [wanted] at absent
            cases absent
          · rw [seconds?, read] at value
            cases value
        · rintro ⟨-, cause, refused⟩
          rw [read] at refused
          exact rejected ⟨cause, Except.error.inj refused⟩
        · rintro ⟨-, sign, payload, undefined⟩
          rw [read] at undefined
          cases undefined

theorem blank_int (n : Int) : Text.blank (Value.int n).shown = false := by
  have written : (Value.int n).shown = toString n := String.ofList_toList
  have digits : Decimal.Unsigned (Nat.toDigits 10 n.natAbs ++ []) :=
    Decimal.unsigned_digits Nat.toDigits_ne_nil (Numeral.isDigit_of_mem_toDigits _) []
  rw [List.append_nil] at digits
  obtain ⟨d, front, digit⟩ := digits
  obtain ⟨ds, digits⟩ := List.head?_eq_some_iff.mp front
  have shown := not_isBlank_of_isNumeralChar (isNumeralChar_of_isDigit digit)
  rw [written, Decimal.toString_eq_signed, digits, Text.blank, Decimal.signed, String.toList_ofList]
  cases decide (n < 0) <;> simp [shown]

theorem timeText_outcome (h : IsTime time) : Outcome time (timeText time) := by
  cases time with
  | null | text _ | real _ => exact outcome_of_legible rfl
  | int n =>
      by_cases legible : (Value.int n).isLegible = true
      · exact outcome_of_legible legible
      have stopped : timeText (.int n) = .error (.unreadable (Value.tooLong "")) := by
        rw [timeText, Value.toText, if_neg legible]
        rfl
      rw [stopped]
      refine .stops trivial ?_ ?_ ?_
      · rintro (absent | ⟨q, value, small⟩)
        · rw [isAbsent, blank_int] at absent
          cases absent
        · obtain rfl : (n : ℚ) = q := Option.some.inj ((Decimal.toRat?_ofInt n).symm.trans value)
          rw [rounded_int, ← Int.cast_abs, Int.abs_eq_natAbs] at small
          have few : n.natAbs < 10 ^ 22 := by exact_mod_cast small
          exact legible (Value.isLegible_int.mpr
            (few.trans_le (Nat.pow_le_pow_right (by omega) (by decide))))
      · rintro ⟨-, cause, refused⟩
        cases refused
      · rintro ⟨-, sign, payload, undefined⟩
        cases undefined
  | _ => exact h.elim

theorem Suits.not_refused (h : Suits time) : ¬ Refused time := by
  rintro ⟨wanted, cause, refused⟩
  rcases h with absent | ⟨q, value, -⟩
  · rw [wanted] at absent
    cases absent
  · rw [seconds?, refused] at value
    cases value

theorem Undefined.not_refused (h : Undefined time) : ¬ Refused time := by
  rintro ⟨-, cause, refused⟩
  obtain ⟨-, sign, payload, read⟩ := h
  rw [refused] at read
  cases read

theorem Undefined.not_suits (h : Undefined time) : ¬ Suits time := by
  obtain ⟨wanted, sign, payload, read⟩ := h
  rintro (absent | ⟨q, value, -⟩)
  · rw [wanted] at absent
    cases absent
  · rw [seconds?, read] at value
    cases value

theorem Undefined.not_says (h : Undefined time) (found : Option String) : ¬ Says time found := by
  obtain ⟨wanted, sign, payload, read⟩ := h
  rw [Says, wanted, if_neg Bool.false_ne_true]
  rintro ⟨q, text, value, -⟩
  rw [seconds?, read] at value
  cases value

theorem Outcome.of_error {e : Error} (h : Outcome time (.error e)) :
    ¬ Suits time ∧ ¬ Undefined time ∧ (Refused time ↔ ∃ cause, e = .rejected cause) := by
  cases h with
  | refused refused =>
      refine ⟨fun suits => suits.not_refused refused,
        fun undefined => undefined.not_refused refused, ?_⟩
      exact iff_of_true refused ⟨_, rfl⟩
  | stops unrejected unsuited accepted defined =>
      refine ⟨unsuited, defined, iff_of_false accepted ?_⟩
      rintro ⟨cause, rfl⟩
      exact unrejected

theorem Outcome.of_ok {found : Option String} (h : Outcome time (.ok found)) :
    ¬ Refused time ∧ (Suits time ∨ Undefined time) ∧ (Says time found ↔ Suits time) := by
  cases h with
  | said suits said => exact ⟨suits.not_refused, .inl suits, iff_of_true said suits⟩
  | undefined undefined =>
      exact ⟨undefined.not_refused, .inr undefined, iff_of_false (undefined.not_says found)
        undefined.not_suits⟩

/-- The settings under a name are what stands for a time. -/
def Trims (name : String) (time : Value) (settings : List Setting) : Prop :=
  ∃ found, Says time found ∧ settings.filter (fun s => s.name == name) = timeSettings name found

/-- The clip is refused, or each of its commands is read with both times as they are to be. -/
def IsTrimmed (job : ClipJob) (files : Files) : Prop :=
  (∃ cause, job.invocations files = .error (.rejected cause)) ∨
  ∃ runs, job.invocations files = .ok runs ∧ ∀ i ∈ runs, i.shellCommand = .null ∧
    ∃ r, Reading.ofWordsBy? flags i.arguments = some r ∧
      Trims "-ss" job.start r.output ∧ Trims "-to" job.finish r.output

theorem filter_timeSettings (name given : String) (found : Option String) :
    (timeSettings given found).filter (fun s => s.name == name) =
      if given = name then timeSettings name found else [] := by
  cases found with
  | none => simp [timeSettings]
  | some text =>
      by_cases same : given = name
      · simp [timeSettings, same]
      · simp [timeSettings, same]

theorem filter_spoken (job : ClipJob) (codecs : Codecs) (start finish : Option String) :
    (job.spoken codecs start finish).filter (fun s => s.name == "-ss") = timeSettings "-ss" start ∧
    (job.spoken codecs start finish).filter (fun s => s.name == "-to") =
      timeSettings "-to" finish := by
  simp only [spoken, List.filter_append, filter_timeSettings, apply_ite (List.filter _)]
  constructor <;> simp

theorem Closing.filter {added : List Setting} (h : Closing added) {name : String}
    (other : name ∉ ["-pass", "-passlogfile", "-an", "-f"]) :
    added.filter (fun s => s.name == name) = [] := by
  rw [List.filter_eq_nil_iff]
  intro s hs same
  exact other (beq_iff_eq.mp same ▸ h.names s hs)

theorem timeSettings_injective {found other : Option String}
    (same : timeSettings name found = timeSettings name other) : found = other := by
  cases found <;> cases other <;> simp_all [timeSettings]

theorem trims_iff {settings : List Setting} {found : Option String}
    (said : settings.filter (fun s => s.name == name) = timeSettings name found) :
    Trims name time settings ↔ Says time found := by
  constructor
  · rintro ⟨other, meant, same⟩
    rwa [timeSettings_injective (said.symm.trans same)]
  · exact fun meant => ⟨found, meant, said⟩

/-- Once both times have texts, the clip is trimmed if they are what the times say. -/
theorem isTrimmed_iff_of_ok (valid : job.validate files = .ok ()) (legible : job.Legible)
    {found found' : Option String} (hs : timeText job.start = .ok found)
    (hf : timeText job.finish = .ok found') :
    job.IsTrimmed files ↔ Says job.start found ∧ Says job.finish found' := by
  obtain ⟨codecs, known⟩ := exists_codecs_of_validate valid
  have runs := invocations_eq valid legible known
  rw [hs, hf] at runs
  have runs : job.invocations files = .ok (job.commands (job.spoken codecs found found')) := runs
  have plain := spoken_plain job codecs found found'
  have trims {added : List Setting} (closing : Closing added) :
      Trims "-ss" job.start (job.spoken codecs found found' ++ added) ∧
      Trims "-to" job.finish (job.spoken codecs found found' ++ added) ↔
        Says job.start found ∧ Says job.finish found' := by
    -- no time is said behind the settings of the clip
    obtain ⟨starts, ends⟩ := filter_spoken job codecs found found'
    have first := closing.filter (by decide : "-ss" ∉ ["-pass", "-passlogfile", "-an", "-f"])
    have second := closing.filter (by decide : "-to" ∉ ["-pass", "-passlogfile", "-an", "-f"])
    refine and_congr (trims_iff ?_) (trims_iff ?_)
    · rw [List.filter_append, starts, first, List.append_nil]
    · rw [List.filter_append, ends, second, List.append_nil]
  constructor
  · rintro (⟨cause, refused⟩ | ⟨runs', given, each⟩)
    · rw [runs] at refused
      cases refused
    · obtain rfl := Except.ok.inj (runs.symm.trans given)
      obtain ⟨i, added, last, closing, -, reads⟩ := job.last_command_reads plain
      obtain ⟨-, r, reads', trimmed⟩ := each i (List.mem_of_getLast? last)
      obtain rfl := Option.some.inj (reads.symm.trans reads')
      exact (trims closing).mp trimmed
  · intro both
    refine .inr ⟨_, runs, fun i hi => ?_⟩
    obtain ⟨command, added, destination, closing, reads⟩ := commands_read plain i hi
    exact ⟨command, _, reads, (trims closing).mpr both⟩

/-- A clip whose times do not both have texts is trimmed only by being refused. -/
theorem isTrimmed_iff_of_error {e : Error} (h : job.invocations files = .error e) :
    job.IsTrimmed files ↔ ∃ cause, e = .rejected cause := by
  rw [IsTrimmed, h]
  constructor
  · rintro (⟨cause, same⟩ | ⟨runs, same, -⟩)
    · exact ⟨cause, Except.error.inj same⟩
    · cases same
  · rintro ⟨cause, rfl⟩
    exact .inl ⟨cause, rfl⟩

/-- A checked clip whose values can be written is trimmed as asked for or refused just if its start
is refused, or its finish is while the start is none of the values that stop it, or both times
suit. -/
theorem isTrimmed_iff (valid : job.validate files = .ok ()) (legible : job.Legible)
    (hs : IsTime job.start) (hf : IsTime job.finish) :
    job.IsTrimmed files ↔ Refused job.start ∨
      (Suits job.start ∨ Undefined job.start) ∧ Refused job.finish ∨
      Suits job.start ∧ Suits job.finish := by
  have first := timeText_outcome hs
  have second := timeText_outcome hf
  obtain ⟨codecs, known⟩ := exists_codecs_of_validate valid
  have runs := invocations_eq valid legible known
  -- the start is written first, so what stops it hides what would become of the finish
  cases starts : timeText job.start with
  | error e =>
      rw [starts] at first runs
      obtain ⟨unsuited, defined, refused⟩ := first.of_error
      rw [isTrimmed_iff_of_error runs, ← refused]
      tauto
  | ok found =>
  cases ends : timeText job.finish with
  | error e =>
      rw [starts] at first runs
      rw [ends] at second runs
      obtain ⟨unsuited, -, refused⟩ := second.of_error
      obtain ⟨accepted, written, -⟩ := first.of_ok
      rw [isTrimmed_iff_of_error runs, ← refused]
      tauto
  | ok found' =>
      rw [starts] at first
      rw [ends] at second
      obtain ⟨accepted, -, said⟩ := first.of_ok
      obtain ⟨accepted', -, said'⟩ := second.of_ok
      rw [isTrimmed_iff_of_ok valid legible starts ends, said, said']
      tauto

def walkFiles : Files := ⟨[(["walk.mp4"], .file [])]⟩

def walkClip (start finish : Value) : ClipJob where
  input := "walk.mp4"
  output := "short.mp4"
  start
  finish

theorem walkClip_validate (start finish : Value) :
    (walkClip start finish).validate walkFiles = .ok () := by
  change (walkClip .null .null).validate walkFiles = .ok ()
  decide +kernel

theorem walkClip_legible (start finish : Value) : (walkClip start finish).Legible where
  bitrate := nofun
  rate := rfl
  framing := nofun
  quality := nofun

theorem walkClip_trimmed : (walkClip "1:30" (.int 100)).validate walkFiles = .ok () ∧
    (walkClip "1:30" (.int 100)).Legible ∧ IsTime "1:30" ∧ IsTime (.int 100) ∧
    (walkClip "1:30" (.int 100)).IsTrimmed walkFiles := by
  have valid := walkClip_validate "1:30" (.int 100)
  have legible := walkClip_legible "1:30" (.int 100)
  have start : seconds? "1:30" = some 90 := by decide +kernel
  have finish : seconds? (.int 100) = some 100 := by decide +kernel
  have whole (n : ℤ) (few : |n| < 10 ^ 22) : |rounded n| < 10 ^ 22 := by
    rw [rounded_int]
    exact_mod_cast few
  refine ⟨valid, legible, trivial, trivial,
    (isTrimmed_iff valid legible trivial trivial).mpr (.inr (.inr ⟨.inr ⟨90, start, ?_⟩,
      .inr ⟨100, finish, ?_⟩⟩))⟩
  · exact whole 90 (by decide)
  · exact whole 100 (by decide)

/-- A start that is no number is written, and one without end is an invalid operation. -/
theorem walkClip_not_trimmed :
    (walkClip "nan" .null).invocations walkFiles =
      .ok [{ arguments := Value.words ["-y", "-hide_banner", "-i", "walk.mp4", "-ss", "NaN",
              "-c:a", "aac", "-c:v", "libx264", "short.mp4"]
             outputPath := "short.mp4" }] ∧
    ¬ (walkClip "nan" .null).IsTrimmed walkFiles ∧
    (walkClip "inf" .null).invocations walkFiles = .error (.decimal .invalidOperation) ∧
    ¬ (walkClip "inf" .null).IsTrimmed walkFiles := by
  have undefined : Undefined "nan" := ⟨by decide +kernel, false, 0, by decide +kernel⟩
  have stops : (walkClip "inf" .null).invocations walkFiles =
      .error (.decimal .invalidOperation) := by decide +kernel
  refine ⟨by decide +kernel, fun trimmed => ?_, stops, fun trimmed => ?_⟩
  · have start : timeText "nan" = .ok (some "NaN") := by decide +kernel
    have said := (isTrimmed_iff_of_ok (walkClip_validate "nan" .null)
      (walkClip_legible "nan" .null) start rfl).mp trimmed
    exact undefined.not_says _ said.1
  · obtain ⟨cause, other⟩ := (isTrimmed_iff_of_error stops).mp trimmed
    cases other

end Reel.ClipJob
