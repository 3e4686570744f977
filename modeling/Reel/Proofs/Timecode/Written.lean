import Reel.Proofs.Number.Texts

/-!
# Numbers written as seconds

A number of seconds is written with its nearest six places, as shortly as that number can be. What
is written is read back as the rounded number and is written the same again. Numbers that are too
large for the precision of decimals, and infinities, are an invalid operation.
-/
namespace Reel

/-- A whole number that is not too long to be written, a double of the format or a decimal with
exponents in reach, none of them a value that is no number. -/
def Value.IsNumber : Value → Prop
  | .int n => (Value.int n).isLegible = true
  | .real x => x.Genuine ∧ x.isNaN = false
  | .decimal (.finite _ coefficient exponent) => Decimal.InReach coefficient exponent
  | .decimal (.infinite _) => True
  | _ => False

/-- The rational that the text of a number shows; an infinity shows none. -/
def Value.amount? : Value → Option ℚ
  | .int n => some n
  | .real x => x.shown?
  | .decimal d => d.toRat?
  | _ => none

theorem Value.isLegible_int {n : Int} :
    (Value.int n).isLegible = true ↔ n.natAbs < 10 ^ Numeral.wholeDigitLimit := by
  rw [isLegible, decide_eq_true_iff, Nat.pow_eq]

/-- The text of a number is read as a decimal that stands for it. -/
theorem Value.IsNumber.exists_read {v : Value} (h : v.IsNumber) :
    ∃ d, v.toText = .ok v.shown ∧ Decimal.read? v.shown = some d ∧ d.isNaN = false ∧
      d.toRat? = v.amount? := by
  unfold IsNumber at h
  split at h
  · next n =>
      have written : (Value.int n).shown = toString n := String.ofList_toList
      refine ⟨.ofInt n, if_pos h, ?_, rfl, Decimal.toRat?_ofInt n⟩
      rw [written, Decimal.read?_int (isLegible_int.mp h)]
  · next x =>
      obtain ⟨d, read, -, number, shown⟩ := Double.exists_read_text h.1
      have written : (Value.real x).shown = x.text := String.ofList_toList
      exact ⟨d, rfl, written ▸ read, number.trans h.2, shown⟩
  · next negative c e => exact ⟨.finite negative c e, rfl, Decimal.read?_text negative h, rfl, rfl⟩
  · next negative =>
      refine ⟨.infinite negative, rfl, ?_, rfl, rfl⟩
      cases negative <;> decide +kernel
  · exact h.elim

namespace Timecode

/-- The number that a text is read as. -/
def number? (text : String) : Option ℚ := (read text).toOption.bind Decimal.toRat?

/-- The text of a number with six places: the shortest that shows it, with no digit, no point and
no sign that could be left out. It is read back as the number, and is written the same again. -/
structure Shows (text : String) (r : ℚ) : Prop where
  plain : ∃ p : Positional, p.Reduced ∧ p.fraction.length ≤ 6 ∧ p.value = r ∧ p.text = text
  shortest : ∀ p : Positional, p.Proper → p.value = r →
    text.length ≤ p.text.length ∧ (p.text.length = text.length → p.text = text)
  number : number? text = some r
  again : format (.text text) = .ok text
  reread : ∀ d, read text = .ok d → format (.decimal d) = .ok text

variable {v : Value} {d : Decimal} {q : ℚ} {s : String}

theorem format_of_read (text : v.toText = .ok s) (read : Decimal.read? s = some d) :
    format v = formatDecimal d := by
  simp only [format, text, bind, Except.bind, read]

/-- A decimal is written as the reduced text of its rounded number, if that is not too long. -/
theorem formatDecimal_finite (h : d.toRat? = some q) :
    if |rounded q| < 10 ^ 22 then
      ∃ p : Positional, p.Reduced ∧ p.fraction.length ≤ 6 ∧ p.value = rounded q ∧
        formatDecimal d = .ok p.text
    else formatDecimal d = .error (.decimal .invalidOperation) := by
  obtain ⟨negative, c, e, rfl⟩ : ∃ negative c e, d = .finite negative c e := by
    cases d with
    | finite negative c e => exact ⟨negative, c, e, rfl⟩
    | _ => cases h
  rw [Decimal.toRat?_finite, Option.some.injEq] at h
  have size : 0 ≤ (c : ℚ) * 10 ^ e := by positivity
  have signed := millionths_signed negative size
  rw [h] at signed
  have size : (millionths q).natAbs = ⌊(c : ℚ) * 10 ^ e * 10 ^ 6 + 1 / 2⌋₊ := by
    rw [signed]
    split <;> simp
  have few := abs_rounded_lt_iff (q := q) (k := 22)
  rw [formatDecimal, Decimal.quantize_six, Decimal.six_places, ← size]
  split_ifs with small short long
  · obtain ⟨p, reduced, few, text, value⟩ := exists_reduced negative (millionths q).natAbs
    refine ⟨p, reduced, few, ?_, congrArg Except.ok text⟩
    rw [value, size, rounded, signed]
    cases negative <;> simp [neg_div]
  · exact absurd (few.mp small) short
  · exact absurd (few.mpr long) small
  · rfl

theorem read_plain (apart : ∀ c ∈ s.toList, Text.isBlank c = false ∧ c ≠ ':') :
    read s = readField s s.toList := by
  have fields : s.toList.splitOn ':' = [s.toList] := by
    have alone : ∀ cs ∈ [s.toList], ':' ∉ cs := by
      simpa using fun mem => (apart _ mem).2 rfl
    simpa using List.splitOn_intercalate ':' alone (by simp)
  rw [read, trim_eq_self fun c hc => (apart c hc).1, fields]
  rfl

theorem shows_of_reduced {p : Positional} (h : p.Reduced) (few : p.fraction.length ≤ 6)
    (small : |p.value| < 10 ^ 22) : Shows p.text p.value := by
  have apart : ∀ c ∈ p.text.toList, Text.isBlank c = false ∧ c ≠ ':' := fun c hc => by
    rw [Positional.text, String.toList_ofList] at hc
    rcases h.of_mem_chars hc with ⟨-, rfl⟩ | digit | rfl
    · decide
    · refine ⟨not_isBlank_of_isNumeralChar (isNumeralChar_of_isDigit digit), ?_⟩
      rintro rfl
      revert digit
      decide
    · decide
  have back := h.read?_text_of_lt few small
  have read : read p.text = .ok p.decimal := by
    rw [read_plain apart, readField, String.ofList_toList, back]
  -- what is read back has the same number, and a number has one reduced text
  have written : formatDecimal p.decimal = .ok p.text := by
    have outcome := formatDecimal_finite p.toRat?_decimal
    rw [rounded_value few, if_pos small] at outcome
    obtain ⟨p', reduced, -, value, text⟩ := outcome
    rwa [h.eq_of_value_eq reduced value] at text
  refine ⟨⟨p, h, few, rfl, rfl⟩, fun p' proper value => ?_, ?_, ?_, fun d hd => ?_⟩
  · rw [Positional.text, Positional.text, String.length_ofList, String.length_ofList]
    obtain ⟨le, eq⟩ := h.shortest proper value
    exact ⟨le, fun length => by rw [eq length]⟩
  · rw [number?, read]
    exact p.toRat?_decimal
  · rw [format_of_read (Value.toText_text _) back, written]
  · have shown : d = p.decimal := Except.ok.inj (hd.symm.trans read)
    rw [shown, format_of_read rfl (Decimal.read?_text p.negative (Positional.inReach few small))]
    exact written

theorem formatDecimal_shows (h : d.toRat? = some q) :
    if |rounded q| < 10 ^ 22 then ∃ text, formatDecimal d = .ok text ∧ Shows text (rounded q)
    else formatDecimal d = .error (.decimal .invalidOperation) := by
  have outcome := formatDecimal_finite h
  split_ifs at outcome ⊢ with small
  · obtain ⟨p, reduced, few, value, shown⟩ := outcome
    exact ⟨p.text, shown, value ▸ shows_of_reduced reduced few (value ▸ small)⟩
  · exact outcome

theorem Shows.eq {t : String} {r : ℚ} (hs : Shows s r) (ht : Shows t r) : s = t := by
  obtain ⟨p, reduced, -, value, rfl⟩ := hs.plain
  obtain ⟨p', reduced', -, value', rfl⟩ := ht.plain
  rw [reduced'.eq_of_value_eq reduced (value.trans value'.symm)]

theorem format_amount (hv : v.IsNumber) (amount : v.amount? = some q) :
    if |rounded q| < 10 ^ 22 then ∃ text, format v = .ok text ∧ Shows text (rounded q)
    else format v = .error (.decimal .invalidOperation) := by
  obtain ⟨d, text, read, -, number⟩ := hv.exists_read
  rw [format_of_read text read]
  exact formatDecimal_shows (number.trans amount)

theorem format_of_amount?_eq_none (hv : v.IsNumber) (boundless : v.amount? = none) :
    format v = .error (.decimal .invalidOperation) := by
  obtain ⟨d, text, read, number, amount⟩ := hv.exists_read
  rw [format_of_read text read]
  cases d with
  | finite negative c e =>
      rw [boundless, Decimal.toRat?_finite] at amount
      cases amount
  | infinite negative => rfl
  | nan negative signaling payload => cases number

/-- What is written for a number is the shortest text of it, rounded to six places, unless that
is ten to the 22nd or more; for such numbers and infinities there is no text. Texts are the same
just if the rounded numbers are, and in the order of the numbers. -/
theorem format_rounded (hv : v.IsNumber) :
    (∀ q, v.amount? = some q → |rounded q| < 10 ^ 22 →
      ∃ text, format v = .ok text ∧ Shows text (rounded q)) ∧
    ((∀ q, v.amount? = some q → 10 ^ 22 ≤ |rounded q|) →
      format v = .error (.decimal .invalidOperation)) ∧
    ∀ w q r s t, w.IsNumber → v.amount? = some q → w.amount? = some r →
      format v = .ok s → format w = .ok t →
        (s = t ↔ rounded q = rounded r) ∧
        (q ≤ r → ∃ a b, number? s = some a ∧ number? t = some b ∧ a ≤ b) := by
  refine ⟨fun q amount small => ?_, fun large => ?_, fun w q r s t hw hq hr hs ht => ?_⟩
  · have outcome := format_amount hv amount
    rwa [if_pos small] at outcome
  · cases amount : v.amount? with
    | none => exact format_of_amount?_eq_none hv amount
    | some q =>
        have outcome := format_amount hv amount
        rwa [if_neg (not_lt.mpr (large q amount))] at outcome
  · have shown {v : Value} {q : ℚ} {s : String} (hv : v.IsNumber) (hq : v.amount? = some q)
        (hs : format v = .ok s) : Shows s (rounded q) := by
      have outcome := format_amount hv hq
      rw [hs] at outcome
      split_ifs at outcome
      obtain ⟨text, same, shows⟩ := outcome
      rwa [Except.ok.inj same]
    have first := shown hv hq hs
    have second := shown hw hr ht
    refine ⟨⟨fun same => ?_, fun same => first.eq (same ▸ second)⟩, fun le => ?_⟩
    · have number := first.number
      rw [same, second.number] at number
      exact (Option.some.inj number).symm
    · exact ⟨_, _, first.number, second.number, rounded_le le⟩

/-- A tie below zero, written with the place that is farther from zero. -/
theorem format_rounded_tie :
    (Value.decimal (.finite true 25 (-7))).IsNumber ∧
      format (.decimal (.finite true 25 (-7))) = .ok "-0.000003" ∧
      Shows "-0.000003" (-3 / 10 ^ 6) := by
  have number : (Value.decimal (.finite true 25 (-7))).IsNumber := by
    change Decimal.InReach 25 (-7)
    exact Decimal.inReach_of_lt (k := 2) (by decide) (by decide) (by decide) (by decide)
  have amount : (Value.decimal (.finite true 25 (-7))).amount? = some (-25 / 10 ^ 7) := by
    rw [Value.amount?, Decimal.toRat?_finite]
    norm_num
  have value : rounded (-25 / 10 ^ 7) = -3 / 10 ^ 6 := by norm_num [rounded, millionths]
  have text : format (.decimal (.finite true 25 (-7))) = .ok "-0.000003" := by decide +kernel
  obtain ⟨s, written, shows⟩ := (format_rounded number).1 _ amount (by rw [value]; norm_num)
  rw [text] at written
  rw [value, ← Except.ok.inj written] at shows
  exact ⟨number, text, shows⟩

end Timecode

end Reel
