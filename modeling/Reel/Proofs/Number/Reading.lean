import Mathlib
import Reel.Number.Decimal
import Reel.Proofs.Number.Rounding

/-!
# Reading numerals back

A row of digits is read as the number that it shows, with a point as a number with decimal places,
and with an exponent as a number moved by that many places. Such texts hold no blanks, so nothing
is dropped before they are read.
-/
namespace Reel

/-- The characters of an unsigned numeral in its plainest form. -/
def isNumeralChar (c : Char) : Bool := c.isDigit || ['.', 'e', 'E', '+', '-'].contains c

theorem isNumeralChar_of_isDigit {c : Char} (h : c.isDigit = true) : isNumeralChar c = true := by
  rw [isNumeralChar, h, Bool.true_or]

theorem toNat_of_isDigit {c : Char} (h : c.isDigit = true) : 48 ≤ c.toNat ∧ c.toNat ≤ 57 := by
  simpa [Char.isDigit, UInt32.le_iff_toNat_le] using h

theorem toNat_of_isNumeralChar {c : Char} (h : isNumeralChar c = true) :
    (43 ≤ c.toNat ∧ c.toNat ≤ 57) ∨ c = 'e' ∨ c = 'E' := by
  rw [isNumeralChar, Bool.or_eq_true] at h
  rcases h with digit | mark
  · have := toNat_of_isDigit digit
    omega
  · simp only [List.contains_cons, List.contains_nil, Bool.or_false, Bool.or_eq_true,
      beq_iff_eq] at mark
    rcases mark with rfl | rfl | rfl | rfl | rfl <;> decide

theorem not_isBlank_of_isNumeralChar {c : Char} (h : isNumeralChar c = true) :
    Text.isBlank c = false := by
  rcases toNat_of_isNumeralChar h with range | rfl | rfl
  · simp [Text.isBlank]
    omega
  · decide
  · decide

theorem toLower_of_isDigit {c : Char} (h : c.isDigit = true) : c.toLower = c := by
  refine Char.toLower_eq_of_not_isUpper ?_
  simp only [Char.isDigit, Char.isUpper, Bool.and_eq_true, decide_eq_true_eq, ge_iff_le,
    UInt32.le_iff_toNat_le] at *
  have nine : '9'.val.toNat = 57 := rfl
  have letter : 'A'.val.toNat = 65 := rfl
  omega

theorem trim_eq_self {p : Char → Bool} {cs : List Char} (none : ∀ c ∈ cs, p c = false) :
    Text.trim p cs = cs := by
  have all {row : List Char} (none : ∀ c ∈ row, p c = false) : row.dropWhile p = row := by
    cases row with
    | nil => rfl
    | cons c rest => rw [List.dropWhile_cons, if_neg (by simp [none c])]
  rw [Text.trim, all none, all (by simpa using none), List.reverse_reverse]

theorem mapM_eq_self {α : Type} {f : α → Option α} {xs : List α} (each : ∀ x ∈ xs, f x = some x) :
    xs.mapM f = some xs := by
  induction xs with
  | nil => rfl
  | cons x rest ih =>
      rw [List.forall_mem_cons] at each
      rw [List.mapM_cons, each.1, ih each.2]
      rfl

namespace Numeral

variable {whole fraction rest digits : List Char} {c : Char}

def Stops (cs : List Char) : Prop := ∀ c ∈ cs.head?, c.isDigit = false

theorem span_digits (all : ∀ c ∈ digits, c.isDigit = true) (stops : Stops rest) :
    (digits ++ rest).takeWhile Char.isDigit = digits ∧
      (digits ++ rest).dropWhile Char.isDigit = rest := by
  rw [List.takeWhile_append_of_pos all, List.dropWhile_append_of_pos all]
  cases rest with
  | nil => simp
  | cons c rest =>
      have stop : c.isDigit = false := stops c rfl
      simp [stop]

theorem splitSign_digit (h : c.isDigit = true) (cs : List Char) :
    splitSign (c :: cs) = (false, c :: cs) := by
  have minus : c ≠ '-' := by
    rintro rfl
    revert h
    decide
  have plus : c ≠ '+' := by
    rintro rfl
    revert h
    decide
  unfold splitSign
  split
  · next eq => exact (minus (List.cons.inj eq).1).elim
  · next eq => exact (plus (List.cons.inj eq).1).elim
  · rfl

theorem read?_pointed (some : whole ≠ []) (front : ∀ c ∈ whole, c.isDigit = true)
    (behind : ∀ c ∈ fraction, c.isDigit = true) (stops : Stops rest) :
    read? (whole ++ '.' :: (fraction ++ rest)) =
      (readExponent? rest).map fun exponent =>
        { negative := false, coefficient := ofDigits (whole ++ fraction)
          exponent := exponent - fraction.length } := by
  obtain ⟨c, tail, rfl⟩ := List.exists_cons_of_ne_nil some
  have point : Stops ('.' :: (fraction ++ rest)) := by simp [Stops]
  obtain ⟨take, drop⟩ := span_digits front point
  obtain ⟨take', drop'⟩ := span_digits behind stops
  rw [List.cons_append, read?, splitSign_digit (front c (List.mem_cons_self ..)),
    ← List.cons_append]
  simp only [take, drop, take', drop', List.isEmpty_cons, Bool.false_and, Bool.false_eq_true,
    if_false]

theorem read?_whole (some : whole ≠ []) (front : ∀ c ∈ whole, c.isDigit = true)
    (stops : Stops rest) (pointless : rest.head? ≠ .some '.') :
    read? (whole ++ rest) =
      (readExponent? rest).map fun exponent =>
        { negative := false, coefficient := ofDigits whole, exponent } := by
  obtain ⟨c, tail, rfl⟩ := List.exists_cons_of_ne_nil some
  obtain ⟨take, drop⟩ := span_digits front stops
  rw [List.cons_append, read?, splitSign_digit (front c (List.mem_cons_self ..)),
    ← List.cons_append]
  simp only [take, drop]
  split
  · next tail => exact (pointless rfl).elim
  · simp

theorem readExponent?_signed {mark : Char} (marks : mark = 'e' ∨ mark = 'E') (negative : Bool)
    (some : digits ≠ []) (all : ∀ c ∈ digits, c.isDigit = true) :
    readExponent? (mark :: (if negative then '-' else '+') :: digits) =
      .some (if negative then -(ofDigits digits : Int) else ofDigits digits) := by
  have every : digits.all Char.isDigit = true := List.all_eq_true.mpr all
  have full : digits.isEmpty = false := by simpa using some
  rw [readExponent?, if_pos marks]
  cases negative <;> simp [readWhole?, splitSign, every, full]

theorem ofDigits_append (front behind : List Char) :
    ofDigits (front ++ behind) = Nat.ofDigitChars 10 behind (ofDigits front) :=
  Nat.ofDigitChars_append 0

@[simp] theorem ofDigits_toDigits (n : Nat) : ofDigits (Nat.toDigits 10 n) = n :=
  Nat.ofDigitChars_ten_toDigits

theorem ofDigits_zeros_append (k : Nat) (behind : List Char) :
    ofDigits (List.replicate k '0' ++ behind) = ofDigits behind := by
  rw [ofDigits_append, ofDigits, Nat.ofDigitChars_replicate_zero, Nat.mul_zero, ofDigits]

theorem ofDigits_append_zeros (front : List Char) (k : Nat) :
    ofDigits (front ++ List.replicate k '0') = ofDigits front * 10 ^ k := by
  rw [ofDigits_append, Nat.ofDigitChars_replicate_zero, Nat.mul_comm]

end Numeral

namespace Decimal

section Digit

variable {c : Char} {cs : List Char} (digit : c.isDigit = true)

include digit

theorem map_toLower_ne {d : Char} (letter : d.isDigit = false) (rest : List Char) :
    (c :: cs).map Char.toLower ≠ d :: rest := by
  rw [List.map_cons, toLower_of_isDigit digit]
  intro eq
  obtain rfl := (List.cons.inj eq).1
  rw [digit] at letter
  cases letter

theorem startsWith?_eq_none {word : String} {d : Char} {rest : List Char}
    (spelled : word.toList = d :: rest) (letter : d.isDigit = false) :
    startsWith? word (c :: cs) = none := by
  have size : word.length = rest.length + 1 := by
    rw [← String.length_toList, spelled, List.length_cons]
  refine if_neg ?_
  rw [size, List.take_succ_cons, spelled]
  exact map_toLower_ne digit letter rest

/-- A text that begins with a digit and holds characters of plain numerals only is read as the
numeral that it is. -/
theorem read?_ofList_cons (plain : ∀ d ∈ c :: cs, isNumeralChar d = true) :
    read? (String.ofList (c :: cs)) = (Numeral.read? (c :: cs)).bind ofNumeral? := by
  have kept : plain? (c :: cs) = some (c :: cs) := by
    have whole : Text.trim Text.isBlank (c :: cs) = c :: cs :=
      trim_eq_self fun d hd => not_isBlank_of_isNumeralChar (plain d hd)
    have grouped : (c :: cs).filter (· != '_') = c :: cs := by
      refine List.filter_eq_self.mpr fun d hd => ?_
      rw [bne_iff_ne]
      rintro rfl
      exact absurd (plain _ hd) (by decide)
    rw [plain?, whole, grouped]
    refine mapM_eq_self fun d hd => if_pos ?_
    have range := toNat_of_isNumeralChar (plain d hd)
    rw [Bool.and_eq_true, decide_eq_true_eq, decide_eq_true_eq]
    rcases range with range | rfl | rfl
    · omega
    · decide
    · decide
  have noNan : startsWith? "nan" (c :: cs) = none := startsWith?_eq_none digit rfl rfl
  have noSnan : startsWith? "snan" (c :: cs) = none := startsWith?_eq_none digit rfl rfl
  have noInf : (c :: cs).map Char.toLower ≠ "inf".toList := map_toLower_ne digit rfl _
  have noInfinity : (c :: cs).map Char.toLower ≠ "infinity".toList := map_toLower_ne digit rfl _
  rw [read?, String.toList_ofList, kept, Option.bind_some, Numeral.splitSign_digit digit]
  simp only [noNan, noSnan, noInf, noInfinity, decide_false, Bool.or_self, Bool.false_eq_true,
    if_false]

end Digit

/-- The coefficient and the exponent are not too far out for a decimal. -/
def InReach (coefficient : Nat) (exponent : Int) : Prop :=
  exponent + (if coefficient = 0 then 0 else (digitCount coefficient : Int) - 1) ≤ readTop ∧
    readBottom ≤ exponent

instance (coefficient : Nat) (exponent : Int) : Decidable (InReach coefficient exponent) :=
  inferInstanceAs (Decidable (_ ∧ _))

theorem inReach_of_lt {coefficient k : Nat} {exponent : Int} (some : 0 < k)
    (short : coefficient < 10 ^ k) (low : -10000 ≤ exponent) (high : exponent + k ≤ 100000) :
    InReach coefficient exponent := by
  have few : digitCount coefficient ≤ k := Rounding.digitCount_le (by omega) some short
  rw [InReach, readTop, readBottom]
  split <;> omega

theorem ofNumeral?_eq (x : Numeral) :
    ofNumeral? x = if InReach x.coefficient x.exponent then
      some (.finite x.negative x.coefficient x.exponent) else none := by
  unfold ofNumeral? InReach
  simp only [Bool.or_eq_true, decide_eq_true_eq]
  split_ifs <;> first | rfl | omega

section Texts

variable {whole fraction rest : List Char}

theorem forall_isNumeralChar {digits : List Char} (all : ∀ c ∈ digits, c.isDigit = true) :
    ∀ c ∈ digits, isNumeralChar c = true := fun c hc => isNumeralChar_of_isDigit (all c hc)

theorem read?_ofList (some : whole ≠ []) (front : ∀ c ∈ whole, c.isDigit = true)
    (plain : ∀ c ∈ rest, isNumeralChar c = true) :
    read? (String.ofList (whole ++ rest)) = (Numeral.read? (whole ++ rest)).bind ofNumeral? := by
  have all := List.forall_mem_append.mpr ⟨forall_isNumeralChar front, plain⟩
  obtain ⟨c, tail, rfl⟩ := List.exists_cons_of_ne_nil some
  exact read?_ofList_cons (front c (List.mem_cons_self ..)) all

/-- The text is read as a decimal of the given value, which has no sign. -/
def Reads (s : String) (q : ℚ) : Prop :=
  ∃ coefficient exponent, read? s = .some (.finite false coefficient exponent) ∧
    (coefficient : ℚ) * 10 ^ exponent = q

/-- Digits with a point among them, and perhaps an exponent behind them. -/
theorem read?_pointed (some : whole ≠ []) (front : ∀ c ∈ whole, c.isDigit = true)
    (behind : ∀ c ∈ fraction, c.isDigit = true) (stops : Numeral.Stops rest)
    (plain : ∀ c ∈ rest, isNumeralChar c = true) {n : Int}
    (exponent : Numeral.readExponent? rest = .some n)
    (fits : InReach (Numeral.ofDigits (whole ++ fraction)) (n - fraction.length)) :
    read? (String.ofList (whole ++ '.' :: (fraction ++ rest))) =
      .some (.finite false (Numeral.ofDigits (whole ++ fraction)) (n - fraction.length)) := by
  have all : ∀ c ∈ '.' :: (fraction ++ rest), isNumeralChar c = true := by
    rw [List.forall_mem_cons, List.forall_mem_append]
    exact ⟨by decide, forall_isNumeralChar behind, plain⟩
  rw [read?_ofList some front all, Numeral.read?_pointed some front behind stops, exponent]
  exact (ofNumeral?_eq _).trans (if_pos fits)

theorem read?_whole (some : whole ≠ []) (front : ∀ c ∈ whole, c.isDigit = true)
    (stops : Numeral.Stops rest) (plain : ∀ c ∈ rest, isNumeralChar c = true)
    (pointless : rest.head? ≠ .some '.') {n : Int}
    (exponent : Numeral.readExponent? rest = .some n)
    (fits : InReach (Numeral.ofDigits whole) n) :
    read? (String.ofList (whole ++ rest)) =
      .some (.finite false (Numeral.ofDigits whole) n) := by
  rw [read?_ofList some front plain, Numeral.read?_whole some front stops pointless, exponent]
  exact (ofNumeral?_eq _).trans (if_pos fits)

/-- Digits with a point among them are read as a number with as many places as stand behind it. -/
theorem read?_places (some : whole ≠ []) (front : ∀ c ∈ whole, c.isDigit = true)
    (behind : ∀ c ∈ fraction, c.isDigit = true)
    (fits : InReach (Numeral.ofDigits (whole ++ fraction)) (-fraction.length)) :
    read? (String.ofList (whole ++ '.' :: fraction)) =
      .some (.finite false (Numeral.ofDigits (whole ++ fraction)) (-fraction.length)) := by
  have stops : Numeral.Stops [] := by simp [Numeral.Stops]
  have text := read?_pointed (n := 0) some front behind stops (by simp) rfl (by simpa using fits)
  simpa using text

theorem read?_digits (some : whole ≠ []) (front : ∀ c ∈ whole, c.isDigit = true)
    (fits : InReach (Numeral.ofDigits whole) 0) :
    read? (String.ofList whole) = .some (.finite false (Numeral.ofDigits whole) 0) := by
  have stops : Numeral.Stops [] := by simp [Numeral.Stops]
  have text := read?_whole (n := 0) some front stops (by simp) (by simp) rfl fits
  simpa using text

/-- The two sides of a point in a row that is filled up with zeros at the front. -/
theorem pointed_eq (digits : List Char) {places : Nat} (some : places ≠ 0) :
    ∃ whole fraction, pointed digits places = whole ++ '.' :: fraction ∧ whole ≠ [] ∧
      fraction.length = places ∧
      whole ++ fraction = List.replicate (places + 1 - digits.length) '0' ++ digits := by
  let padded := List.replicate (places + 1 - digits.length) '0' ++ digits
  have long : places + 1 ≤ padded.length := by
    simp only [padded, List.length_append, List.length_replicate]
    omega
  refine ⟨padded.take (padded.length - places), padded.drop (padded.length - places), ?_, ?_, ?_,
    List.take_append_drop ..⟩
  · rw [pointed, if_neg some]
  · rw [Ne, List.take_eq_nil_iff, ← List.length_eq_zero_iff]
    omega
  · rw [List.length_drop]
    omega

theorem isDigit_of_mem_zeros_append {digits : List Char} (all : ∀ c ∈ digits, c.isDigit = true)
    (k : Nat) : ∀ c ∈ List.replicate k '0' ++ digits, c.isDigit = true := by
  rw [List.forall_mem_append]
  refine ⟨fun c hc => ?_, all⟩
  rw [List.eq_of_mem_replicate hc]
  decide

/-- A row of digits with a point in it is read with as many places, and perhaps moved by an
exponent behind it. -/
theorem read?_pointed_append {digits : List Char} (full : digits ≠ [])
    (all : ∀ c ∈ digits, c.isDigit = true) (places : Nat) (stops : Numeral.Stops rest)
    (plain : ∀ c ∈ rest, isNumeralChar c = true) (pointless : rest.head? ≠ .some '.') {n : Int}
    (exponent : Numeral.readExponent? rest = .some n)
    (fits : InReach (Numeral.ofDigits digits) (n - places)) :
    read? (String.ofList (pointed digits places ++ rest)) =
      .some (.finite false (Numeral.ofDigits digits) (n - places)) := by
  by_cases none : places = 0
  · subst none
    rw [Nat.cast_zero, sub_zero] at fits ⊢
    rw [pointed, if_pos rfl, read?_whole full all stops plain pointless exponent fits]
  · obtain ⟨whole, fraction, eq, front, length, padded⟩ := pointed_eq digits none
    have both := isDigit_of_mem_zeros_append all (places + 1 - digits.length)
    have value : Numeral.ofDigits (whole ++ fraction) = Numeral.ofDigits digits := by
      rw [padded, Numeral.ofDigits_zeros_append]
    rw [← padded, List.forall_mem_append] at both
    rw [eq, List.append_assoc, List.cons_append, read?_pointed front both.1 both.2 stops plain
      exponent (by rwa [value, length]), value, length]

theorem read?_ofList_pointed {digits : List Char} (full : digits ≠ [])
    (all : ∀ c ∈ digits, c.isDigit = true) (places : Nat)
    (fits : InReach (Numeral.ofDigits digits) (-places)) :
    read? (String.ofList (pointed digits places)) =
      .some (.finite false (Numeral.ofDigits digits) (-places)) := by
  have stops : Numeral.Stops [] := by simp [Numeral.Stops]
  have text := read?_pointed_append (n := 0) full all places stops (by simp) (by simp)
    rfl (by simpa using fits)
  simpa using text

end Texts

end Decimal

end Reel
