import Reel.Proofs.Number.Range
import Reel.Proofs.Number.Shortest

/-!
# Numbers with a sign

Rounding and writing treat a negative number like the positive one, with a sign in front. So what
is known of the texts of positive doubles holds for all: the text of a double is read as a decimal.
-/
namespace Reel

section Blanks

variable {p : Char → Bool} {c : Char} (shown : p c = false)

include shown

theorem dropWhile_shown (cs : List Char) : (c :: cs).dropWhile p = c :: cs := by
  rw [List.dropWhile_cons, if_neg (by simp [shown])]

theorem dropEnd_cons (cs : List Char) :
    ((c :: cs).reverse.dropWhile p).reverse = c :: (cs.reverse.dropWhile p).reverse := by
  rw [List.reverse_cons, List.dropWhile_append, dropWhile_shown shown]
  split
  · next none =>
      rw [List.isEmpty_iff.mp none]
      rfl
  · rw [List.reverse_append]
    rfl

theorem trim_cons (cs : List Char) :
    Text.trim p (c :: cs) = c :: (cs.reverse.dropWhile p).reverse := by
  rw [Text.trim, dropWhile_shown shown, dropEnd_cons shown]

end Blanks

namespace Decimal

/-- A value that no operation on decimals takes. -/
def isSignaling : Decimal → Bool
  | .nan _ signaling _ => signaling
  | _ => false

def isNaN : Decimal → Bool
  | .nan .. => true
  | _ => false

theorem toRat?_finite (negative : Bool) (c : Nat) (e : Int) :
    (finite negative c e).toRat? =
      some (if negative then -((c : ℚ) * 10 ^ e) else (c : ℚ) * 10 ^ e) := by
  rw [toRat?, Rounding.scaled_eq (by omega)]
  rfl

variable {c : Char} (digit : c.isDigit = true)

include digit

/-- What begins with a digit is plain from its first character on, a sign in front of it or not. -/
theorem plain?_signed (cs : List Char) : ∃ rest : Option (List Char),
    plain? (c :: cs) = rest.map (c :: ·) ∧ plain? ('-' :: c :: cs) = rest.map ('-' :: c :: ·) := by
  have shown := not_isBlank_of_isNumeralChar (isNumeralChar_of_isDigit digit)
  have range := toNat_of_isDigit digit
  have kept : (c != '_') = true := by
    rw [bne_iff_ne]
    rintro rfl
    revert digit
    decide
  have plain : (0 < c.toNat && c.toNat < 128) = true := by
    rw [Bool.and_eq_true, decide_eq_true_eq, decide_eq_true_eq]
    omega
  have sign : (0 < '-'.toNat && '-'.toNat < 128) = true := by decide
  refine ⟨((cs.reverse.dropWhile Text.isBlank).reverse.filter (· != '_')).mapM fun d =>
    if 0 < d.toNat && d.toNat < 128 then some d else (Text.digit? d).map Nat.digitChar, ?_, ?_⟩
  · rw [plain?, trim_cons shown, List.filter_cons, if_pos kept, List.mapM_cons, if_pos plain]
    simp only [Option.bind_eq_bind, Option.bind_some, Option.pure_def, Option.map_eq_bind,
      Function.comp_def]
  · rw [plain?, trim_cons (by decide), dropEnd_cons shown, List.filter_cons_of_pos (by decide),
      List.filter_cons, if_pos kept, List.mapM_cons, List.mapM_cons, if_pos plain, if_pos sign]
    simp only [Option.bind_eq_bind, Option.bind_some, Option.pure_def, Option.map_eq_bind,
      Function.comp_def, Option.bind_assoc]

/-- The numeral behind a sign is the one without it, which has none. -/
theorem numeral_minus (cs : List Char) :
    Numeral.read? ('-' :: c :: cs) =
        (Numeral.read? (c :: cs)).map (fun n => { n with negative := true }) ∧
      ∀ n ∈ Numeral.read? (c :: cs), n.negative = false := by
  have sign : Numeral.splitSign ('-' :: c :: cs) = (true, c :: cs) := rfl
  rw [Numeral.read?, sign, Numeral.read?, Numeral.splitSign_digit digit]
  dsimp only
  split
  all_goals
    dsimp only
    split
    · exact ⟨rfl, by simp⟩
    · constructor
      · rw [Option.map_map]
        rfl
      · intro n hn
        obtain ⟨e, -, rfl⟩ := Option.map_eq_some_iff.mp hn
        rfl

/-- A sign in front of a text that begins with a digit turns the sign of what is read. -/
theorem read?_minus (cs : List Char) :
    read? (String.ofList ('-' :: c :: cs)) = (read? (String.ofList (c :: cs))).map neg := by
  obtain ⟨rest, plain, signed⟩ := plain?_signed digit cs
  have written (row : List Char) : (String.ofList row).toList = row := String.toList_ofList
  rw [read?, written ('-' :: c :: cs), signed, read?, written (c :: cs), plain]
  cases rest with
  | none => rfl
  | some rest =>
      have noNan : startsWith? "nan" (c :: rest) = none := startsWith?_eq_none digit rfl rfl
      have noSnan : startsWith? "snan" (c :: rest) = none := startsWith?_eq_none digit rfl rfl
      have noInf : (c :: rest).map Char.toLower ≠ "inf".toList := map_toLower_ne digit rfl _
      have noInfinity : (c :: rest).map Char.toLower ≠ "infinity".toList :=
        map_toLower_ne digit rfl _
      have sign : Numeral.splitSign ('-' :: c :: rest) = (true, c :: rest) := rfl
      obtain ⟨turned, positive⟩ := numeral_minus digit rest
      simp only [Option.map_some, Option.bind_some, sign, Numeral.splitSign_digit digit, noNan,
        noSnan, noInf, noInfinity, decide_false, Bool.or_self, Bool.false_eq_true, if_false,
        turned]
      cases read : Numeral.read? (c :: rest) with
      | none => rfl
      | some n =>
          simp only [Option.map_some, Option.bind_some, ofNumeral?, positive n read]
          split_ifs <;> rfl

end Decimal

namespace Double

variable {v q : ℚ}

theorem neg_signedZero (sign : Bool) : (signedZero sign).neg = signedZero !sign := by
  cases sign <;> rfl

theorem round_neg (hq : q ≠ 0) : round (-q) = (round q).neg := by
  have sign : decide (-q < 0) = !decide (q < 0) := by
    rcases hq.lt_or_gt with neg | pos
    · simp [neg, neg.le]
    · simp [pos, pos.le]
  unfold round
  simp only [neg_eq_zero, hq, if_false, Rat.neg_num, Int.natAbs_neg, Rat.neg_den, sign]
  generalize lastPlace q.num.natAbs q.den = e
  generalize Rounding.nearest .toEven _ _ = m
  split
  · rw [neg_signedZero]
  split
  · rfl
  · next some _ =>
      have large : Rounding.scaled 2 m e ≠ 0 := by
        rw [Rounding.scaled_eq (by omega)]
        have := Nat.pos_of_ne_zero some
        positivity
      cases decide (q < 0) <;> simp [neg, large]

/-- The number is one of the format: rounding keeps it. -/
def Genuine : Double → Prop
  | .finite v => round v = .finite v
  | _ => True

instance : DecidablePred Genuine
  | .finite v => inferInstanceAs (Decidable (round v = .finite v))
  | .nan | .infinite _ | .negZero => .isTrue trivial

theorem genuine_neg {v : ℚ} (hv : v ≠ 0) (h : (finite v).Genuine) : (finite (-v)).Genuine := by
  change round (-v) = .finite (-v)
  rw [round_neg hv, show round v = .finite v from h, neg, if_neg hv]

section Front

variable {digits : List Char} (full : digits ≠ []) (all : ∀ c ∈ digits, c.isDigit = true)

include full all

theorem positional_digit (e : Int) :
    ∃ c cs, positional digits e = c :: cs ∧ c.isDigit = true := by
  unfold positional
  split
  · obtain ⟨c, tail, rfl⟩ := List.exists_cons_of_ne_nil full
    exact ⟨c, _, rfl, all c (List.mem_cons_self ..)⟩
  · next below =>
      have places : (-e).toNat ≠ 0 := by omega
      obtain ⟨whole, fraction, eq, front, -, padded⟩ := Decimal.pointed_eq digits places
      have both := Decimal.isDigit_of_mem_zeros_append all ((-e).toNat + 1 - digits.length)
      rw [← padded, List.forall_mem_append] at both
      obtain ⟨c, tail, rfl⟩ := List.exists_cons_of_ne_nil front
      rw [Decimal.pointed, if_neg places] at eq
      exact ⟨c, _, eq, both.1 c (List.mem_cons_self ..)⟩

theorem scientific_digit (top : Int) :
    ∃ c cs, scientific digits top = c :: cs ∧ c.isDigit = true := by
  obtain ⟨c, tail, rfl⟩ := List.exists_cons_of_ne_nil full
  exact ⟨c, _, rfl, all c (List.mem_cons_self ..)⟩

end Front

theorem text_digit (hv : 0 < v) :
    ∃ c cs, (text (.finite v)).toList = c :: cs ∧ c.isDigit = true := by
  have all : ∀ c ∈ Nat.toDigits 10 (shortest v).digits, c.isDigit = true :=
    fun c hc => Nat.isDigit_of_mem_toDigits (by decide) (by decide) hc
  rw [text]
  simp only [hv.ne', not_lt.mpr hv.le, if_false, String.toList_ofList]
  split
  · exact positional_digit Nat.toDigits_ne_nil all _
  · exact scientific_digit Nat.toDigits_ne_nil all _

theorem text_neg (hv : 0 < v) :
    text (.finite (-v)) = String.ofList ('-' :: (text (.finite v)).toList) := by
  rw [text, text]
  simp only [neg_eq_zero, hv.ne', neg_lt_zero, hv, not_lt.mpr hv.le, if_true, if_false, neg_neg,
    String.toList_ofList]

/-- The number that the text of a double shows, if it shows one. -/
def shown? : Double → Option ℚ
  | .finite v =>
    some (if v = 0 then 0 else if v < 0 then -(shortest (-v)).value else (shortest v).value)
  | .negZero => some 0
  | _ => none

/-- The text of a double is read as a decimal that is the number shown, and is no signaling one. -/
theorem exists_read_text {x : Double} (h : x.Genuine) :
    ∃ d, Decimal.read? x.text = some d ∧ d.isSignaling = false ∧ d.isNaN = x.isNaN ∧
      d.toRat? = x.shown? := by
  cases x with
  | nan => exact ⟨.nan false false 0, by decide +kernel, rfl, rfl, rfl⟩
  | infinite sign =>
      refine ⟨.infinite sign, ?_, rfl, rfl, rfl⟩
      cases sign <;> decide +kernel
  | negZero => exact ⟨.finite true 0 (-1), by decide +kernel, rfl, rfl, by decide +kernel⟩
  | finite v =>
      rcases lt_trichotomy v 0 with below | rfl | above
      · obtain ⟨w, rfl⟩ : ∃ w, v = -w := ⟨-v, (neg_neg v).symm⟩
        have positive : 0 < w := neg_lt_zero.mp below
        have kept : (finite w).Genuine := neg_neg w ▸ genuine_neg (neg_ne_zero.mpr positive.ne') h
        obtain ⟨c, cs, front, digit⟩ := text_digit positive
        obtain ⟨m, e, read, value⟩ := reads_text positive kept
        rw [← String.ofList_toList (s := text (.finite w)), front] at read
        refine ⟨.finite true m e, ?_, rfl, rfl, ?_⟩
        · rw [text_neg positive, front, Decimal.read?_minus digit, read]
          rfl
        · rw [Decimal.toRat?_finite, if_pos rfl, value, shown?, if_neg below.ne, if_pos below,
            neg_neg]
      · exact ⟨.finite false 0 (-1), by decide +kernel, rfl, rfl, by decide +kernel⟩
      · obtain ⟨m, e, read, value⟩ := reads_text above h
        refine ⟨.finite false m e, read, rfl, rfl, ?_⟩
        rw [Decimal.toRat?_finite, if_neg Bool.false_ne_true, value, shown?, if_neg above.ne',
          if_neg (not_lt.mpr above.le)]

end Double

end Reel
