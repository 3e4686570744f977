import Reel.Dashboard.Duration
import Reel.Proofs.Graph.Bounds
import Reel.Proofs.Number.Positional

/-!
# The faces of a duration

A duration is written in one of three faces, whose numbers can be read off the text again. A face
is in order if its seconds and its minutes stay below sixty. Seconds are written with the nearest
tenth, so that the face of a number of minutes is known; a sign would be seen in the text.
-/
namespace Reel

namespace Duration

/-- What a duration is shown as, with its seconds in tenths. -/
inductive Face where
  | seconds (tenths : ℕ)
  | minutes (m tenths : ℕ)
  | hours (h m tenths : ℕ)

def twoDigits (n : ℕ) : String := zeroFilled 2 (toString n)

namespace Face

def text : Face → String
  | .seconds t => toString (t / 10) ++ "." ++ toString (t % 10) ++ "s"
  | .minutes m t => toString m ++ "m " ++ twoDigits (t / 10) ++ "." ++ toString (t % 10) ++ "s"
  | .hours h m t =>
    toString h ++ "h " ++ twoDigits m ++ "m " ++ twoDigits (t / 10) ++ "." ++
      toString (t % 10) ++ "s"

/-- The unit is the greatest of which there is one, and less than one of it is left. -/
def InOrder : Face → Prop
  | .seconds t => t < 600
  | .minutes m t => 1 ≤ m ∧ m < 60 ∧ t < 600
  | .hours h m t => 1 ≤ h ∧ m < 60 ∧ t < 600

def value : Face → ℚ
  | .seconds t => t / 10
  | .minutes m t => 60 * m + t / 10
  | .hours h m t => 3600 * h + 60 * m + t / 10

end Face

/-- The text shows an amount of seconds in order, and to a twentieth of a second. -/
def Shows (text : String) (v : ℚ) : Prop :=
  ∃ face : Face, text = face.text ∧ face.InOrder ∧ |face.value - v| ≤ 1 / 20

/-- The numbers in a text, one for each run of digits. -/
def numbers (cs : List Char) : List ℕ :=
  ((cs.splitOnP fun c => !c.isDigit).filter fun run => !run.isEmpty).map Numeral.ofDigits

section Reading

variable {c : Char} {digits : List Char}

theorem numbers_mark (mark : c.isDigit = false) (rest : List Char) :
    numbers (c :: rest) = numbers rest := by
  have none : ∀ c ∈ ([] : List Char), (fun c : Char => !c.isDigit) c = false := by simp
  have cut := List.splitOnP_append_cons_of_forall_mem none c (by simpa using mark) rest
  rw [List.nil_append] at cut
  rw [numbers, cut]
  rfl

theorem numbers_digits (some : digits ≠ []) (all : ∀ c ∈ digits, c.isDigit = true)
    (mark : c.isDigit = false) (rest : List Char) :
    numbers (digits ++ c :: rest) = Numeral.ofDigits digits :: numbers rest := by
  have none : ∀ c ∈ digits, (fun c : Char => !c.isDigit) c = false := by simpa using all
  have cut := List.splitOnP_append_cons_of_forall_mem none c (by simpa using mark) rest
  rw [numbers, cut, List.filter_cons_of_pos (by simpa using some)]
  rfl

theorem numbers_toDigits (n : ℕ) (mark : c.isDigit = false) (rest : List Char) :
    numbers (Nat.toDigits 10 n ++ c :: rest) = n :: numbers rest := by
  rw [numbers_digits Nat.toDigits_ne_nil (Numeral.isDigit_of_mem_toDigits n) mark,
    Numeral.ofDigits_toDigits]

theorem toList_zeroFilled {s : String} (unsigned : s.toList.head? ≠ some '-') (width : ℕ) :
    (zeroFilled width s).toList =
      List.replicate (width - s.toList.length) '0' ++ s.toList := by
  unfold zeroFilled
  dsimp only
  rw [String.toList_ofList]
  split
  · next signed =>
      rw [signed] at unsigned
      exact absurd rfl unsigned
  · rfl

theorem head?_append_ne_minus (all : ∀ c ∈ digits, c.isDigit = true) (some : digits ≠ [])
    (rest : List Char) : (digits ++ rest).head? ≠ .some '-' := by
  rw [List.head?_append_of_ne_nil _ some]
  intro head
  exact absurd (all _ (List.mem_of_mem_head? head)) (by decide)

theorem toList_twoDigits (n : ℕ) : (twoDigits n).toList =
    List.replicate (2 - (Nat.toDigits 10 n).length) '0' ++ Nat.toDigits 10 n := by
  have spelled : (toString n).toList = Nat.toDigits 10 n := Nat.toList_repr
  have unsigned := head?_append_ne_minus (Numeral.isDigit_of_mem_toDigits n)
    Nat.toDigits_ne_nil []
  rw [List.append_nil] at unsigned
  rw [twoDigits, toList_zeroFilled (by rwa [spelled]), spelled]

theorem numbers_twoDigits (n : ℕ) (mark : c.isDigit = false) (rest : List Char) :
    numbers ((twoDigits n).toList ++ c :: rest) = n :: numbers rest := by
  rw [toList_twoDigits, numbers_digits (by simp [Nat.toDigits_ne_nil])
    (Decimal.isDigit_of_mem_zeros_append (Numeral.isDigit_of_mem_toDigits n) _) mark,
    Numeral.ofDigits_zeros_append, Numeral.ofDigits_toDigits]

end Reading

namespace Face

def parts : Face → List ℕ
  | .seconds t => [t / 10, t % 10]
  | .minutes m t => [m, t / 10, t % 10]
  | .hours h m t => [h, m, t / 10, t % 10]

theorem numbers_text (face : Face) : numbers face.text.toList = face.parts := by
  have nothing : numbers [] = [] := rfl
  cases face with
  | seconds t =>
      simp [text, parts, numbers_toDigits, nothing, show Char.isDigit '.' = false by decide,
        show Char.isDigit 's' = false by decide]
  | minutes m t => simp [text, parts, numbers_toDigits, numbers_twoDigits, numbers_mark, nothing]
  | hours h m t => simp [text, parts, numbers_toDigits, numbers_twoDigits, numbers_mark, nothing]

theorem text_injective : Function.Injective text := by
  intro a b same
  have parts : a.parts = b.parts := by rw [← numbers_text, ← numbers_text, same]
  cases a <;> cases b <;> grind [Face.parts]

end Face

open Double Rounding

theorem zeroFilled_pointed {b : ℕ} (digit : b < 10) (a : ℕ) :
    zeroFilled 4 (toString a ++ "." ++ toString b) = twoDigits a ++ "." ++ toString b := by
  have front : (toString a).toList = Nat.toDigits 10 a := Nat.toList_repr
  have behind : (toString b).toList = [b.digitChar] :=
    Nat.toList_repr.trans (Nat.toDigits_of_lt_base digit)
  have all : (toString a ++ "." ++ toString b).toList =
      Nat.toDigits 10 a ++ ['.', b.digitChar] := by
    rw [String.toList_append, String.toList_append, front, behind, List.append_assoc]
    rfl
  have unsigned := head?_append_ne_minus (Numeral.isDigit_of_mem_toDigits a)
    Nat.toDigits_ne_nil ['.', b.digitChar]
  apply String.toList_injective
  rw [toList_zeroFilled (by rwa [all]), all]
  simp [toList_twoDigits, Nat.toDigits_of_lt_base digit]

/-- The tenths that a number of seconds is rounded to. -/
def tenths (r : ℚ) : ℕ := nearest .toEven (r.num.natAbs * 10) r.den

variable {r : ℚ}

theorem tenths_quotient (nonneg : 0 ≤ r) : ((r.num.natAbs * 10 : ℕ) : ℚ) / r.den = 10 * r := by
  rw [Nat.cast_mul, Nat.cast_natAbs, abs_of_nonneg (Rat.num_nonneg.mpr nonneg), mul_comm,
    mul_div_assoc, Rat.num_div_den]
  norm_num

theorem abs_tenths_sub_le (nonneg : 0 ≤ r) : |(tenths r : ℚ) / 10 - r| ≤ 1 / 20 := by
  have near := abs_nearest_sub_le .toEven (r.num.natAbs * 10) r.den_pos
  rw [tenths_quotient nonneg] at near
  have := abs_le.mp near
  rw [tenths, abs_le]
  constructor <;> linarith

theorem tenths_lt_iff (nonneg : 0 ≤ r) : tenths r < 600 ↔ r < 1199 / 20 := by
  have near := abs_le.mp (abs_nearest_sub_le .toEven (r.num.natAbs * 10) r.den_pos)
  rw [tenths_quotient nonneg, ← tenths] at near
  constructor
  · intro less
    have most : (tenths r : ℚ) ≤ 599 := by exact_mod_cast Nat.le_of_lt_succ less
    by_contra reach
    have tie : 10 * r = 599 + 1 / 2 := by linarith
    have even : tenths r % 2 = 0 := by
      refine even_nearest_of_tie (k := 599) ?_
      have den : (r.den : ℚ) ≠ 0 := by exact_mod_cast r.den_nz
      have halfway : ((r.num.natAbs * 10 : ℕ) : ℚ) = (599 + 1 / 2) * r.den := by
        rw [← tie, ← tenths_quotient nonneg, div_mul_cancel₀ _ den]
      have twice : ((2 * (r.num.natAbs * 10) : ℕ) : ℚ) = ((2 * 599 + 1) * r.den : ℕ) := by
        push_cast at halfway ⊢
        linarith
      exact_mod_cast twice
    have least : (598 : ℚ) < tenths r := by linarith
    have least : 598 < tenths r := by exact_mod_cast least
    omega
  · intro below
    have less : (tenths r : ℚ) < 600 := by linarith
    exact_mod_cast less

theorem fixedDigits_one (r : ℚ) : Double.fixedDigits 1 r =
    Nat.toDigits 10 (tenths r / 10) ++ ['.', (tenths r % 10).digitChar] := by
  have units : nearest .toEven (r.num.natAbs * Nat.pow 10 1) r.den = tenths r := rfl
  rw [Double.fixedDigits, units]
  rcases Nat.lt_or_ge (tenths r) 10 with single | more
  · rw [Nat.toDigits_of_lt_base single, Nat.div_eq_of_lt single, Nat.mod_eq_of_lt single]
    rfl
  · have filled : 2 - (Nat.toDigits 10 (tenths r)).length = 0 := by
      have positive := Nat.length_toDigits_pos (b := 10) (n := tenths r / 10)
      rw [Nat.toDigits_of_base_le (by omega) more, List.length_append, List.length_singleton]
      omega
    rw [Double.zeros, filled, Nat.toDigits_of_base_le (by omega) more]
    simp

theorem fixed_of_nonneg (nonneg : 0 ≤ r) :
    (Double.finite r).fixed 1 = toString (tenths r / 10) ++ "." ++ toString (tenths r % 10) := by
  have unsigned : (Double.finite r).fixed 1 = String.ofList (Double.fixedDigits 1 r) :=
    congrArg String.ofList (if_neg (by simpa [Double.negative] using nonneg))
  rw [unsigned, fixedDigits_one]
  apply String.toList_injective
  simp [Nat.toDigits_of_lt_base (Nat.mod_lt (tenths r) (show 0 < 10 by omega))]

theorem fixed_of_neg (neg : r < 0) (places : ℕ) :
    (Double.finite r).fixed places = String.ofList ('-' :: Double.fixedDigits places r) :=
  congrArg String.ofList (if_pos (by simpa [Double.negative] using neg))

namespace Face

/-- Minutes from one on, or as hours and minutes. -/
def ofMinutes (m t : ℕ) : Face := if m < 60 then .minutes m t else .hours (m / 60) (m % 60) t

variable {m t : ℕ}

theorem value_ofMinutes (m t : ℕ) : (ofMinutes m t).value = 60 * m + t / 10 := by
  unfold ofMinutes
  split
  · rfl
  · have whole : ((60 * (m / 60) + m % 60 : ℕ) : ℚ) = m := by rw [Nat.div_add_mod]
    push_cast at whole
    rw [value, ← whole]
    ring

theorem inOrder_ofMinutes : (ofMinutes m t).InOrder ↔ 1 ≤ m ∧ t < 600 := by
  unfold ofMinutes
  split
  · next few => simp [InOrder, few]
  · next many =>
      have some : 1 ≤ m / 60 := (Nat.one_le_div_iff (by omega)).mpr (by omega)
      simp [InOrder, some, Nat.mod_lt m (show 0 < 60 by omega), show 1 ≤ m by omega]

end Face

theorem inMinutes_of_nonneg {m : ℕ} (nonneg : 0 ≤ r)
    (legible : (Value.int (m / 60 : ℕ)).isLegible = true) :
    inMinutes m ((Double.finite r).fixed 1) = .ok (Face.ofMinutes m (tenths r)).text := by
  have hours : (m : ℤ) / 60 = (m / 60 : ℕ) := by omega
  have rest : (m : ℤ) - (m / 60 : ℕ) * 60 = (m % 60 : ℕ) := by omega
  rw [fixed_of_nonneg nonneg, inMinutes, zeroFilled_pointed (by omega), Face.ofMinutes]
  by_cases few : m < 60
  · rw [if_pos few, if_pos (by exact_mod_cast few)]
    simp [Face.text, String.append_assoc]
    rfl
  · rw [if_neg few, if_neg (by exact_mod_cast few)]
    dsimp only
    rw [hours, Value.toText_int legible, rest]
    simp [Face.text, String.append_assoc]
    rfl

theorem Face.minus_notMem (face : Face) : '-' ∉ face.text.toList := by
  have digits (n : ℕ) : '-' ∉ Nat.toDigits 10 n := fun member =>
    absurd (Numeral.isDigit_of_mem_toDigits n _ member) (by decide)
  cases face <;> simp [text, toList_twoDigits, digits]

theorem minus_mem_of_inMinutes {m : ℤ} {s text : String} (h : inMinutes m s = .ok text)
    (signed : '-' ∈ s.toList) : '-' ∈ text.toList := by
  have filled : '-' ∈ (zeroFilled 4 s).toList := by
    unfold zeroFilled
    dsimp only
    rw [String.toList_ofList]
    split
    · exact List.mem_cons_self
    · exact List.mem_append_right _ signed
  rw [inMinutes] at h
  dsimp only at h
  split at h
  · obtain rfl := Except.ok.inj h
    simp [filled]
  · obtain ⟨hours, -, h⟩ := exists_of_bind_ok h
    obtain rfl := Except.ok.inj h
    simp [filled]

theorem inMinutes_of_long {m : ℕ} (long : (Value.int (m / 60 : ℕ)).isLegible = false)
    (s : String) : ∃ e, inMinutes m s = .error e := by
  have hours : (m : ℤ) / 60 = (m / 60 : ℕ) := by omega
  have many : ¬(m : ℤ) < 60 := by
    intro few
    rw [Nat.div_eq_of_lt (by omega), isLegible_small (by decide)] at long
    cases long
  rw [inMinutes]
  dsimp only
  rw [if_neg many, hours, Value.toText, long]
  exact ⟨_, rfl⟩

theorem eq_of_inMinutes {m : ℕ} {r : ℚ} {text : String} (nonneg : 0 ≤ r)
    (h : inMinutes m ((Double.finite r).fixed 1) = .ok text) :
    text = (Face.ofMinutes m (tenths r)).text := by
  cases legible : (Value.int (m / 60 : ℕ)).isLegible with
  | true =>
      rw [inMinutes_of_nonneg nonneg legible] at h
      exact (Except.ok.inj h).symm
  | false =>
      obtain ⟨e, refused⟩ := inMinutes_of_long legible ((Double.finite r).fixed 1)
      rw [refused] at h
      cases h

end Duration

end Reel
