import Reel.Number.Shortest
import Reel.Proofs.Number.Reading
import Reel.Proofs.Number.Rounding

/-!
# The shortest text of a double

On the grid of seventeen digits a neighbour of a double is near enough to go back to it, so the
search for the shortest decimal ends with one that does. The text of the double is read as that
decimal, whichever way it is written.
-/
namespace Reel.Double

open Rounding

variable {v : ℚ} {x : Decimals} {e top : Int} {steps places : Nat}

theorem Decimals.value_eq (x : Decimals) : x.value = x.digits * 10 ^ x.exponent :=
  scaled_eq (by omega) _ _

theorem Decimals.value_reduce (x : Decimals) : x.reduce.value = x.value := by
  unfold reduce
  split
  · next zero =>
      have whole : x.digits = x.digits / 10 * 10 := by omega
      rw [value_eq, value_eq, zpow_add_one₀ (by norm_num)]
      conv_rhs => rw [whole]
      push_cast
      ring
  · rfl

theorem exponent_of_mem_neighbours (h : x ∈ neighbours v e) : x.exponent = e := by
  unfold neighbours at h
  dsimp only at h
  split at h <;> rcases List.mem_pair.mp h with rfl | rfl <;> rfl

theorem shifted_num (hv : 0 < v) (e : Int) :
    ((v.num.natAbs * Nat.pow 10 (-e).toNat : ℕ) : ℚ) / (v.den * Nat.pow 10 e.toNat : ℕ) =
      v / 10 ^ e := by
  rw [shifted_eq (by omega), Nat.cast_natAbs, abs_of_pos (Rat.num_pos.mpr hv), Rat.num_div_den]
  rfl

theorem shifted_den_pos (v : ℚ) (e : Int) : 0 < v.den * Nat.pow 10 e.toNat :=
  Nat.mul_pos v.den_pos (Nat.pow_pos (by omega))

theorem digits_of_mem_neighbours (hv : 0 < v) (h : x ∈ neighbours v e) :
    (x.digits : ℚ) ≤ v / 10 ^ e + 1 := by
  have floor : (((v.num.natAbs * Nat.pow 10 (-e).toNat) / (v.den * Nat.pow 10 e.toNat) : ℕ) : ℚ) ≤
      v / 10 ^ e := by
    rw [← shifted_num hv]
    exact Nat.cast_div_le
  unfold neighbours at h
  dsimp only at h
  split at h <;> rcases List.mem_pair.mp h with rfl | rfl
  all_goals
    dsimp only
    push_cast
    linarith

/-- The nearer neighbour lies at most half a unit of its grid away. -/
theorem exists_near_neighbour (hv : 0 < v) (e : Int) :
    ∃ x ∈ neighbours v e, |x.value - v| ≤ 10 ^ e / 2 := by
  let n := v.num.natAbs * Nat.pow 10 (-e).toNat
  let d := v.den * Nat.pow 10 e.toNat
  have unit : (0 : ℚ) < 10 ^ e := by positivity
  have mem : (⟨nearest .toEven n d, e⟩ : Decimals) ∈ neighbours v e := by
    unfold neighbours
    dsimp only
    split
    · next below => exact List.mem_pair.mpr (.inl (by rw [below]))
    · next above =>
        have next := (nearest_eq_or .toEven n d).resolve_left above
        exact List.mem_pair.mpr (.inl (by rw [next]))
  have close := abs_nearest_sub_le .toEven n (shifted_den_pos v e)
  rw [shifted_num hv] at close
  refine ⟨_, mem, ?_⟩
  rw [Decimals.value_eq]
  dsimp only
  rw [show (nearest .toEven n d : ℚ) * 10 ^ e - v = (nearest .toEven n d - v / 10 ^ e) * 10 ^ e by
    field_simp, abs_mul, abs_of_pos unit]
  linarith [mul_le_mul_of_nonneg_right close unit.le]

theorem shortestFrom_spec (found : shortestFrom v top steps places = some x) :
    round x.value = .finite v ∧
      ∃ p, places ≤ p ∧ p < places + steps ∧ x ∈ neighbours v (top - p + 1) := by
  induction steps generalizing places with
  | zero => cases found
  | succ steps ih =>
      rw [shortestFrom] at found
      split at found
      · next y hit =>
          obtain rfl := Option.some.inj found
          exact ⟨by simpa using List.find?_some hit, places, le_rfl, by omega,
            List.mem_of_find?_eq_some hit⟩
      · obtain ⟨same, p, low, high, mem⟩ := ih found
        exact ⟨same, p, by omega, by omega, mem⟩

theorem exists_shortestFrom {p : Nat} (low : places ≤ p) (high : p < places + steps)
    (mem : x ∈ neighbours v (top - p + 1)) (same : round x.value = .finite v) :
    ∃ y, shortestFrom v top steps places = some y := by
  induction steps generalizing places with
  | zero => omega
  | succ steps ih =>
      rw [shortestFrom]
      split
      · next y _ => exact ⟨y, rfl⟩
      · next miss =>
          rcases low.eq_or_lt with rfl | low
          · have none := List.find?_eq_none.mp miss x mem
            simp [same] at none
          · exact ih low (by omega)

/-- What the search finds: a decimal of at most seventeen digits that goes back to the double. -/
structure Found (v : ℚ) (x : Decimals) : Prop where
  same : round x.value = .finite v
  few : x.digits ≤ 10 ^ 17 + 1
  low : Int.log 10 v - 16 ≤ x.exponent
  high : x.exponent ≤ Int.log 10 v + 1

theorem magnitude_ten (hv : 0 < v) :
    Rounding.magnitude 10 v.num.natAbs v.den = Int.log 10 v := by
  have nonzero : v.num.natAbs ≠ 0 := Int.natAbs_ne_zero.mpr (Rat.num_ne_zero.mpr hv.ne')
  rw [magnitude_eq (by omega) nonzero v.den_nz, Nat.cast_natAbs,
    abs_of_pos (Rat.num_pos.mpr hv), Rat.num_div_den]

theorem shortest_found (hv : 0 < v) (kept : round v = .finite v) : Found v (shortest v) := by
  have unit : (0 : ℚ) < 10 ^ (Int.log 10 v - 16) := by positivity
  have lead : (10 : ℚ) ^ (Int.log 10 v - 16) * 10 ^ 16 ≤ v := by
    have whole := Int.zpow_log_le_self (b := 10) (by omega) hv
    rw [Nat.cast_ofNat] at whole
    rwa [← zpow_natCast, ← zpow_add₀ (by norm_num), Nat.cast_ofNat, sub_add_cancel]
  obtain ⟨near, mem, close⟩ := exists_near_neighbour hv (Int.log 10 v - 16)
  have positive : 0 < near.value := by
    have := abs_le.mp close
    linarith
  have back : round near.value = .finite v := by
    refine round_eq_of_close hv kept positive ?_
    linarith
  have place : Int.log 10 v - 16 = Int.log 10 v - ((17 : ℕ) : ℤ) + 1 := by
    push_cast
    ring
  rw [place] at mem
  obtain ⟨x, found⟩ := exists_shortestFrom (by omega : 1 ≤ 17) (by omega : 17 < 1 + 17) mem back
  have result : shortest v = x.reduce := by
    rw [shortest, magnitude_ten hv]
    simp only [found, Option.getD_some]
  obtain ⟨same, p, low, high, mem⟩ := shortestFrom_spec found
  have exponent := exponent_of_mem_neighbours mem
  have digits : x.digits ≤ 10 ^ 17 + 1 := by
    have below : v / 10 ^ (Int.log 10 v - p + 1) ≤ 10 ^ 17 := by
      rw [div_le_iff₀ (by positivity), ← zpow_natCast, ← zpow_add₀ (by norm_num)]
      refine (Int.lt_zpow_succ_log_self (b := 10) (by omega) v).le.trans ?_
      rw [Nat.cast_ofNat]
      refine zpow_le_zpow_right₀ (by norm_num) ?_
      push_cast
      omega
    have bound := digits_of_mem_neighbours hv mem
    have : (x.digits : ℚ) ≤ ((10 ^ 17 + 1 : ℕ) : ℚ) := by
      push_cast
      linarith
    exact_mod_cast this
  rw [result]
  refine ⟨by rw [Decimals.value_reduce, same], ?_, ?_, ?_⟩
  all_goals
    unfold Decimals.reduce
    split
    · dsimp only
      omega
    · omega

theorem log_ten_bounds (hv : 0 < v) (kept : round v = .finite v) :
    -1100 ≤ Int.log 10 v ∧ Int.log 10 v ≤ 1100 := by
  obtain ⟨same, below⟩ := (round_eq_finite_iff hv).mp kept
  constructor
  · have least : (10 : ℚ) ^ (-(1074 : ℕ) : ℤ) ≤ v := by
      have some : 1 ≤ units v := by
        refine Nat.one_le_iff_ne_zero.mpr fun none => ?_
        rw [rounded, none, Nat.cast_zero, zero_mul] at same
        exact hv.ne same
      have tiny (k : ℕ) : (10 : ℚ) ^ (-k : ℤ) ≤ 2 ^ (-k : ℤ) := by
        rw [zpow_neg, zpow_neg, zpow_natCast, zpow_natCast]
        exact inv_anti₀ (by positivity) (pow_le_pow_left₀ (by norm_num) (by norm_num) k)
      calc (10 : ℚ) ^ (-(1074 : ℕ) : ℤ) ≤ 2 ^ (-(1074 : ℕ) : ℤ) := tiny 1074
        _ ≤ 2 ^ place v := zpow_le_zpow_right₀ (by norm_num) (le_max_right _ _)
        _ ≤ units v * 2 ^ place v :=
            le_mul_of_one_le_left (unit_pos v).le (by exact_mod_cast some)
        _ = v := same
    have := (Int.zpow_le_iff_le_log (b := 10) (by omega) hv).mp (by exact_mod_cast least)
    omega
  · obtain ⟨n, few, wide⟩ := exists_ceiling_le
    have above : v < ((10 : ℕ) : ℚ) ^ (n : ℤ) := by
      rw [zpow_natCast, ← Nat.cast_pow]
      exact below.trans_le (Nat.cast_le.mpr wide)
    have := (Int.lt_zpow_iff_log_lt (by omega) hv).mp above
    omega

section Texts

variable {digits : List Char} (full : digits ≠ []) (all : ∀ c ∈ digits, c.isDigit = true)
  (short : Numeral.ofDigits digits ≤ 10 ^ 17 + 1)

include full all short

theorem reads_positional (low : -2000 ≤ e) (high : e < 16) :
    Decimal.Reads (String.ofList (positional digits e)) (Numeral.ofDigits digits * 10 ^ e) := by
  unfold positional
  split
  · next whole =>
      have front : ∀ c ∈ digits ++ zeros e.toNat, c.isDigit = true := by
        rw [List.forall_mem_append]
        refine ⟨all, fun c hc => ?_⟩
        rw [List.eq_of_mem_replicate hc]
        decide
      have value : Numeral.ofDigits (digits ++ zeros e.toNat ++ ['0']) =
          Numeral.ofDigits digits * 10 ^ (e.toNat + 1) := by
        rw [List.append_assoc, zeros, ← List.replicate_one, ← List.replicate_add,
          Numeral.ofDigits_append_zeros]
      have power : (10 : ℕ) ^ (e.toNat + 1) ≤ 10 ^ 16 := Nat.pow_le_pow_right (by omega) (by omega)
      have fits : Numeral.ofDigits (digits ++ zeros e.toNat ++ ['0']) < 10 ^ 40 := by
        rw [value]
        calc Numeral.ofDigits digits * 10 ^ (e.toNat + 1) ≤ (10 ^ 17 + 1) * 10 ^ 16 :=
              Nat.mul_le_mul short power
          _ < 10 ^ 40 := by norm_num
      have last : ∀ c ∈ ['0'], c.isDigit = true := by simp
      have text := Decimal.read?_places (by simp [full]) front last
        (Decimal.inReach_of_lt (by omega) fits (by simp) (by simp))
      refine ⟨_, _, text, ?_⟩
      rw [value, Nat.cast_mul, Nat.cast_pow, Nat.cast_ofNat, mul_assoc, ← zpow_natCast,
        ← zpow_add₀ (by norm_num)]
      congr 2
      rw [List.length_singleton]
      omega
  · next below =>
      have fits : Numeral.ofDigits digits < 10 ^ 40 := by omega
      have some : (-e).toNat ≠ 0 := by omega
      have text := Decimal.read?_ofList_pointed full all (-e).toNat
        (Decimal.inReach_of_lt (by omega) fits (by omega) (by omega))
      rw [Decimal.pointed, if_neg some] at text
      refine ⟨_, _, text, ?_⟩
      rw [Int.toNat_of_nonneg (by omega), neg_neg]

theorem reads_scientific (top : Int) (low : -1500 ≤ top) (high : top ≤ 1500)
    (count : digits.length ≤ 20) :
    Decimal.Reads (String.ofList (scientific digits top))
      (Numeral.ofDigits digits * 10 ^ (top - (digits.length - 1))) := by
  obtain ⟨c, tail, rfl⟩ := List.exists_cons_of_ne_nil full
  have front : ∀ d ∈ [c], d.isDigit = true := by
    simpa using all c (List.mem_cons_self ..)
  have behind : ∀ d ∈ tail, d.isDigit = true := fun d hd => all d (List.mem_cons_of_mem _ hd)
  let row := zeros (2 - (Nat.toDigits 10 top.natAbs).length) ++ Nat.toDigits 10 top.natAbs
  have rowDigits : ∀ d ∈ row, d.isDigit = true :=
    Decimal.isDigit_of_mem_zeros_append
      (fun d hd => Nat.isDigit_of_mem_toDigits (by decide) (by decide) hd) _
  have rowFull : row ≠ [] := by simp [row, Nat.toDigits_ne_nil]
  have rowValue : Numeral.ofDigits row = top.natAbs :=
    (Numeral.ofDigits_zeros_append _ _).trans (Numeral.ofDigits_toDigits _)
  let rest := 'e' :: (if decide (top < 0) then '-' else '+') :: row
  have stops : Numeral.Stops rest := by simp [Numeral.Stops, rest]
  have plain : ∀ d ∈ rest, isNumeralChar d = true := by
    rw [List.forall_mem_cons, List.forall_mem_cons]
    refine ⟨by decide, ?_, Decimal.forall_isNumeralChar rowDigits⟩
    split <;> decide
  have exponent : Numeral.readExponent? rest = some top := by
    rw [Numeral.readExponent?_signed (.inl rfl) (decide (top < 0)) rowFull rowDigits, rowValue]
    simp only [decide_eq_true_eq, Option.some.injEq]
    split <;> omega
  have fits : Numeral.ofDigits (c :: tail) < 10 ^ 40 := by omega
  have text : scientific (c :: tail) top =
      [c] ++ ((if tail.isEmpty then [] else '.' :: tail) ++ rest) := by
    simp [scientific, rest, row]
  rw [text]
  rw [List.length_cons] at count ⊢
  cases tail with
  | nil =>
      have read := Decimal.read?_whole (by simp) front stops plain (by simp [rest]) exponent
        (Decimal.inReach_of_lt (by omega) fits (by omega) (by omega))
      exact ⟨_, _, read, by simp⟩
  | cons d tail =>
      have some : [c] ≠ [] := by simp
      have read := Decimal.read?_pointed some front behind stops plain exponent
        (Decimal.inReach_of_lt (by omega) fits (by omega) (by omega))
      refine ⟨_, _, read, ?_⟩
      push_cast
      simp

end Texts

/-- However a positive decimal is written, it is read as the number that it is. -/
theorem reads_decimals (x : Decimals) (few : x.digits ≤ 10 ^ 17 + 1) (low : -1200 ≤ x.exponent)
    (high : x.exponent ≤ 1200) :
    Decimal.Reads (String.ofList
      (if -4 ≤ x.exponent + (Nat.toDigits 10 x.digits).length - 1 &&
          x.exponent + (Nat.toDigits 10 x.digits).length - 1 < 16
        then positional (Nat.toDigits 10 x.digits) x.exponent
        else scientific (Nat.toDigits 10 x.digits)
          (x.exponent + (Nat.toDigits 10 x.digits).length - 1))) x.value := by
  have full : Nat.toDigits 10 x.digits ≠ [] := Nat.toDigits_ne_nil
  have all : ∀ c ∈ Nat.toDigits 10 x.digits, c.isDigit = true :=
    fun c hc => Nat.isDigit_of_mem_toDigits (by decide) (by decide) hc
  have value : Numeral.ofDigits (Nat.toDigits 10 x.digits) = x.digits :=
    Numeral.ofDigits_toDigits _
  have count : (Nat.toDigits 10 x.digits).length ≤ 20 :=
    Nat.toDigits_length 10 _ 20 (by omega) (few.trans_lt (by norm_num))
  have result : x.value = Numeral.ofDigits (Nat.toDigits 10 x.digits) * 10 ^ x.exponent := by
    rw [Decimals.value_eq, value]
  have few := value.trans_le few
  rw [result]
  clear value result
  generalize Nat.toDigits 10 x.digits = digits at *
  have some := List.length_pos_iff.mpr full
  split
  · next near =>
      rw [Bool.and_eq_true, decide_eq_true_eq, decide_eq_true_eq] at near
      exact reads_positional full all few (by omega) (by omega)
  · have read := reads_scientific full all few (x.exponent + digits.length - 1) (by omega)
      (by omega) count
    rwa [show x.exponent + digits.length - 1 - (digits.length - 1) = x.exponent by ring] at read

/-- The text of a positive double is read as the shortest decimal that goes back to it. -/
theorem reads_text (hv : 0 < v) (kept : round v = .finite v) :
    Decimal.Reads (text (.finite v)) (shortest v).value := by
  have found := shortest_found hv kept
  have logs := log_ten_bounds hv kept
  have read := reads_decimals (shortest v) found.few (by linarith [found.low, logs.1])
    (by linarith [found.high, logs.2])
  rw [text]
  simp only [hv.ne', not_lt.mpr hv.le, if_false]
  exact read

end Reel.Double
