import Reel.Proofs.Number.Exact
import Reel.Proofs.Timeline.Uses

/-!
# The fields of a timecode

A timecode has one to three fields, which are finite numbers, and stands for its hours, minutes and
seconds. What is read takes the last three fields only, and special values for numbers. So a text
with more fields, or with a special value among them, is read as some time where it is to be
refused. All other texts are read as they are meant or refused, as long as their fields are of
moderate size.
-/
namespace Reel.Timecode

variable {s : String}

def fields (given : String) : List (List Char) :=
  List.splitOn ':' (Text.trim Text.isBlank given.toList)

/-- The number that a field shows, if it is a finite one. -/
def field? (cs : List Char) : Option ℚ :=
  (Decimal.read? (String.ofList cs)).bind Decimal.toRat?

structure Clock where
  hours : ℚ
  minutes : ℚ
  seconds : ℚ

def Clock.total (t : Clock) : ℚ := t.hours * 3600 + t.minutes * 60 + t.seconds

/-- What a timecode shows: up to three finite numbers, the missing ones in front zero. -/
def clock? (given : String) : Option Clock :=
  match fields given with
  | [seconds] => do return ⟨0, 0, ← field? seconds⟩
  | [minutes, seconds] => do return ⟨0, ← field? minutes, ← field? seconds⟩
  | [hours, minutes, seconds] => do return ⟨← field? hours, ← field? minutes, ← field? seconds⟩
  | _ => none

/-- A timecode is read as the time that it shows, exactly if that has no more digits than sums
keep; every other text is refused. -/
def Timed (given : String) : Prop :=
  match clock? given with
  | some t => ∃ d q, read given = .ok d ∧ d.toRat? = some q ∧ (Decimal.Fits t.total → q = t.total)
  | none => read given = .error (.rejected (.timeText given))

/-- The parts of a text that are read as seconds, minutes and hours. -/
def parts (given : String) : List (List Char) := (fields given).reverse.take 3

/-- The decimals that the last fields are read as, from the last one on. -/
def decimals? (given : String) : Option (List Decimal) :=
  (parts given).mapM fun cs => Decimal.read? (String.ofList cs)

def gather : List Decimal → Except Decimal.Signal Decimal
  | [] => .ok (.ofInt 0)
  | [only] => .ok only
  | seconds :: minutes :: rest => combine (rest.headD (.ofInt 0)) minutes seconds

theorem readField_eq (given : String) (cs : List Char) :
    readField given cs =
      match Decimal.read? (String.ofList cs) with
      | some d => .ok d
      | none => .error (.rejected (.timeText given)) := rfl

/-- A text is read field by field, and refused if one of its last fields is no decimal. -/
theorem read_eq (given : String) :
    read given =
      match decimals? given with
      | some ds => Value.ofSignal (gather ds)
      | none => .error (.rejected (.timeText given)) := by
  have some : (fields given).reverse ≠ [] := by simp [fields, List.splitOn_ne_nil]
  unfold read decimals? parts
  rw [← fields]
  generalize (fields given).reverse = row at some
  simp only [readField_eq]
  match row with
  | [] => exact (some rfl).elim
  | [only] =>
      cases h : Decimal.read? (String.ofList only) <;> simp [h, gather, Value.ofSignal]
  | [seconds, minutes] =>
      cases hs : Decimal.read? (String.ofList seconds) <;>
        cases hm : Decimal.read? (String.ofList minutes) <;>
        simp [hs, hm, gather, bind, Except.bind]
  | seconds :: minutes :: hours :: before =>
      cases hs : Decimal.read? (String.ofList seconds) <;>
        cases hm : Decimal.read? (String.ofList minutes) <;>
        cases hh : Decimal.read? (String.ofList hours) <;>
        simp [hs, hm, hh, gather, bind, Except.bind]

theorem clock?_eq_none_iff (given : String) :
    clock? given = none ↔ 3 < (fields given).length ∨ ∃ cs ∈ fields given, field? cs = none := by
  have some : fields given ≠ [] := by simp [fields, List.splitOn_ne_nil]
  unfold clock?
  generalize fields given = row at some
  match row with
  | [] => exact (some rfl).elim
  | [seconds] => cases hs : field? seconds <;> simp [hs]
  | [minutes, seconds] =>
      cases hm : field? minutes <;> cases hs : field? seconds <;> simp [hm, hs]
  | [hours, minutes, seconds] =>
      cases hh : field? hours <;> cases hm : field? minutes <;> cases hs : field? seconds <;>
        simp [hh, hm, hs]
  | _ :: _ :: _ :: _ :: _ => simp

theorem decimals?_eq_none_iff (given : String) :
    decimals? given = none ↔ ∃ cs ∈ parts given, Decimal.read? (String.ofList cs) = none := by
  unfold decimals?
  generalize parts given = row
  induction row with
  | nil => simp
  | cons cs rest ih =>
      cases h : Decimal.read? (String.ofList cs)
      · simp [h]
      · simp only [List.mem_cons, exists_eq_or_imp, h, ← ih, List.mapM_cons]
        cases rest.mapM fun cs => Decimal.read? (String.ofList cs) <;> simp

/-- Where a text is no timecode, it is refused just if one of its last fields is no decimal. -/
theorem timed_iff_of_clock?_eq_none (none : clock? s = none) :
    Timed s ↔ ∃ cs ∈ parts s, Decimal.read? (String.ofList cs) = .none := by
  rw [← decimals?_eq_none_iff, Timed, none, read_eq]
  cases decimals? s with
  | none => simp
  | some ds => cases h : gather ds <;> simp [Value.ofSignal, h]

/-- No sum of the fields comes near the largest exponent and, if the last one keeps all of its
digits, so do those before it. -/
structure Moderate (given : String) : Prop where
  below : ∀ cs ∈ fields given, ∀ d, Decimal.read? (String.ofList cs) = some d →
    d.toRat?.isSome = true → d.Below 999990
  kept : ∀ t, clock? given = some t → Decimal.Fits t.total →
    Decimal.Kept (t.hours * 3600) ∧ Decimal.Kept (t.minutes * 60) ∧
      Decimal.Kept (t.hours * 3600 + t.minutes * 60) ∧ Decimal.Kept t.total

/-- Finite numbers are added up to a finite one, as long as it stays below the largest exponent
that sums may have. -/
theorem combine_below {hours minutes seconds : Decimal} (hh : hours.Below 999990)
    (hm : minutes.Below 999990) (hs : seconds.Below 999990) :
    ∃ d, combine hours minutes seconds = .ok d ∧ d.Below 999999 := by
  have hour : (Decimal.ofInt 3600).Below 4 := fun _ => by decide +kernel
  have minute : (Decimal.ofInt 60).Below 4 := fun _ => by decide +kernel
  obtain ⟨a, fromHours, ha⟩ := Decimal.mul_below hh hour (by decide) (by decide)
  obtain ⟨b, fromMinutes, hb⟩ := Decimal.mul_below hm minute (by decide) (by decide)
  obtain ⟨c, whole, hc⟩ := Decimal.add_below ha hb (by decide) (by decide)
  obtain ⟨d, sum, hd⟩ := Decimal.add_below hc (hs.mono (by decide)) (by decide) (by decide)
  refine ⟨d, ?_, hd⟩
  rw [combine, fromHours, fromMinutes]
  change (a.add b >>= fun whole => whole.add seconds) = .ok d
  rw [whole]
  exact sum

theorem combine_exact {hours minutes seconds d : Decimal} {t : Clock}
    (hh : hours.toRat? = some t.hours) (hm : minutes.toRat? = some t.minutes)
    (hs : seconds.toRat? = some t.seconds) (fromHours : Decimal.Kept (t.hours * 3600))
    (fromMinutes : Decimal.Kept (t.minutes * 60))
    (whole : Decimal.Kept (t.hours * 3600 + t.minutes * 60)) (total : Decimal.Kept t.total)
    (h : combine hours minutes seconds = .ok d) : d.toRat? = some t.total := by
  have hour : (Decimal.ofInt 3600).toRat? = some 3600 := by decide +kernel
  have minute : (Decimal.ofInt 60).toRat? = some 60 := by decide +kernel
  obtain ⟨a, ha, h⟩ := exists_of_bind_ok h
  obtain ⟨b, hb, h⟩ := exists_of_bind_ok h
  obtain ⟨c, hc, h⟩ := exists_of_bind_ok h
  have first := Decimal.mul_exact hh hour fromHours ha
  have second := Decimal.mul_exact hm minute fromMinutes hb
  exact Decimal.add_exact (Decimal.add_exact first second whole hc) hs total h

/-- The sum of moderate numbers is the time, if all of its digits can be kept. -/
theorem gather_moderate {hours minutes seconds : Decimal} {t : Clock}
    (hh : hours.toRat? = some t.hours) (hm : minutes.toRat? = some t.minutes)
    (hs : seconds.toRat? = some t.seconds) (below : ∀ d ∈ [hours, minutes, seconds], d.Below 999990)
    (kept : Decimal.Fits t.total →
      Decimal.Kept (t.hours * 3600) ∧ Decimal.Kept (t.minutes * 60) ∧
        Decimal.Kept (t.hours * 3600 + t.minutes * 60) ∧ Decimal.Kept t.total) :
    ∃ d q, Value.ofSignal (combine hours minutes seconds) = .ok d ∧ d.toRat? = some q ∧
      (Decimal.Fits t.total → q = t.total) := by
  simp only [List.forall_mem_cons, List.not_mem_nil, false_implies, implies_true, and_true] at below
  obtain ⟨d, sum, moderate⟩ := combine_below below.1 below.2.1 below.2.2
  obtain ⟨q, number⟩ := moderate.exists_toRat?
  refine ⟨d, q, by rw [sum, Value.ofSignal], number, fun fits => ?_⟩
  obtain ⟨fromHours, fromMinutes, whole, total⟩ := kept fits
  have exact := combine_exact hh hm hs fromHours fromMinutes whole total sum
  exact Option.some.inj (number.symm.trans exact)

theorem exists_fields {t : Clock} (shown : clock? s = some t) :
    (∃ seconds, fields s = [seconds] ∧ t.hours = 0 ∧ t.minutes = 0 ∧
      field? seconds = some t.seconds) ∨
    (∃ minutes seconds, fields s = [minutes, seconds] ∧ t.hours = 0 ∧
      field? minutes = some t.minutes ∧ field? seconds = some t.seconds) ∨
    ∃ hours minutes seconds, fields s = [hours, minutes, seconds] ∧
      field? hours = some t.hours ∧ field? minutes = some t.minutes ∧
      field? seconds = some t.seconds := by
  unfold clock? at shown
  split at shown
  · next seconds eq =>
      obtain ⟨q, hq, rest⟩ := Option.bind_eq_some_iff.mp shown
      obtain rfl := Option.some.inj rest
      exact .inl ⟨seconds, eq, rfl, rfl, hq⟩
  · next minutes seconds eq =>
      obtain ⟨m, hm, rest⟩ := Option.bind_eq_some_iff.mp shown
      obtain ⟨q, hq, rest⟩ := Option.bind_eq_some_iff.mp rest
      obtain rfl := Option.some.inj rest
      exact .inr (.inl ⟨minutes, seconds, eq, rfl, hm, hq⟩)
  · next hours minutes seconds eq =>
      obtain ⟨h, hh, rest⟩ := Option.bind_eq_some_iff.mp shown
      obtain ⟨m, hm, rest⟩ := Option.bind_eq_some_iff.mp rest
      obtain ⟨q, hq, rest⟩ := Option.bind_eq_some_iff.mp rest
      obtain rfl := Option.some.inj rest
      exact .inr (.inr ⟨hours, minutes, seconds, eq, hh, hm, hq⟩)
  · cases shown

/-- A timecode of moderate fields is read as the time that it shows. -/
theorem timed_of_clock?_eq_some {t : Clock} (moderate : Moderate s) (shown : clock? s = some t) :
    Timed s := by
  have kept := moderate.kept t shown
  have part : parts s = (fields s).reverse.take 3 := rfl
  have number {cs : List Char} {q : ℚ} (mem : cs ∈ fields s) (h : field? cs = some q) :
      ∃ d, Decimal.read? (String.ofList cs) = some d ∧ d.toRat? = some q ∧ d.Below 999990 := by
    obtain ⟨d, read, value⟩ := Option.bind_eq_some_iff.mp h
    exact ⟨d, read, value, moderate.below cs mem d read (by rw [value]; rfl)⟩
  rw [Timed, shown, read_eq, decimals?, part]
  rcases exists_fields shown with ⟨seconds, eq, hh, hm, hs⟩ | ⟨minutes, seconds, eq, hh, hm, hs⟩ |
    ⟨hours, minutes, seconds, eq, hh, hm, hs⟩
  all_goals rw [eq] at number ⊢
  · obtain ⟨d, read, value, -⟩ := number (by simp) hs
    refine ⟨d, t.seconds, by simp [read, gather, Value.ofSignal], value, fun _ => ?_⟩
    simp [Clock.total, hh, hm]
  -- the hours that are missing in front count as a decimal zero
  · have zero : (Decimal.ofInt 0).toRat? = some t.hours := by
      rw [hh]
      decide +kernel
    have origin : (Decimal.ofInt 0).Below 999990 := fun some => (some rfl).elim
    obtain ⟨dm, readM, valueM, belowM⟩ := number (by simp) hm
    obtain ⟨ds, readS, valueS, belowS⟩ := number (by simp) hs
    have sum := gather_moderate zero valueM valueS (by simp [origin, belowM, belowS]) kept
    simpa [readM, readS, gather] using sum
  · obtain ⟨dh, readH, valueH, belowH⟩ := number (by simp) hh
    obtain ⟨dm, readM, valueM, belowM⟩ := number (by simp) hm
    obtain ⟨ds, readS, valueS, belowS⟩ := number (by simp) hs
    have sum := gather_moderate valueH valueM valueS (by simp [belowH, belowM, belowS]) kept
    simpa [readH, readM, readS, gather] using sum

/-- The last fields are decimals, but there are more fields than a timecode has, or one of them is
a special value. -/
def Misread (given : String) : Prop :=
  (∀ cs ∈ parts given, Decimal.read? (String.ofList cs) ≠ none) ∧
    (3 < (fields given).length ∨ ∃ cs ∈ fields given, field? cs = none)

instance (given : String) : Decidable (Misread given) := inferInstanceAs (Decidable (_ ∧ _))

/-- The number is below ten to the 15th and has at most nine places, if it is finite. -/
def IsShort : Decimal → Prop
  | .finite _ coefficient exponent => coefficient < 10 ^ 15 ∧ -9 ≤ exponent ∧ exponent ≤ 0
  | _ => True

instance : DecidablePred IsShort
  | .finite .. => inferInstanceAs (Decidable (_ ∧ _))
  | .infinite _ | .nan .. => .isTrue trivial

theorem IsShort.exists_units {d : Decimal} {q : ℚ} (h : IsShort d) (value : d.toRat? = some q) :
    ∃ n : ℤ, q = n / 10 ^ 9 ∧ |n| < 10 ^ 24 := by
  obtain ⟨negative, c, e, rfl⟩ : ∃ negative c e, d = .finite negative c e := by
    cases d with
    | finite negative c e => exact ⟨negative, c, e, rfl⟩
    | _ => cases value
  obtain ⟨short, low, high⟩ := h
  rw [Decimal.toRat?_finite, Option.some.injEq] at value
  have size : |q| = c * 10 ^ e := by
    rw [← value]
    split
    · rw [abs_neg, abs_of_nonneg (by positivity)]
    · exact abs_of_nonneg (by positivity)
  obtain ⟨n, multiple⟩ := Decimal.exists_multiple size low
  have units : q = n / 10 ^ 9 := by
    rw [multiple]
    norm_num [div_eq_mul_inv]
  refine ⟨n, units, ?_⟩
  have below : |q| < 10 ^ 15 := by
    rw [size]
    calc (c : ℚ) * 10 ^ e ≤ c * 1 :=
          mul_le_mul_of_nonneg_left (zpow_le_one_of_nonpos₀ (by norm_num) high) (by positivity)
      _ < 10 ^ 15 := by
          rw [mul_one]
          exact_mod_cast short
  rw [units, abs_div, div_lt_iff₀ (by positivity),
    abs_of_pos (by norm_num : (0 : ℚ) < 10 ^ 9)] at below
  have : (|n| : ℚ) < 10 ^ 24 := by linarith
  exact_mod_cast this

theorem kept_units {n : ℤ} (h : |n| < 10 ^ 28) : Decimal.Kept (n / 10 ^ 9) := by
  have short : n.natAbs < 10 ^ 28 := by
    rw [Int.abs_eq_natAbs] at h
    exact_mod_cast h
  refine ⟨n.natAbs, -9, short, by decide, ?_⟩
  rw [abs_div, Nat.cast_natAbs, Int.cast_abs]
  norm_num [div_eq_mul_inv]

theorem moderate_of_short
    (h : ∀ cs ∈ fields s, ∀ d ∈ Decimal.read? (String.ofList cs), IsShort d) : Moderate s := by
  constructor
  · intro cs mem d read finite
    have short := h cs mem d read
    cases d with
    | finite negative c e =>
        obtain ⟨few, -, high⟩ := short
        intro some
        have := Rounding.digitCount_le (b := 10) (k := 15) (by omega) (by omega) few
        rw [Decimal.digitCount]
        omega
    | _ => cases finite
  · intro t shown fits
    have units {cs : List Char} {q : ℚ} (mem : cs ∈ fields s) (value : field? cs = some q) :
        ∃ n : ℤ, q = n / 10 ^ 9 ∧ |n| < 10 ^ 24 := by
      obtain ⟨d, read, value⟩ := Option.bind_eq_some_iff.mp value
      exact (h cs mem d read).exists_units value
    have none {q : ℚ} (h : q = 0) : ∃ n : ℤ, q = n / 10 ^ 9 ∧ |n| < 10 ^ 24 :=
      ⟨0, by simp [h], by norm_num⟩
    obtain ⟨⟨h, hh, fewH⟩, ⟨m, hm, fewM⟩, ⟨n, hn, fewS⟩⟩ :
        (∃ n : ℤ, t.hours = n / 10 ^ 9 ∧ |n| < 10 ^ 24) ∧
        (∃ n : ℤ, t.minutes = n / 10 ^ 9 ∧ |n| < 10 ^ 24) ∧
        ∃ n : ℤ, t.seconds = n / 10 ^ 9 ∧ |n| < 10 ^ 24 := by
      rcases exists_fields shown with ⟨seconds, eq, hh, hm, hs⟩ |
        ⟨minutes, seconds, eq, hh, hm, hs⟩ | ⟨hours, minutes, seconds, eq, hh, hm, hs⟩
      all_goals rw [eq] at units
      · exact ⟨none hh, none hm, units (by simp) hs⟩
      · exact ⟨none hh, units (by simp) hm, units (by simp) hs⟩
      · exact ⟨units (by simp) hh, units (by simp) hm, units (by simp) hs⟩
    rw [abs_lt] at fewH fewM fewS
    have kept {k : ℤ} {q : ℚ} (le : -10 ^ 28 < k ∧ k < 10 ^ 28) (eq : (k : ℚ) / 10 ^ 9 = q) :
        Decimal.Kept q := eq ▸ kept_units (abs_lt.mpr le)
    refine ⟨kept (k := h * 3600) (by omega) ?_, kept (k := m * 60) (by omega) ?_,
      kept (k := h * 3600 + m * 60) (by omega) ?_,
      kept (k := h * 3600 + m * 60 + n) (by omega) ?_⟩
    all_goals
      simp only [Clock.total, hh, hm, hn]
      push_cast
      ring

/-- Texts with moderate fields are read as they are meant, or refused, unless they are misread. -/
theorem timed_iff_not_misread (moderate : Moderate s) : Timed s ↔ ¬ Misread s := by
  rw [Misread, ← clock?_eq_none_iff]
  cases shown : clock? s with
  | some t => simpa using timed_of_clock?_eq_some moderate shown
  | none =>
      rw [timed_iff_of_clock?_eq_none shown]
      simp

theorem timed_hours : Moderate "1:02:03.5" ∧ Timed "1:02:03.5" := by
  have moderate : Moderate "1:02:03.5" := moderate_of_short (by decide +kernel)
  exact ⟨moderate, (timed_iff_not_misread moderate).mpr (by decide +kernel)⟩

theorem not_timed_days :
    read "9:01:02:03" = .ok (.finite false 3723 0) ∧ ¬ Timed "9:01:02:03" := by
  have shown : clock? "9:01:02:03" = none := by decide +kernel
  refine ⟨by decide +kernel, fun timed => ?_⟩
  have := (timed_iff_of_clock?_eq_none shown).mp timed
  revert this
  decide +kernel

end Reel.Timecode
