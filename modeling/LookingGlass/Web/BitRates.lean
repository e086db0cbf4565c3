import LookingGlass.Web.FormatDuration

/-!
# Bit rates

A rate is printed with three digits, in the largest unit that it fills. A rate that is rounded to a
thousand units goes into the next unit before it is printed. So the grid on which rates are rounded
gets coarser by a factor of ten from level to level, and where a unit ends the next one begins half
a unit early.

## Levels

A level is a unit with a number of decimals. The levels are counted from rates below a thousand
bits, which are printed as integers: the levels of the next three units are those with two decimals,
with one and with none, and at the last level there is no end. On level `k` rates are rounded to
multiples of `10 ^ k`. That the levels fit together is what the library on scales is about; what is
to be shown here is that they are the levels of the code, whose thresholds are written in two
functions.

The rates are exact here, and so are the quotients. The number of a text is rounded twice, once to
the grid and once when it is printed; the second changes nothing.

## Main results

* `Traffic.formatBitRate_spec` — what is printed of a rate: its range, its accuracy and its order
-/

namespace LookingGlass

namespace Traffic

open Utf16 AddressText Format

structure RateUnit where
  label : Str
  divisor : ℕ
  deriving DecidableEq

namespace RateUnit

def bit : RateUnit := ⟨"bit/s", 1⟩
def kilobit : RateUnit := ⟨"kbit/s", 1000⟩
def megabit : RateUnit := ⟨"Mbit/s", 1000000⟩
def gigabit : RateUnit := ⟨"Gbit/s", 1000000000⟩

end RateUnit

def units : List RateUnit := [.bit, .kilobit, .megabit, .gigabit]

/-- From the last unit down to the second; the first one otherwise. -/
def pickRateUnit (bitsPerSecond : ℚ) : RateUnit :=
  let magnitude := |bitsPerSecond|
  ((units.drop 1).reverse.find? fun unit => decide (unit.divisor ≤ magnitude)).getD .bit

def decimalsFor (value : ℚ) : ℕ :=
  let magnitude := |value|
  if 100 ≤ magnitude then 0 else if 10 ≤ magnitude then 1 else 2

/-- `Number(x.toFixed(digits))` -/
def fixedNumber (digits : ℕ) (x : ℚ) : ℚ :=
  let rounded : ℚ := mathRound (|x| * 10 ^ digits) / 10 ^ digits
  if x < 0 then -rounded else rounded

/-- A number in a template, where it has at most two decimals. -/
def numberText (x : ℚ) : Str := Double.format 0 2 (.finite x)

def formatRateIn (bitsPerSecond : ℚ) (unit : RateUnit) : Str :=
  let scaled := bitsPerSecond / unit.divisor
  let digits := if unit.divisor = 1 then 0 else decimalsFor scaled
  concat [numberText (fixedNumber digits scaled), " ", unit.label]

def formatBitRate : Option Double → Str
  | some (.finite bitsPerSecond) =>
    let unit := pickRateUnit bitsPerSecond
    -- the next unit, if there is one and this one would be rounded to a thousand of it
    let next := (units[units.idxOf unit + 1]?).filter fun _ =>
      decide (mathRound (bitsPerSecond / unit.divisor) ≥ 1000)
    formatRateIn bitsPerSecond (next.getD unit)
  | _ => emDash

/-! ### What a text says

A number with its unit can be read back from a text, so a text says one thing. -/

/-- A text is that of a number with at most two decimals, in one of the units. It is about the text
alone, and does not mention the rate that was printed. -/
structure Prints (text : Str) (q : ℚ) (unit : RateUnit) : Prop where
  unit_mem : unit ∈ units
  hundredths : ∃ n : ℕ, q = n / 100
  text_eq : text = concat [numberText q, " ", unit.label]

/-- A text is that of one number and one unit. -/
theorem Prints.unique {text : Str} {q q' : ℚ} {unit unit' : RateUnit} (h : Prints text q unit)
    (h' : Prints text q' unit') : q = q' ∧ unit = unit' := by
  obtain ⟨hunit, ⟨n, rfl⟩, rfl⟩ := h
  obtain ⟨hunit', ⟨n', rfl⟩, htext⟩ := h'
  have hnumber (m : ℕ) : numberText (m / 100) = Double.format 0 2 (.finite (m / 10 ^ 2)) := by
    rw [numberText]
    norm_num
  have hblank (m : ℕ) (c : Char16) (hc : c ∈ numberText (m / 100)) : (c == ofChar ' ') = false := by
    rw [hnumber] at hc
    rcases Double.mem_format_units hc with hdigit | rfl
    · refine beq_eq_false_iff_ne.mpr ?_
      rintro rfl
      exact absurd hdigit (by decide)
    · rfl
  have hsplit (m : ℕ) (u : RateUnit) : concat [numberText (m / 100), " ", u.label] =
      numberText (m / 100) ++ ofChar ' ' :: u.label := by
    simp [ofString]
  rw [hsplit, hsplit] at htext
  obtain ⟨hq, -, hlabel⟩ := Pattern.append_cons_inj (hblank n) (hblank n') (beq_self_eq_true _)
    (beq_self_eq_true _) htext
  rw [hnumber, hnumber] at hq
  have hlabels : ∀ u ∈ units, ∀ u' ∈ units, u.label = u'.label → u = u' := by decide
  exact ⟨by rw [Double.units_of_format hq], hlabels unit hunit unit' hunit' hlabel⟩

/-! ### Levels

The level of a rate determines its unit and its decimals. -/

variable {x y : ℚ} {k : ℕ}

/-- The first rate that is not of level `k`. Where the unit ends with the level, the next one begins
half a unit early. -/
def stop (k : ℕ) : ℚ := if k % 3 = 0 then 10 ^ (k + 3) - 10 ^ k / 2 else 10 ^ (k + 3)

theorem pow_ten_pos (k : ℕ) : (0 : ℚ) < 10 ^ k := by
  positivity

theorem pow_ten_mono : Monotone fun k : ℕ => (10 : ℚ) ^ (k + 3) := by
  intro i j h
  exact pow_le_pow_right₀ (by norm_num) (Nat.add_le_add_right h 3)

theorem stop_le (k : ℕ) : stop k ≤ 10 ^ (k + 3) := by
  have hpow := pow_ten_pos k
  unfold stop
  split <;> linarith

theorem half_grid_le_stop (k : ℕ) : 10 ^ (k + 3) - 10 ^ k / 2 ≤ stop k := by
  have hpow := pow_ten_pos k
  unfold stop
  split <;> linarith

theorem le_stop (k : ℕ) : 10 ^ (k + 3) - 10 ^ (k + 1) / 2 ≤ stop k := by
  have hpow := pow_ten_pos k
  refine le_trans ?_ (half_grid_le_stop k)
  rw [pow_succ (10 : ℚ) k]
  linarith

theorem bound_below (k : ℕ) : ∃ n : ℤ, (10 : ℚ) ^ (k + 3) = n * 10 ^ k := by
  refine ⟨1000, ?_⟩
  push_cast
  ring

theorem bound_above (k : ℕ) : ∃ n : ℤ, (10 : ℚ) ^ (k + 3) = n * 10 ^ (k + 1) := by
  refine ⟨100, ?_⟩
  push_cast
  ring

/-- Three digits: rates of level `k` are rounded to multiples of `10 ^ k`, and end where there would
be a fourth digit. -/
def scale : Scale ℚ where
  grid k := 10 ^ k
  stop := stop
  bound k := 10 ^ (k + 3)
  grid_pos := pow_ten_pos
  bound_mono := pow_ten_mono
  stop_le := stop_le
  le_stop := le_stop
  below := bound_below
  above := bound_above

theorem monotone_stop : Monotone scale.stop := by
  refine monotone_nat_of_le_succ fun k => (scale.stop_le k).trans ?_
  refine le_trans ?_ (scale.le_stop (k + 1))
  have hpow := pow_ten_pos k
  show (10 : ℚ) ^ (k + 3) ≤ 10 ^ (k + 1 + 3) - 10 ^ (k + 1 + 1) / 2
  rw [pow_add, pow_add _ (k + 1), pow_add _ (k + 1), pow_succ (10 : ℚ) k]
  linarith

theorem thousand_le_mathRound_iff {d : ℕ} (hd : 0 < d) :
    mathRound (x / d) ≥ 1000 ↔ (1999 / 2 : ℚ) * d ≤ x := by
  have hpos : (0 : ℚ) < d := by exact_mod_cast hd
  rw [ge_iff_le, mathRound, Int.le_floor, ← sub_le_iff_le_add, le_div_iff₀ hpos]
  norm_num

theorem pickRateUnit_eq (hx : 0 ≤ x) : pickRateUnit x =
    if 1000000000 ≤ x then RateUnit.gigabit else if 1000000 ≤ x then RateUnit.megabit
    else if 1000 ≤ x then RateUnit.kilobit else RateUnit.bit := by
  have hlast : (units.drop 1).reverse =
      [RateUnit.gigabit, RateUnit.megabit, RateUnit.kilobit] := rfl
  rw [pickRateUnit, hlast, abs_of_nonneg hx]
  by_cases hg : 1000000000 ≤ x
  · simp [RateUnit.gigabit, hg]
  by_cases hm : 1000000 ≤ x
  · simp [RateUnit.gigabit, RateUnit.megabit, hg, hm]
  by_cases hk : 1000 ≤ x
  · simp [RateUnit.gigabit, RateUnit.megabit, RateUnit.kilobit, hg, hm, hk]
  · simp [RateUnit.gigabit, RateUnit.megabit, RateUnit.kilobit, hg, hm, hk]

/-- Half a unit before a thousand of them, the next unit is used. -/
theorem getD_next {unit next : RateUnit} (hpos : 0 < unit.divisor)
    (hnext : units[units.idxOf unit + 1]? = some next) {start : ℚ}
    (hstart : (1999 / 2 : ℚ) * unit.divisor = start) :
    ((units[units.idxOf unit + 1]?).filter fun _ =>
        decide (mathRound (x / unit.divisor) ≥ 1000)).getD unit =
      if start ≤ x then next else unit := by
  rw [hnext, ← hstart]
  simp only [thousand_le_mathRound_iff hpos]
  by_cases hcarry : (1999 / 2 : ℚ) * unit.divisor ≤ x
  · simp only [hcarry]
    rfl
  · simp [hcarry]

/-- The unit that is used, after rounding. -/
theorem formatBitRate_eq (hx : 0 ≤ x) : formatBitRate (some (.finite x)) = formatRateIn x
    (if 999500000 ≤ x then .gigabit else if 999500 ≤ x then .megabit
    else if 1999 / 2 ≤ x then .kilobit else .bit) := by
  have hnext : units[units.idxOf RateUnit.gigabit + 1]? = none ∧
      units[units.idxOf RateUnit.megabit + 1]? = some .gigabit ∧
      units[units.idxOf RateUnit.kilobit + 1]? = some .megabit ∧
      units[units.idxOf RateUnit.bit + 1]? = some .kilobit := by decide +kernel
  obtain ⟨hgiga, hmega, hkilo, hbit⟩ := hnext
  have hgigaStart : (1999 / 2 : ℚ) * RateUnit.megabit.divisor = 999500000 := by
    norm_num [RateUnit.megabit]
  have hmegaStart : (1999 / 2 : ℚ) * RateUnit.kilobit.divisor = 999500 := by
    norm_num [RateUnit.kilobit]
  have hkiloStart : (1999 / 2 : ℚ) * RateUnit.bit.divisor = 1999 / 2 := by
    norm_num [RateUnit.bit]
  have hformat : formatBitRate (some (.finite x)) = formatRateIn x
      (((units[units.idxOf (pickRateUnit x) + 1]?).filter fun _ =>
        decide (mathRound (x / (pickRateUnit x).divisor) ≥ 1000)).getD (pickRateUnit x)) := rfl
  rw [hformat, pickRateUnit_eq hx]
  refine congrArg (formatRateIn x) ?_
  by_cases hg : 1000000000 ≤ x
  · rw [if_pos hg, hgiga, if_pos (by linarith)]
    rfl
  rw [if_neg hg]
  by_cases hm : 1000000 ≤ x
  · rw [if_pos hm, getD_next (by decide) hmega hgigaStart,
      if_pos (show 999500 ≤ x by linarith)]
  rw [if_neg hm, if_neg (show ¬ 999500000 ≤ x by linarith)]
  by_cases hk : 1000 ≤ x
  · rw [if_pos hk, getD_next (by decide) hkilo hmegaStart,
      if_pos (show 1999 / 2 ≤ x by linarith)]
  · rw [if_neg hk, getD_next (by decide) hbit hkiloStart,
      if_neg (show ¬ 999500 ≤ x by linarith)]

/-- The number that is printed, where the unit and the number of decimals belong to the level. -/
theorem formatRateIn_eq (hx : 0 ≤ x) {unit : RateUnit} {d : ℕ} (hunit : unit.divisor = 10 ^ (k + d))
    (hdigits : (if unit.divisor = 1 then 0 else decimalsFor (x / unit.divisor)) = d) :
    formatRateIn x unit =
      concat [numberText (toGrid (10 ^ k) x / unit.divisor), " ", unit.label] := by
  have hpow := pow_ten_pos d
  have hscaled : (0 : ℚ) ≤ x / unit.divisor := by positivity
  have hnumber : fixedNumber d (x / unit.divisor) = toGrid (10 ^ k) x / unit.divisor := by
    have hquotient : x / (10 ^ (k + d) : ℕ) * 10 ^ d = x / 10 ^ k := by
      push_cast
      rw [pow_add]
      field_simp
    rw [fixedNumber, abs_of_nonneg hscaled, if_neg (not_lt.mpr hscaled), hunit, hquotient, toGrid,
      mathRound]
    push_cast
    rw [pow_add]
    field_simp
  rw [formatRateIn, hdigits, hnumber]

/-- The unit of a level. -/
def unitOf (k : ℕ) : RateUnit :=
  if k = 0 then .bit else if k ≤ 3 then .kilobit else if k ≤ 6 then .megabit else .gigabit

/-- The decimals of a level. -/
def digitsOf (k : ℕ) : ℕ :=
  if k % 3 = 1 then 2 else if k % 3 = 2 then 1 else 0

theorem digitsOf_of_mod (hk : k % 3 = 0) : digitsOf k = 0 := by
  rw [digitsOf, if_neg (by omega), if_neg (by omega)]

theorem digitsOf_le (k : ℕ) : digitsOf k ≤ 2 := by
  unfold digitsOf
  split_ifs <;> decide

theorem divisor_unitOf (hk : k ≤ 9) : (unitOf k).divisor = 10 ^ (k + digitsOf k) := by
  have hall : ∀ k < 10, (unitOf k).divisor = 10 ^ (k + digitsOf k) := by decide
  exact hall k (Nat.lt_succ_iff.mpr hk)

theorem stop_of_mod (hk : k % 3 ≠ 0) : scale.stop k = 10 ^ (k + 3) :=
  if_neg hk

theorem stop_le_iff (h : scale.Level 9 x k) {i : ℕ} (hi : i < 9) : scale.stop i ≤ x ↔ i < k := by
  constructor
  · intro hstop
    by_contra hle
    have hlt := h.lt_stop ((not_lt.mp hle).trans_lt hi)
    exact absurd (hstop.trans_lt hlt) (not_lt.mpr (monotone_stop (not_lt.mp hle)))
  · exact h.stop_le i

/-- A rate goes into the unit of its level. -/
theorem formatBitRate_of_level (hx : 0 ≤ x) (h : scale.Level 9 x k) :
    formatBitRate (some (.finite x)) = formatRateIn x (unitOf k) := by
  have hgiga : 999500000 ≤ x ↔ 6 < k := by
    rw [← stop_le_iff h (by decide)]
    norm_num [scale, stop]
  have hmega : 999500 ≤ x ↔ 3 < k := by
    rw [← stop_le_iff h (by decide)]
    norm_num [scale, stop]
  have hkilo : 1999 / 2 ≤ x ↔ 0 < k := by
    rw [← stop_le_iff h (by decide)]
    norm_num [scale, stop]
  rw [formatBitRate_eq hx, unitOf]
  simp only [hgiga, hmega, hkilo]
  congr 1
  split_ifs <;> first | omega | rfl

/-- With the decimals of its level. -/
theorem decimalsFor_of_level (hx : 0 ≤ x) (h : scale.Level 9 x k) :
    (if (unitOf k).divisor = 1 then 0 else decimalsFor (x / (unitOf k).divisor)) = digitsOf k := by
  rcases Nat.eq_zero_or_pos k with rfl | hpos
  · rfl
  have hlarge : (unitOf k).divisor ≠ 1 := by
    rw [divisor_unitOf h.le_last]
    exact (Nat.one_lt_pow (by omega) (by decide)).ne'
  have hscaled : (0 : ℚ) ≤ x / (unitOf k).divisor := by positivity
  rw [if_neg hlarge, decimalsFor, abs_of_nonneg hscaled, divisor_unitOf h.le_last]
  push_cast
  obtain ⟨i, rfl⟩ : ∃ i, k = i + 1 := ⟨k - 1, by omega⟩
  have hlow := h.stop_le i (Nat.lt_succ_self i)
  have hmod : (i + 1) % 3 = 0 ∨ (i + 1) % 3 = 1 ∨ (i + 1) % 3 = 2 := by omega
  rcases hmod with hzero | hone | htwo
  · rw [stop_of_mod (by omega)] at hlow
    have hhundred : 100 ≤ x / 10 ^ (i + 1) := by
      rw [le_div_iff₀ (pow_ten_pos _), pow_add]
      rw [pow_add] at hlow
      linarith
    rw [digitsOf_of_mod hzero, Nat.add_zero, if_pos hhundred]
  · have hhigh := h.lt_stop (by have := h.le_last; omega)
    rw [stop_of_mod (by omega)] at hhigh
    have hdigits : digitsOf (i + 1) = 2 := if_pos hone
    have hten : x / 10 ^ (i + 1 + 2) < 10 := by
      rw [div_lt_iff₀ (pow_ten_pos _), pow_add]
      rw [pow_add] at hhigh
      linarith
    rw [hdigits, if_neg (by linarith), if_neg (by linarith)]
  · have hhigh := h.lt_stop (by have := h.le_last; omega)
    rw [stop_of_mod (by omega)] at hlow hhigh
    have hdigits : digitsOf (i + 1) = 1 := by rw [digitsOf, if_neg (by omega), if_pos htwo]
    have hhundred : x / 10 ^ (i + 1 + 1) < 100 := by
      rw [div_lt_iff₀ (pow_ten_pos _), pow_add]
      rw [pow_add] at hhigh
      linarith
    have hten : 10 ≤ x / 10 ^ (i + 1 + 1) := by
      rw [le_div_iff₀ (pow_ten_pos _), pow_add, pow_add]
      rw [pow_add] at hlow
      linarith
    rw [hdigits, if_neg (by linarith), if_pos hten]

/-- What is printed of a rate of level `k`. -/
theorem prints_of_level (hx : 0 ≤ x) (h : scale.Level 9 x k) :
    Prints (formatBitRate (some (.finite x))) (toGrid (10 ^ k) x / (unitOf k).divisor)
      (unitOf k) := by
  have hunit := divisor_unitOf h.le_last
  refine ⟨?_, ?_, ?_⟩
  · unfold unitOf
    split_ifs <;> decide
  · have hfloor : (0 : ℤ) ≤ ⌊x / 10 ^ k + 1 / 2⌋ := Int.floor_nonneg.mpr (by positivity)
    refine ⟨⌊x / 10 ^ k + 1 / 2⌋.toNat * 10 ^ (2 - digitsOf k), ?_⟩
    have hsplit : (100 : ℚ) = 10 ^ (2 - digitsOf k) * 10 ^ digitsOf k := by
      rw [← pow_add, Nat.sub_add_cancel (digitsOf_le k)]
      norm_num
    rw [hunit, toGrid, hsplit]
    push_cast
    rw [cast_toNat hfloor, pow_add]
    field_simp
  · rw [formatBitRate_of_level hx h, formatRateIn_eq hx hunit (decimalsFor_of_level hx h)]

/-! ### Range and accuracy

By levels. The worst case is the beginning of a level. -/

theorem lt_thousand_of_level (h : scale.Level 9 x k) (hk : k ≤ 6) :
    toGrid (10 ^ k) x / (unitOf k).divisor < 1000 := by
  have hpow := pow_ten_pos k
  rw [divisor_unitOf h.le_last]
  push_cast
  rw [div_lt_iff₀ (by positivity)]
  by_cases hmod : k % 3 = 0
  · have hstop : scale.stop k = 10 ^ (k + 3) - 10 ^ k / 2 := if_pos hmod
    have hlt := h.lt_stop (by omega)
    have hnear := (abs_le.mp (abs_toGrid_sub_le hpow x)).2
    rw [hstop, pow_add] at hlt
    rw [digitsOf_of_mod hmod, Nat.add_zero]
    linarith
  · have hdigits : 1 ≤ digitsOf k := by
      unfold digitsOf
      split_ifs <;> omega
    have hbound : toGrid (10 ^ k) x ≤ 10 ^ (k + 3) := h.toGrid_le_bound (by omega)
    have hcoarse : (10 : ℚ) ^ (k + 1) ≤ 10 ^ (k + digitsOf k) :=
      pow_le_pow_right₀ (by norm_num) (by omega)
    rw [pow_add] at hbound hcoarse
    linarith

theorem one_le_of_level (h : scale.Level 9 x (k + 1)) :
    1 ≤ toGrid (10 ^ (k + 1)) x / (unitOf (k + 1)).divisor := by
  have hdigits := digitsOf_le (k + 1)
  have hbound : (10 : ℚ) ^ (k + 3) ≤ toGrid (10 ^ (k + 1)) x := h.bound_le_toGrid
  rw [divisor_unitOf h.le_last]
  push_cast
  rw [le_div_iff₀ (by positivity), one_mul]
  exact (pow_le_pow_right₀ (by norm_num) (by omega)).trans hbound

/-- Half of the grid is half a percent at the beginning of a level. Where the level begins early,
everything before its proper beginning is rounded to that. -/
theorem near_of_level (h : scale.Level 9 x (k + 1)) :
    |toGrid (10 ^ (k + 1)) x - x| ≤ 5 / 1000 * x := by
  have hpow := pow_ten_pos k
  have hgrid := pow_ten_pos (k + 1)
  have hnear := abs_toGrid_sub_le hgrid x
  by_cases hfull : (10 : ℚ) ^ (k + 3) ≤ x
  · refine hnear.trans ?_
    rw [pow_add] at hfull ⊢
    linarith
  · have hbegin : (10 : ℚ) ^ (k + 3) - 10 ^ k / 2 ≤ x :=
      (half_grid_le_stop k).trans (h.stop_le k (Nat.lt_succ_self k))
    have hbound : (10 : ℚ) ^ (k + 3) ≤ toGrid (10 ^ (k + 1)) x := h.bound_le_toGrid
    have hhundred : (10 : ℚ) ^ (k + 3) = (100 : ℤ) * 10 ^ (k + 1) := by
      push_cast
      ring
    have hround : toGrid (10 ^ (k + 1)) x ≤ 10 ^ (k + 3) := by
      rw [hhundred]
      exact toGrid_le hgrid (hhundred ▸ (not_le.mp hfull).le)
    have hthousand : (10 : ℚ) ^ (k + 3) = 1000 * 10 ^ k := by ring
    rw [abs_of_nonneg (by linarith)]
    linarith

/-- **What is printed of a rate**: a number below a thousand of its unit, and at least one of it,
off by half a percent at most; and larger rates are not printed as less. -/
theorem formatBitRate_spec (hx : 0 ≤ x) :
    (∃ q unit, Prints (formatBitRate (some (.finite x))) q unit) ∧
      ∀ q unit, Prints (formatBitRate (some (.finite x))) q unit →
        (unit ≠ .gigabit → q < 1000) ∧ (unit ≠ .bit → 1 ≤ q) ∧
        (unit = .bit → |q * unit.divisor - x| ≤ 1 / 2) ∧
        (unit ≠ .bit → |q * unit.divisor - x| ≤ 5 / 1000 * x) ∧
        ∀ y q' unit', x ≤ y → Prints (formatBitRate (some (.finite y))) q' unit' →
          q * unit.divisor ≤ q' * unit'.divisor := by
  obtain ⟨k, hk⟩ := scale.exists_level 9 x
  have hvalue (z : ℚ) {j : ℕ} (hj : j ≤ 9) :
      toGrid (10 ^ j) z / (unitOf j).divisor * (unitOf j).divisor = toGrid (10 ^ j) z := by
    have hpos : (0 : ℚ) < (unitOf j).divisor := by
      rw [divisor_unitOf hj]
      positivity
    exact div_mul_cancel₀ _ hpos.ne'
  have hprints := prints_of_level hx hk
  refine ⟨⟨_, _, hprints⟩, ?_⟩
  intro q unit hq
  obtain ⟨rfl, rfl⟩ := hq.unique hprints
  rw [hvalue x hk.le_last]
  refine ⟨?_, ?_, ?_, ?_, ?_⟩
  · intro hunit
    refine lt_thousand_of_level hk (not_lt.mp fun hlt => hunit ?_)
    rw [unitOf, if_neg (by omega), if_neg (by omega), if_neg (by omega)]
  · intro hunit
    obtain ⟨j, rfl⟩ := Nat.exists_eq_succ_of_ne_zero fun hzero => hunit (if_pos hzero)
    exact one_le_of_level hk
  · intro hunit
    have hzero : k = 0 := by
      by_contra hne
      rw [unitOf, if_neg hne] at hunit
      split_ifs at hunit <;> exact absurd hunit (by decide)
    subst hzero
    exact abs_toGrid_sub_le one_pos x
  · intro hunit
    obtain ⟨j, rfl⟩ := Nat.exists_eq_succ_of_ne_zero fun hzero => hunit (if_pos hzero)
    exact near_of_level hk
  · intro y q' unit' hxy hq'
    obtain ⟨j, hj⟩ := scale.exists_level 9 y
    obtain ⟨rfl, rfl⟩ := hq'.unique (prints_of_level (hx.trans hxy) hj)
    rw [hvalue y hj.le_last]
    exact Scale.toGrid_mono hk hj hxy

/-- A rate that goes into the next unit by rounding. -/
theorem formatBitRate_spec_of_carry :
    (∃ q unit, Prints (formatBitRate (some (.finite 999600))) q unit) ∧
      ∀ q unit, Prints (formatBitRate (some (.finite 999600))) q unit →
        (unit ≠ .gigabit → q < 1000) ∧ (unit ≠ .bit → 1 ≤ q) ∧
        (unit = .bit → |q * unit.divisor - 999600| ≤ 1 / 2) ∧
        (unit ≠ .bit → |q * unit.divisor - 999600| ≤ 5 / 1000 * 999600) ∧
        ∀ y q' unit', 999600 ≤ y → Prints (formatBitRate (some (.finite y))) q' unit' →
          q * unit.divisor ≤ q' * unit'.divisor :=
  formatBitRate_spec (by norm_num)

end Traffic

end LookingGlass
