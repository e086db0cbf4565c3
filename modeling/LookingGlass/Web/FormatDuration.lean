import LookingGlass.Foundations.Decimals
import LookingGlass.Foundations.Grids
import LookingGlass.Web.FormatWindow

/-!
# Durations

A duration is printed in milliseconds, in seconds with one decimal, or in minutes and seconds. The
unit is chosen by the duration, and the number is rounded afterwards. So what is printed is as close
to the duration as its last digit allows, but it may have reached the next unit: `1000 ms`, `60.0 s`
and `1m 60s` are printed of durations just below a second, a minute and two minutes.

## Arithmetic of 64 bits

Quotients, products and differences are rounded to 64 bits. For durations below `2 ^ 53` this can be
seen in one place only. Minutes and seconds come out as if nothing were rounded: the quotients have
the halves of the exact ones, and the product and the difference are exact. Tenths of a second do
not when the duration is halfway between two of them: of 1150 the quotient is a little less than
1.15, and `1.1 s` is printed. That is as close as `1.2 s`, so what is printed is still off by half
of its last digit at most.

## Main results

* `Format.formatDuration_eq` — which duration is printed
* `Format.formatDuration_iff` — what is printed is one duration, it is close, and when it is
  canonical
-/

namespace LookingGlass

namespace Format

open Utf16 AddressText

def emDash : Str := "—"

/-- `Number.prototype.toFixed` -/
def toFixed (digits : ℕ) (x : ℚ) : Str :=
  (if x < 0 then [ofChar '-'] else []) ++ Double.format digits digits (.finite |x|)

/-- A product of numbers of 64 bits. -/
def times (x : ℚ) (n : ℕ) : ℚ := (Double.nearest (x * n)).toRat

/-- A difference of numbers of 64 bits. -/
def minus (x y : ℚ) : ℚ := (Double.nearest (x - y)).toRat

def formatDuration : Double → Str
  | .finite ms =>
    if ms < 0 then emDash
    else if ms < 1000 then concat [Double.decimalInt (mathRound ms), " ms"]
    else
      let seconds := divide ms 1000
      if seconds < 60 then concat [toFixed 1 seconds, " s"]
      else
        let minutes := ⌊divide seconds 60⌋
        concat [Double.decimalInt minutes, "m ",
          Double.decimalInt (mathRound (minus seconds (times minutes 60))), "s"]
  | _ => emDash

/-! ### What a text says

The numbers and the unit of a text can be read back. So it makes sense to ask what a text says and
whether that is in its own unit. -/

/-- What is printed: a number of milliseconds, of tenths of a second, or of minutes and seconds. -/
inductive Duration where
  | milliseconds (count : ℕ)
  | seconds (tenths : ℕ)
  | minutes (count rest : ℕ)

namespace Duration

def text : Duration → Str
  | milliseconds count => concat [decimal count, " ms"]
  | seconds tenths => concat [toFixed 1 (tenths / 10), " s"]
  | minutes count rest => concat [decimal count, "m ", decimal rest, "s"]

/-- In milliseconds. -/
def value : Duration → ℚ
  | milliseconds count => count
  | seconds tenths => 100 * tenths
  | minutes count rest => 1000 * (60 * count + rest)

/-- The unit of the last digit, in milliseconds. -/
def unit : Duration → ℚ
  | milliseconds _ => 1
  | seconds _ => 100
  | minutes _ _ => 1000

/-- In the unit for so many milliseconds, and short of the next one. -/
def Canonical (ms : ℚ) : Duration → Prop
  | milliseconds count => ms < 1000 ∧ count < 1000
  | seconds tenths => 1000 ≤ ms ∧ ms < 60000 ∧ tenths < 600
  | minutes count rest => 60000 ≤ ms ∧ 1 ≤ count ∧ rest ≤ 59

end Duration

variable {ms x : ℚ}

theorem toFixed_of_nonneg (digits : ℕ) (hx : 0 ≤ x) :
    toFixed digits x = Double.format digits digits (.finite x) := by
  rw [toFixed, if_neg (not_lt.mpr hx), abs_of_nonneg hx, List.nil_append]

theorem decimalInt_of_nonneg {n : ℤ} (hn : 0 ≤ n) : Double.decimalInt n = decimal n.toNat := by
  rw [Double.decimalInt, if_neg (not_lt.mpr hn), ← Int.toNat_of_nonneg hn, Int.natAbs_natCast,
    Int.toNat_natCast]

/-- The mark that ends the first number of a text. -/
def Duration.mark : Duration → Char16
  | .milliseconds _ => ofChar ' '
  | .seconds _ => ofChar '.'
  | .minutes _ _ => ofChar 'm'

theorem exists_text_eq (d : Duration) :
    ∃ (first : ℕ) (rest : Str), d.text = decimal first ++ d.mark :: rest := by
  cases d with
  | milliseconds count => exact ⟨count, "ms", by simp [Duration.text, Duration.mark, ofString]⟩
  | minutes count rest =>
    exact ⟨count, concat [" ", decimal rest, "s"], by
      simp [Duration.text, Duration.mark, ofString]⟩
  | seconds tenths =>
    have hnonneg : (0 : ℚ) ≤ tenths / 10 := by positivity
    have hunits : (tenths / 10 : ℚ) = tenths / 10 ^ 1 := by rw [pow_one]
    refine ⟨tenths / 10 ^ 1, concat [Double.decimals 1 1 tenths, " s"], ?_⟩
    rw [Duration.text, toFixed_of_nonneg 1 hnonneg, hunits, Double.format_units,
      Double.fractionText]
    simp [Double.decimals_ne_nil, Duration.mark]

/-- Each text is that of one duration. -/
theorem text_injective : Function.Injective Duration.text := by
  intro d e h
  have hdigits (n : ℕ) (c : Char16) (hc : c ∈ decimal n) : (!isDigit c) = false := by
    rw [isDigit_of_mem_decimal hc]
    rfl
  have hmark (d : Duration) : (!isDigit d.mark) = true := by
    cases d <;> rfl
  obtain ⟨first, rest, hd⟩ := exists_text_eq d
  obtain ⟨first', rest', he⟩ := exists_text_eq e
  obtain ⟨-, hmarks, -⟩ := Pattern.append_cons_inj (hdigits first) (hdigits first') (hmark d)
    (hmark e) (hd.symm.trans (h.trans he))
  cases d with
  | milliseconds count =>
    cases e with
    | milliseconds count' =>
      simp only [Duration.text, concat, List.flatten_cons, List.append_left_inj] at h
      rw [decimal_injective h]
    | seconds | minutes => exact absurd hmarks (by rw [Duration.mark, Duration.mark]; decide)
  | seconds tenths =>
    cases e with
    | seconds tenths' =>
      simp only [Duration.text, concat, List.flatten_cons, List.append_left_inj] at h
      rw [toFixed_of_nonneg 1 (by positivity), toFixed_of_nonneg 1 (by positivity)] at h
      have hunits (n : ℕ) : (n / 10 : ℚ) = n / 10 ^ 1 := by rw [pow_one]
      rw [hunits, hunits] at h
      rw [Double.units_of_format h]
    | milliseconds | minutes => exact absurd hmarks (by rw [Duration.mark, Duration.mark]; decide)
  | minutes count rest =>
    cases e with
    | minutes count' rest' =>
      have hsplit (m n : ℕ) : (Duration.minutes m n).text =
          decimal m ++ ofChar 'm' :: (ofString " " ++ decimal n ++ ofString "s") := by
        simp [Duration.text, ofString]
      rw [hsplit, hsplit] at h
      obtain ⟨hcount, -, hrest⟩ := Pattern.append_cons_inj (hdigits count) (hdigits count')
        rfl rfl h
      rw [decimal_injective hcount,
        decimal_injective (List.append_cancel_left (List.append_cancel_right hrest))]
    | milliseconds | seconds => exact absurd hmarks (by rw [Duration.mark, Duration.mark]; decide)

/-! ### What is printed

Which duration is printed, as a function of the exact quotients, but for the tenths of a second. -/

/-- The duration that is printed. Only the tenths depend on how the quotient is rounded. -/
def printed (ms : ℚ) : Duration :=
  if ms < 1000 then .milliseconds (mathRound ms).toNat
  else if ms < 60000 then .seconds (mathRound (10 * divide ms 1000)).toNat
  else .minutes ⌊ms / 60000⌋.toNat (mathRound (60 * Int.fract (ms / 60000))).toNat

theorem mathRound_nonneg (hx : 0 ≤ x) : 0 ≤ mathRound x :=
  Int.floor_nonneg.mpr (by linarith)

/-- The seconds of a duration of a second or more. -/
theorem divide_thousand (h : IsSafe ms) (hlow : 1000 ≤ ms) :
    SameHalves (divide ms 1000) (ms / 1000) ∧ Double.Fits (divide ms 1000) ∧
      divide ms 1000 < 2 ^ 53 ∧ Double.nearest (ms / 1000) = .finite (divide ms 1000) := by
  have hlow' : ((1000 : ℕ) : ℚ) ≤ ms := by exact_mod_cast hlow
  exact_mod_cast sameHalves_divide (a := 9) (m := 500) (h.fits (by linarith)) hlow' h.2 (by omega)
    (by omega) rfl

theorem divide_nonneg (h : IsSafe ms) (hlow : 1000 ≤ ms) : 0 ≤ divide ms 1000 := by
  have hzero := ((divide_thousand h hlow).1.le_iff 0).mpr (by push_cast; positivity)
  exact_mod_cast hzero

theorem times_natCast {n m : ℕ} (h : n * m < 2 ^ 53) : times n m = (n * m : ℕ) := by
  have hnearest := Double.nearest_natCast h
  rw [Nat.cast_mul] at hnearest
  rw [times, hnearest, Nat.cast_mul]
  rfl

/-- The minutes and their product are exact, and so is what is left of the seconds. -/
theorem mathRound_minus (h : IsSafe ms) (hlow : 60000 ≤ ms) :
    ⌊divide (divide ms 1000) 60⌋ = ⌊ms / 60000⌋ ∧
      mathRound (minus (divide ms 1000) (times ⌊ms / 60000⌋ 60)) =
        mathRound (60 * Int.fract (ms / 60000)) := by
  obtain ⟨hseconds, hfits, hhigh, -⟩ := divide_thousand h (by linarith)
  have hlow' : ((60 : ℕ) : ℚ) ≤ divide ms 1000 := by
    have hle := (hseconds.le_iff 60).mpr (by push_cast; linarith)
    exact_mod_cast hle
  obtain ⟨hquotient, -⟩ := sameHalves_divide (a := 5) (m := 30) hfits hlow' hhigh (by omega)
    (by omega) rfl
  have hminutes : ⌊divide (divide ms 1000) 60⌋ = ⌊ms / 60000⌋ := by
    have hcomposed := hquotient.div_trans (m := 60000) (a := 1000) (by exact_mod_cast hseconds)
      (by omega) rfl
    exact_mod_cast hcomposed.floor_eq
  refine ⟨hminutes, ?_⟩
  have hone : 1 ≤ ⌊ms / 60000⌋ := by
    rw [Int.le_floor]
    push_cast
    linarith
  obtain ⟨minutes, hnat⟩ := Int.eq_ofNat_of_zero_le (show 0 ≤ ⌊ms / 60000⌋ by omega)
  have hbelow : (minutes * 60 : ℕ) ≤ divide ms 1000 := by
    have hfloor : ((minutes * 60 : ℕ) : ℤ) ≤ ms / 1000 := by
      have := Int.floor_le (ms / 60000)
      rw [hnat] at this
      push_cast at this ⊢
      linarith
    exact_mod_cast (hseconds.le_iff _).mpr hfloor
  have hproduct : times ⌊ms / 60000⌋ 60 = (minutes * 60 : ℕ) := by
    rw [hnat]
    exact_mod_cast times_natCast (by exact_mod_cast hbelow.trans_lt hhigh)
  have hpositive : 0 < minutes * 60 := by omega
  have hsecond : 1 ≤ divide ms 1000 := by
    push_cast at hlow'
    linarith
  rw [hproduct, minus, Double.nearest_sub_natCast hfits hsecond hpositive hbelow]
  have hrest : 60 * Int.fract (ms / 60000) = ms / 1000 - (minutes * 60 : ℕ) := by
    rw [Int.fract, hnat]
    push_cast
    ring
  rw [hrest, Double.toRat]
  exact (hseconds.sub_natCast (minutes * 60)).mathRound_eq

theorem formatDuration_eq (h : IsSafe ms) (hnonneg : 0 ≤ ms) :
    formatDuration (.finite ms) = (printed ms).text := by
  rw [formatDuration, if_neg (not_lt.mpr hnonneg), printed]
  dsimp only
  by_cases hshort : ms < 1000
  · rw [if_pos hshort, if_pos hshort, decimalInt_of_nonneg (mathRound_nonneg hnonneg)]
    rfl
  rw [if_neg hshort, if_neg hshort]
  obtain ⟨hsame, -⟩ := divide_thousand h (not_lt.mp hshort)
  have hseconds : divide ms 1000 < 60 ↔ ms < 60000 := by
    have hthreshold := SameHalves.lt_iff_of_div (a := 1000) (n := 60) (m := 60000)
      (by exact_mod_cast hsame) (by omega) rfl
    exact_mod_cast hthreshold
  have hpositive := divide_nonneg h (not_lt.mp hshort)
  by_cases hlong : ms < 60000
  · have hprinted : toFixed 1 (divide ms 1000) =
        toFixed 1 ((mathRound (10 * divide ms 1000)).toNat / 10) := by
      rw [toFixed_of_nonneg 1 hpositive, toFixed_of_nonneg 1 (by positivity),
        Double.format_eq_units hpositive, pow_one, mul_comm]
      rfl
    rw [if_pos (hseconds.mpr hlong), if_pos hlong, hprinted]
    rfl
  · obtain ⟨hminutes, hrest⟩ := mathRound_minus h (not_lt.mp hlong)
    have hfract := Int.fract_nonneg (ms / 60000)
    rw [if_neg (mt hseconds.mp hlong), if_neg hlong, hminutes, hrest,
      decimalInt_of_nonneg (Int.floor_nonneg.mpr (by positivity)),
      decimalInt_of_nonneg (mathRound_nonneg (by positivity))]
    rfl

/-- Rounding to so many units is rounding to their grid. -/
theorem abs_mathRound_mul_sub_le {g : ℚ} (hg : 0 < g) (x : ℚ) :
    |g * mathRound (x / g) - x| ≤ g / 2 := by
  rw [mul_comm]
  exact abs_toGrid_sub_le hg x

theorem cast_toNat {n : ℤ} (hn : 0 ≤ n) : (n.toNat : ℚ) = n := by
  rw [← Int.cast_natCast, Int.toNat_of_nonneg hn]

theorem toNat_mathRound_lt_iff {n : ℕ} (hn : 0 < n) :
    (mathRound x).toNat < n ↔ x < n - 1 / 2 := by
  have hfloor : mathRound x < n ↔ x + 1 / 2 < (n : ℤ) := Int.floor_lt
  rw [Int.toNat_lt' hn, hfloor, Int.cast_natCast]
  exact lt_sub_iff_add_lt.symm

/-- Tenths that are rounded from the quotient are off by half at most, though not always by as
little as tenths that are rounded from the duration. -/
theorem abs_tenths_sub_le (h : IsSafe ms) (hlow : 1000 ≤ ms) :
    |100 * mathRound (10 * divide ms 1000) - ms| ≤ 50 := by
  obtain ⟨-, -, -, hr⟩ := divide_thousand h hlow
  have hlow' : ((1000 : ℕ) : ℚ) ≤ ms := by exact_mod_cast hlow
  have hside := Double.nearest_div_lt_iff (a := 9) (n := 1000) (h.fits (by linarith)) hlow' h.2
    (by omega) (by omega) (by exact_mod_cast hr)
  have hfloor := Int.floor_le (10 * divide ms 1000 + 1 / 2)
  have hfloor' := Int.lt_floor_add_one (10 * divide ms 1000 + 1 / 2)
  rw [← mathRound] at hfloor hfloor'
  generalize mathRound (10 * divide ms 1000) = tenths at hfloor hfloor' ⊢
  -- an integer of milliseconds that is passed by the duration is passed by the quotient, too
  obtain ⟨hbelow, -⟩ := hside (100 * tenths - 50)
  obtain ⟨-, habove⟩ := hside (100 * tenths + 50)
  push_cast at hbelow habove
  rw [abs_le]
  constructor
  · by_contra hlt
    have := habove (by linarith)
    linarith
  · by_contra hlt
    have := hbelow (by linarith)
    linarith

/-- What is printed is off by half of the last digit at most. -/
theorem printed_near (h : IsSafe ms) (hnonneg : 0 ≤ ms) :
    |(printed ms).value - ms| ≤ (printed ms).unit / 2 := by
  unfold printed
  split
  · have hnear := abs_mathRound_mul_sub_le one_pos ms
    rw [div_one, one_mul] at hnear
    rwa [Duration.value, Duration.unit, cast_toNat (mathRound_nonneg hnonneg)]
  split
  · next hshort _ =>
    have hnear := abs_tenths_sub_le h (not_lt.mp hshort)
    rw [Duration.value, Duration.unit,
      cast_toNat (mathRound_nonneg (mul_nonneg (by norm_num) (divide_nonneg h (not_lt.mp hshort))))]
    linarith
  · have hfract := Int.fract_nonneg (ms / 60000)
    have hthousand : (0 : ℚ) < 1000 := by norm_num
    have hnear := abs_mathRound_mul_sub_le hthousand (1000 * (60 * Int.fract (ms / 60000)))
    have hdifference :
        (1000 * (60 * ⌊ms / 60000⌋ + mathRound (60 * Int.fract (ms / 60000))) - ms : ℚ) =
          1000 * mathRound (60 * Int.fract (ms / 60000)) -
            1000 * (60 * Int.fract (ms / 60000)) := by
      rw [Int.fract]
      ring
    rw [mul_div_cancel_left₀ _ hthousand.ne'] at hnear
    rwa [Duration.value, Duration.unit, cast_toNat (Int.floor_nonneg.mpr (by positivity)),
      cast_toNat (mathRound_nonneg (by positivity)), hdifference]

/-- The rounding does not reach the next unit. There is a clause for each unit, with the threshold
from which on what is printed would be a whole one of the next. -/
def Short (ms : ℚ) : Prop :=
  (ms < 1000 → ms < 1999 / 2) ∧ (1000 ≤ ms → ms < 60000 → ms < 59950) ∧
    (60000 ≤ ms → 60 * Int.fract (ms / 60000) < 119 / 2)

/-- Of 59950 the quotient is a little more than 59.95. -/
theorem divide_lt_iff (h : IsSafe ms) (hlow : 1000 ≤ ms) :
    divide ms 1000 < 59950 / 1000 ↔ ms < 59950 := by
  obtain ⟨-, -, -, hr⟩ := divide_thousand h hlow
  have hlow' : ((1000 : ℕ) : ℚ) ≤ ms := by exact_mod_cast hlow
  obtain ⟨hbelow, habove⟩ := Double.nearest_div_lt_iff (a := 9) (n := 1000) (h.fits (by linarith))
    hlow' h.2 (by omega) (by omega) (by exact_mod_cast hr) 59950
  push_cast at hbelow habove
  rcases lt_trichotomy ms 59950 with hlt | rfl | hgt
  · exact iff_of_true (hbelow hlt) hlt
  · exact iff_of_false (by decide +kernel) (lt_irrefl _)
  · exact iff_of_false (not_lt.mpr (habove hgt).le) (not_lt.mpr hgt.le)

theorem canonical_printed_iff (h : IsSafe ms) : (printed ms).Canonical ms ↔ Short ms := by
  unfold printed Short
  by_cases hshort : ms < 1000
  · rw [if_pos hshort]
    have hround : (mathRound ms).toNat < 1000 ↔ ms < 1999 / 2 := by
      rw [toNat_mathRound_lt_iff (by decide)]
      norm_num
    rw [Duration.Canonical, hround]
    constructor
    · rintro ⟨-, hlt⟩
      exact ⟨fun _ => hlt, fun hlow _ => absurd hshort (not_lt.mpr hlow), fun hlow => by linarith⟩
    · rintro ⟨hlt, -⟩
      exact ⟨hshort, hlt hshort⟩
  rw [if_neg hshort]
  have hlow := not_lt.mp hshort
  by_cases hlong : ms < 60000
  · rw [if_pos hlong]
    have hround : (mathRound (10 * divide ms 1000)).toNat < 600 ↔ ms < 59950 := by
      rw [toNat_mathRound_lt_iff (by decide), ← divide_lt_iff h hlow, ← lt_div_iff₀' (by norm_num)]
      norm_num
    rw [Duration.Canonical, hround]
    constructor
    · rintro ⟨-, -, hlt⟩
      exact ⟨fun hms => absurd hms hshort, fun _ _ => hlt, fun hms => absurd hlong (not_lt.mpr hms)⟩
    · rintro ⟨-, hlt, -⟩
      exact ⟨hlow, hlong, hlt hlow hlong⟩
  · rw [if_neg hlong]
    have hminute : 1 ≤ ⌊ms / 60000⌋.toNat := by
      have hone : (1 : ℤ) ≤ ⌊ms / 60000⌋ := by
        rw [Int.le_floor, le_div_iff₀ (by norm_num)]
        push_cast
        linarith
      omega
    have hround : (mathRound (60 * Int.fract (ms / 60000))).toNat ≤ 59 ↔
        60 * Int.fract (ms / 60000) < 119 / 2 := by
      rw [← Nat.lt_succ_iff, toNat_mathRound_lt_iff (by decide)]
      norm_num
    rw [Duration.Canonical, hround]
    constructor
    · rintro ⟨-, -, hlt⟩
      exact ⟨fun hms => absurd hms hshort, fun _ hms => absurd hms hlong, fun _ => hlt⟩
    · rintro ⟨-, -, hlt⟩
      exact ⟨not_lt.mp hlong, hminute, hlt (not_lt.mp hlong)⟩

/-- **What is printed, and when it is canonical**: one duration, which is off by half of its last
digit at most; and it is in its own unit, unless its rest after the whole units is within half a
digit of the next unit. -/
theorem formatDuration_iff (h : IsSafe ms) (hnonneg : 0 ≤ ms) :
    (∃ d : Duration, (∀ e : Duration, formatDuration (.finite ms) = e.text ↔ e = d) ∧
      |d.value - ms| ≤ d.unit / 2) ∧
    ((∃ d : Duration, formatDuration (.finite ms) = d.text ∧ d.Canonical ms ∧
      |d.value - ms| ≤ d.unit / 2) ↔ Short ms) := by
  rw [← canonical_printed_iff h, formatDuration_eq h hnonneg]
  have hnear := printed_near h hnonneg
  constructor
  · refine ⟨printed ms, fun e => ?_, hnear⟩
    exact ⟨fun htext => (text_injective htext).symm, fun heq => heq ▸ rfl⟩
  · constructor
    · rintro ⟨d, htext, hcanonical, -⟩
      rwa [text_injective htext]
    · intro hcanonical
      exact ⟨printed ms, rfl, hcanonical, hnear⟩

/-- Just below two minutes. -/
theorem not_formatDuration_of_carry :
    formatDuration (.finite 119500) = ofString "1m 60s" ∧
      ¬ ∃ d : Duration, formatDuration (.finite 119500) = d.text ∧ d.Canonical 119500 ∧
        |d.value - 119500| ≤ d.unit / 2 := by
  have htext : formatDuration (.finite 119500) = ofString "1m 60s" := by decide +kernel
  refine ⟨htext, ?_⟩
  rintro ⟨d, hd, hcanonical, -⟩
  have hminutes : ofString "1m 60s" = (Duration.minutes 1 60).text := by decide
  obtain rfl := text_injective (hminutes.symm.trans (htext.symm.trans hd))
  exact absurd hcanonical.2.2 (by decide)

/-- Halfway between two tenths, and printed with the lower one. -/
theorem formatDuration_iff_of_seconds :
    formatDuration (.finite 1150) = ofString "1.1 s" ∧
      ∃ d : Duration, formatDuration (.finite 1150) = d.text ∧ d.Canonical 1150 ∧
        |d.value - 1150| ≤ d.unit / 2 := by
  have hsafe : IsSafe 1150 :=
    ⟨by exact_mod_cast Double.nearest_natCast (n := 1150) (by decide), by norm_num⟩
  refine ⟨by decide +kernel, (formatDuration_iff hsafe (by norm_num)).2.mpr ⟨?_, ?_, ?_⟩⟩
  · intro hms
    exact absurd hms (by norm_num)
  · norm_num
  · intro hms
    exact absurd hms (by norm_num)

end Format

end LookingGlass
