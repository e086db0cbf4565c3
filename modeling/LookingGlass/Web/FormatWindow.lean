import LookingGlass.Foundations.Double
import LookingGlass.Foundations.Pattern
import LookingGlass.Foundations.Rounding
import LookingGlass.Foundations.Spellings
import Mathlib.Tactic.Linarith
import Mathlib.Tactic.Ring

/-!
# The label of the measured window

What was measured is labelled with the time it covers, in whole seconds, minutes, hours or days. The
label must not claim a longer time than was measured, and it should not get shorter as the window
grows.

The number of units is rounded to the nearest integer. So the second holds, but not the first: from
half a unit on, the label is ahead of the window, until the window is a whole number of units again.

## Quotients of 64 bits

The quotients are rounded to 64 bits, one after the other. As long as the seconds can be counted,
below `2 ^ 53`, this makes no difference to a label, because a rounded quotient has the same halves
below it as the exact one: `SameHalves` is what is kept from one quotient to the next, and it is all
that the thresholds and the last rounding depend on. Nothing is said of longer windows, where the
seconds themselves are further apart than one.

## What is claimed

A label that names so many hours claims that many times 3600 seconds. It is compared with the window
counted in whole seconds, of which one that has begun counts. So a label of seconds never claims too
much, and in the larger units the rest decides, the part after the whole units. It is compared with
half a unit, and with one second less than a unit.

## Main results

* `Format.formatWindow_eq` — a label is the exact quotient in the unit of the window, rounded once
* `Format.formatWindow_iff` — when a label claims no longer time than was measured, and that labels
  grow with the window
-/

namespace LookingGlass

namespace Format

open Utf16 AddressText

/-- `Math.round`: the nearest integer, and of two the greater one. -/
def mathRound (x : ℚ) : ℤ := ⌊x + 1 / 2⌋

def pluralize (count : ℤ) (singular : Str) (plural : Str := singular ++ ofString "s") : Str :=
  concat [Double.decimalInt count, " ", if count = 1 then singular else plural]

/-- A division of numbers of 64 bits. -/
def divide (x : ℚ) (n : ℕ) : ℚ := (Double.nearest (x / n)).toRat

def formatWindow : Option Double → Str
  | some (.finite seconds) =>
    if seconds ≤ 0 then "Collecting data"
    else if seconds < 60 then concat ["Last ", pluralize (mathRound seconds) "second"]
    else
      let minutes := divide seconds 60
      if minutes < 120 then concat ["Last ", pluralize (mathRound minutes) "minute"]
      else
        let hours := divide minutes 60
        if hours < 48 then concat ["Last ", pluralize (mathRound hours) "hour"]
        else concat ["Last ", pluralize (mathRound (divide hours 24)) "day"]
  | _ => "Collecting data"

/-! ### What a label says

A label is read back as a count and a unit, and the time it claims is their product. -/

inductive WindowUnit where
  | second
  | minute
  | hour
  | day
  deriving DecidableEq

namespace WindowUnit

def name : WindowUnit → Str
  | second => "second"
  | minute => "minute"
  | hour => "hour"
  | day => "day"

def seconds : WindowUnit → ℕ
  | second => 1
  | minute => 60
  | hour => 3600
  | day => 86400

/-- The window from which on the unit is used. -/
def start : WindowUnit → ℕ
  | second => 0
  | minute => 60
  | hour => 7200
  | day => 172800

/-- The unit of a label, by the length of the window. -/
def of (seconds : ℚ) : WindowUnit :=
  if seconds < 60 then second
  else if seconds < 7200 then minute
  else if seconds < 172800 then hour
  else day

end WindowUnit

/-- The label names so many seconds: a number of units, times the length of one. -/
def Names (label : Str) (duration : ℤ) : Prop :=
  ∃ (count : ℤ) (unit : WindowUnit),
    label = concat ["Last ", pluralize count unit.name] ∧ duration = count * unit.seconds

variable {s t : ℚ}

theorem decimalInt_injective : Function.Injective Double.decimalInt := by
  -- No digit is a minus sign.
  have hsign (n m : ℕ) : ofChar '-' :: decimal n ≠ decimal m := by
    intro h
    have hmem : ofChar '-' ∈ decimal m := h ▸ List.mem_cons_self ..
    exact absurd (isDigit_of_mem_decimal hmem) (by decide)
  intro n m h
  unfold Double.decimalInt at h
  split at h <;> split at h
  · have := decimal_injective (List.cons.inj h).2
    omega
  · exact absurd h (hsign _ _)
  · exact absurd h.symm (hsign _ _)
  · have := decimal_injective h
    omega

theorem blank_notMem_decimalInt (n : ℤ) : ofChar ' ' ∉ Double.decimalInt n := by
  have hdigits (k : ℕ) : ofChar ' ' ∉ decimal k := fun hmem =>
    absurd (isDigit_of_mem_decimal hmem) (by decide)
  unfold Double.decimalInt
  split
  · rw [List.mem_cons, not_or]
    exact ⟨by decide, hdigits _⟩
  · exact hdigits _

theorem pluralize_inj {count count' : ℤ} {unit unit' : WindowUnit}
    (h : pluralize count unit.name = pluralize count' unit'.name) :
    count = count' ∧ unit = unit' := by
  have hword (c : ℤ) (u : WindowUnit) : pluralize c u.name = Double.decimalInt c ++
      ofChar ' ' :: (if c = 1 then u.name else u.name ++ ofString "s") := by
    simp [pluralize, ofString]
  have hname : ∀ u u' : WindowUnit, u.name = u'.name → u = u' := by
    intro u u'
    cases u <;> cases u' <;> decide
  have hblank (n : ℤ) (c : Char16) (hc : c ∈ Double.decimalInt n) : (c == ofChar ' ') = false := by
    refine beq_eq_false_iff_ne.mpr ?_
    rintro rfl
    exact blank_notMem_decimalInt n hc
  rw [hword, hword] at h
  obtain ⟨hcount, -, hunit⟩ := Pattern.append_cons_inj (hblank count) (hblank count')
    (beq_self_eq_true _) (beq_self_eq_true _) h
  obtain rfl := decimalInt_injective hcount
  refine ⟨rfl, hname unit unit' ?_⟩
  split at hunit
  · exact hunit
  · exact List.append_cancel_right hunit

/-- A label names one duration only. -/
theorem Names.unique {label : Str} {d e : ℤ} (hd : Names label d) (he : Names label e) : d = e := by
  obtain ⟨count, unit, rfl, rfl⟩ := hd
  obtain ⟨count', unit', hlabel, rfl⟩ := he
  have hrest : pluralize count unit.name = pluralize count' unit'.name := by
    simpa using hlabel
  obtain ⟨rfl, rfl⟩ := pluralize_inj hrest
  rfl

/-! ### Quotients of 64 bits

An integer or a half of one is among the numbers of 64 bits, as long as it is below `2 ^ 53`, so
rounding does not lead past it. -/

/-- The same halves are below two numbers. Thresholds of the code are integers, and rounding to the
nearest integer changes at the halves between them, so all of this is the same for both. -/
def SameHalves (x y : ℚ) : Prop := ∀ k : ℤ, (k / 2 : ℚ) ≤ x ↔ (k / 2 : ℚ) ≤ y

namespace SameHalves

variable {x y z : ℚ}

theorem trans (h : SameHalves x y) (h' : SameHalves y z) : SameHalves x z :=
  fun k => (h k).trans (h' k)

theorem div (h : SameHalves x y) {n : ℕ} (hn : 0 < n) : SameHalves (x / n) (y / n) := by
  have hpos : (0 : ℚ) < n := by exact_mod_cast hn
  intro k
  have hscaled := h (k * n)
  push_cast at hscaled
  rwa [mul_div_right_comm, ← le_div_iff₀ hpos, ← le_div_iff₀ hpos] at hscaled

theorem le_iff (h : SameHalves x y) (n : ℤ) : n ≤ x ↔ n ≤ y := by
  have hwhole := h (2 * n)
  push_cast at hwhole
  rwa [mul_div_cancel_left₀ _ two_ne_zero] at hwhole

theorem lt_iff (h : SameHalves x y) (n : ℤ) : x < n ↔ y < n := by
  rw [← not_le, ← not_le, h.le_iff]

theorem floor_eq (h : SameHalves x y) : ⌊x⌋ = ⌊y⌋ := by
  refine eq_of_forall_le_iff fun n => ?_
  rw [Int.le_floor, Int.le_floor, h.le_iff]

theorem mathRound_eq (h : SameHalves x y) : mathRound x = mathRound y := by
  refine eq_of_forall_le_iff fun n => ?_
  have hhalf := h (2 * n - 1)
  push_cast at hhalf
  rw [mathRound, mathRound, Int.le_floor, Int.le_floor]
  constructor
  · intro hn
    have hle := hhalf.mp (by linarith)
    linarith
  · intro hn
    have hle := hhalf.mpr (by linarith)
    linarith

/-- Taking a whole number away keeps the halves. -/
theorem sub_natCast (h : SameHalves x y) (n : ℕ) : SameHalves (x - n) (y - n) := by
  intro k
  have hshifted := h (k + 2 * n)
  push_cast at hshifted
  rw [le_sub_iff_add_le, le_sub_iff_add_le]
  have hhalves : (k / 2 + n : ℚ) = (k + 2 * n) / 2 := by ring
  rwa [hhalves]

/-- A quotient of a quotient. -/
theorem div_trans {a b m : ℕ} (h : SameHalves x (y / b)) (h' : SameHalves y (z / a)) (hb : 0 < b)
    (hm : a * b = m) : SameHalves x (z / m) := by
  have hcomposed := h.trans (h'.div hb)
  rwa [div_div, ← Nat.cast_mul, hm] at hcomposed

/-- A threshold for a quotient is one for the number that was divided. -/
theorem lt_iff_of_div {a n m : ℕ} (h : SameHalves x (y / a)) (ha : 0 < a) (hm : n * a = m) :
    x < n ↔ y < m := by
  have hpos : (0 : ℚ) < a := by exact_mod_cast ha
  have hlt := h.lt_iff n
  push_cast at hlt
  rw [hlt, div_lt_iff₀ hpos, ← hm, Nat.cast_mul]

end SameHalves

/-- A quotient of 64 bits has the halves of the exact one, and can be divided again. -/
theorem sameHalves_divide {x : ℚ} {n m a : ℕ} (hx : Double.Fits x) (hlow : n ≤ x)
    (hhigh : x < 2 ^ 53) (hn : 2 ^ a < n) (hn' : n < 2 ^ (a + 1)) (hm : n = 2 * m) :
    SameHalves (divide x n) (x / n) ∧ Double.Fits (divide x n) ∧ divide x n < 2 ^ 53 ∧
      Double.nearest (x / n) = .finite (divide x n) := by
  have hpos : (1 : ℚ) ≤ n := by
    have hpow := Nat.one_le_two_pow (n := a)
    exact_mod_cast (show 1 ≤ n by omega)
  have hone : 1 ≤ x / n := by rwa [le_div_iff₀ (by linarith), one_mul]
  have hquotient : x / n < 2 ^ 53 :=
    (div_le_self (by linarith) hpos).trans_lt hhigh
  have hr : Double.nearest (x / n) = .finite (divide x n) := by
    rw [divide, Double.nearest_eq hone hquotient]
    rfl
  have hsame : SameHalves (divide x n) (x / n) :=
    fun k => Double.half_le_nearest_div_iff hx hlow hhigh hn hn' hm hr k
  refine ⟨hsame, (Double.nearest_spec hone hquotient hr).1, ?_, hr⟩
  have hbelow := (hsame.lt_iff (2 ^ 53)).mpr (by exact_mod_cast hquotient)
  exact_mod_cast hbelow

/-- A number of 64 bits below `2 ^ 53`, from where on not every integer is one. -/
def IsSafe (x : ℚ) : Prop := Double.nearest x = .finite x ∧ x < 2 ^ 53

theorem IsSafe.fits {x : ℚ} (h : IsSafe x) (hone : 1 ≤ x) : Double.Fits x :=
  (Double.nearest_spec hone h.2 h.1).1

/-- **Rounding the quotients changes no label**: it is in the unit of the window, and the exact
quotient is rounded once. -/
theorem formatWindow_eq (h : IsSafe s) (hpos : 0 < s) :
    formatWindow (some (.finite s)) = concat ["Last ",
      pluralize (mathRound (s / (WindowUnit.of s).seconds)) (WindowUnit.of s).name] := by
  rw [formatWindow, if_neg (not_le.mpr hpos), WindowUnit.of]
  dsimp only
  by_cases hsecond : s < 60
  · rw [if_pos hsecond, if_pos hsecond, WindowUnit.seconds, Nat.cast_one, div_one]
    rfl
  rw [if_neg hsecond, if_neg hsecond]
  have hlow : ((60 : ℕ) : ℚ) ≤ s := by simpa using hsecond
  obtain ⟨hminutes, hfits, hhigh, -⟩ := sameHalves_divide (a := 5) (m := 30)
    (h.fits (by linarith)) hlow h.2 (by omega) (by omega) rfl
  have hminute : divide s 60 < 120 ↔ s < 7200 := by
    exact_mod_cast hminutes.lt_iff_of_div (n := 120) (m := 7200) (by omega) rfl
  by_cases hfew : s < 7200
  · rw [if_pos (hminute.mpr hfew), if_pos hfew, hminutes.mathRound_eq]
    rfl
  rw [if_neg (mt hminute.mp hfew), if_neg hfew]
  have hlow' : ((60 : ℕ) : ℚ) ≤ divide s 60 := by
    have hmany := not_lt.mp (mt hminute.mp hfew)
    push_cast
    linarith
  obtain ⟨hquotient, hfits', hhigh', -⟩ := sameHalves_divide (a := 5) (m := 30) hfits hlow' hhigh
    (by omega) (by omega) rfl
  have hhours : SameHalves (divide (divide s 60) 60) (s / (3600 : ℕ)) :=
    hquotient.div_trans hminutes (by omega) rfl
  have hhour : divide (divide s 60) 60 < 48 ↔ s < 172800 := by
    exact_mod_cast hhours.lt_iff_of_div (n := 48) (m := 172800) (by omega) rfl
  by_cases hshort : s < 172800
  · rw [if_pos (hhour.mpr hshort), if_pos hshort, hhours.mathRound_eq]
    rfl
  rw [if_neg (mt hhour.mp hshort), if_neg hshort]
  have hlow'' : ((24 : ℕ) : ℚ) ≤ divide (divide s 60) 60 := by
    have hmany := not_lt.mp (mt hhour.mp hshort)
    push_cast
    linarith
  obtain ⟨hquotient', -⟩ := sameHalves_divide (a := 4) (m := 12) hfits' hlow'' hhigh'
    (by omega) (by omega) rfl
  have hdays : SameHalves (divide (divide (divide s 60) 60) 24) (s / (86400 : ℕ)) :=
    hquotient'.div_trans hhours (by omega) rfl
  rw [hdays.mathRound_eq]
  rfl

/-! ### Rounding the number of units

What rounding to the nearest integer does to a time: when it is on the safe side, and that it
preserves the order. -/

theorem mathRound_mono {x y : ℚ} (h : x ≤ y) : mathRound x ≤ mathRound y := by
  refine Int.floor_le_floor ?_
  linarith

theorem mathRound_le {x : ℚ} {n : ℤ} (h : x ≤ n) : mathRound x ≤ n := by
  refine Int.lt_add_one_iff.mp (Int.floor_lt.mpr ?_)
  push_cast
  linarith

theorem le_mathRound {x : ℚ} {n : ℤ} (h : n ≤ x) : n ≤ mathRound x := by
  refine Int.le_floor.mpr ?_
  linarith

theorem mathRound_eq (x : ℚ) :
    mathRound x = if Int.fract x < 1 / 2 then ⌊x⌋ else ⌊x⌋ + 1 := by
  have hfract := Int.floor_add_fract x
  have hnonneg := Int.fract_nonneg x
  have hlt := Int.fract_lt_one x
  rw [mathRound, Int.floor_eq_iff]
  split
  · constructor <;> linarith
  · push_cast
    constructor <;> linarith

/-- A rounded number of units is no longer than the window if it was rounded down, or if less than
a second is missing to the next unit. -/
theorem mathRound_mul_le_iff {s : ℚ} {u : ℕ} (hu : 0 < u) :
    mathRound (s / u) * u ≤ ⌈s⌉ ↔
      Int.fract (s / u) < 1 / 2 ∨ 1 - 1 / u < Int.fract (s / u) := by
  have hpos : (0 : ℚ) < u := by exact_mod_cast hu
  have hs : s = ⌊s / u⌋ * u + Int.fract (s / u) * u := by
    rw [← add_mul, Int.floor_add_fract, div_mul_cancel₀ s hpos.ne']
  rw [mathRound_eq, Int.le_ceil_iff]
  split
  · next hdown =>
    refine iff_of_true ?_ (.inl hdown)
    have hrest := mul_nonneg (Int.fract_nonneg (s / u)) hpos.le
    push_cast
    linarith
  · next hup =>
    have hunit : (1 : ℚ) - 1 / u = (u - 1) / u := by
      rw [sub_div, div_self hpos.ne']
    rw [or_iff_right hup, hunit, div_lt_iff₀ hpos]
    push_cast
    constructor
    · intro h
      linarith
    · intro h
      linarith

/-- A whole number of units is not exceeded by the label of a window that ends before it. -/
theorem mathRound_mul_le {s : ℚ} {u n : ℕ} (hu : 0 < u) (h : s ≤ n * u) :
    mathRound (s / u) * u ≤ n * u := by
  have hpos : (0 : ℚ) < u := by exact_mod_cast hu
  have hquotient : s / u ≤ (n : ℤ) := by
    rw [div_le_iff₀ hpos]
    exact_mod_cast h
  exact Int.mul_le_mul_of_nonneg_right (mathRound_le hquotient) (Int.natCast_nonneg u)

theorem le_mathRound_mul {s : ℚ} {u n : ℕ} (hu : 0 < u) (h : n * u ≤ s) :
    (n * u : ℤ) ≤ mathRound (s / u) * u := by
  have hpos : (0 : ℚ) < u := by exact_mod_cast hu
  have hquotient : (n : ℤ) ≤ s / u := by
    rw [le_div_iff₀ hpos]
    exact_mod_cast h
  exact Int.mul_le_mul_of_nonneg_right (le_mathRound hquotient) (Int.natCast_nonneg u)

/-- The seconds that the label of a window names. -/
def named (s : ℚ) : ℤ := mathRound (s / (WindowUnit.of s).seconds) * (WindowUnit.of s).seconds

theorem names_iff (h : IsSafe s) (hpos : 0 < s) {d : ℤ} :
    Names (formatWindow (some (.finite s))) d ↔ d = named s := by
  have hnames : Names (formatWindow (some (.finite s))) (named s) :=
    ⟨_, _, formatWindow_eq h hpos, rfl⟩
  constructor
  · intro hd
    exact hd.unique hnames
  · rintro rfl
    exact hnames

theorem WindowUnit.start_le_iff (h : 0 < s) (u : WindowUnit) :
    u.start ≤ s ↔ u.start ≤ (WindowUnit.of s).start := by
  cases u with
  | second => exact iff_of_true h.le (Nat.zero_le _)
  | minute | hour | day =>
    simp only [WindowUnit.of, WindowUnit.start]
    push_cast
    split_ifs <;> simp <;> linarith

/-- Longer windows have longer labels. -/
theorem named_mono (hpos : 0 < s) (h : s ≤ t) : named s ≤ named t := by
  have hstart : (WindowUnit.of s).start ≤ (WindowUnit.of t).start := by
    rw [← WindowUnit.start_le_iff (hpos.trans_le h)]
    exact ((WindowUnit.start_le_iff hpos _).mpr le_rfl).trans h
  rcases hstart.eq_or_lt with heq | hlt
  · have hunit : WindowUnit.of s = WindowUnit.of t := by
      revert heq
      cases WindowUnit.of s <;> cases WindowUnit.of t <;> decide
    rw [named, named, hunit]
    refine Int.mul_le_mul_of_nonneg_right (mathRound_mono ?_) (Int.natCast_nonneg _)
    exact div_le_div_of_nonneg_right h (Nat.cast_nonneg _)
  · -- The longer unit starts at a whole number of either unit.
    have hwhole : ∀ u v : WindowUnit, u.start < v.start →
        u.seconds ∣ v.start ∧ v.seconds ∣ v.start := by
      intro u v
      cases u <;> cases v <;> decide
    have hunit (u : WindowUnit) : 0 < u.seconds := by cases u <;> decide
    obtain ⟨⟨n, hn⟩, ⟨n', hn'⟩⟩ := hwhole _ _ hlt
    have hbefore : s < (WindowUnit.of t).start :=
      not_le.mp (mt (WindowUnit.start_le_iff hpos _).mp (not_le.mpr hlt))
    have hfrom : ((WindowUnit.of t).start : ℚ) ≤ t :=
      (WindowUnit.start_le_iff (hpos.trans_le h) _).mpr le_rfl
    have hleft : named s ≤ n * (WindowUnit.of s).seconds := by
      refine mathRound_mul_le (hunit _) (hbefore.le.trans_eq ?_)
      rw [hn]
      push_cast
      ring
    have hright : (n' * (WindowUnit.of t).seconds : ℤ) ≤ named t := by
      refine le_mathRound_mul (hunit _) (le_of_eq_of_le ?_ hfrom)
      rw [hn']
      push_cast
      ring
    have hbound : (n * (WindowUnit.of s).seconds : ℤ) = n' * (WindowUnit.of t).seconds := by
      have heq := hn.symm.trans hn'
      rw [mul_comm, mul_comm (n' : ℤ)]
      exact_mod_cast heq
    exact hleft.trans (hbound.le.trans hright)

/-- **When a label claims no longer time than was measured**, counted in whole seconds: the rest
after the whole units is less than half a unit, or it is more than a unit less one second. A label
names one time, and longer windows have longer labels, without exception. -/
theorem formatWindow_iff (h : IsSafe s) (hpos : 0 < s) :
    (∃ d, Names (formatWindow (some (.finite s))) d ∧
      ∀ e, Names (formatWindow (some (.finite s))) e → e = d) ∧
    (∀ d, Names (formatWindow (some (.finite s))) d →
      (d ≤ ⌈s⌉ ↔ Int.fract (s / (WindowUnit.of s).seconds) < 1 / 2 ∨
        1 - 1 / (WindowUnit.of s).seconds < Int.fract (s / (WindowUnit.of s).seconds))) ∧
    ∀ t d e, IsSafe t → s ≤ t → Names (formatWindow (some (.finite s))) d →
      Names (formatWindow (some (.finite t))) e → d ≤ e := by
  refine ⟨⟨named s, (names_iff h hpos).mpr rfl, fun e he => (names_iff h hpos).mp he⟩,
    fun d hd => ?_, fun t d e ht hle hd he => ?_⟩
  · rw [(names_iff h hpos).mp hd]
    exact mathRound_mul_le_iff (by cases WindowUnit.of s <;> decide)
  · rw [(names_iff h hpos).mp hd, (names_iff ht (hpos.trans_le hle)).mp he]
    exact named_mono hpos hle

/-- Ninety seconds are labelled as two minutes. -/
theorem not_formatWindow_of_ninety :
    formatWindow (some (.finite 90)) = ofString "Last 2 minutes" ∧
      Names (ofString "Last 2 minutes") 120 ∧ ¬ (120 : ℤ) ≤ ⌈(90 : ℚ)⌉ := by
  refine ⟨by decide +kernel, ⟨2, .minute, by decide +kernel, by decide⟩, by decide +kernel⟩

/-- Twelve minutes, which are less than the three hours after them. -/
theorem formatWindow_iff_of_minutes :
    Names (formatWindow (some (.finite 720))) 720 ∧ (720 : ℤ) ≤ ⌈(720 : ℚ)⌉ ∧
      (720 : ℤ) ≤ 10800 := by
  have hminutes : Names (formatWindow (some (.finite 720))) 720 :=
    ⟨12, .minute, by decide +kernel, by decide⟩
  have hhours : Names (formatWindow (some (.finite 10800))) 10800 :=
    ⟨3, .hour, by decide +kernel, by decide⟩
  have hcounted : ∀ n : ℕ, n < 2 ^ 53 → IsSafe n := fun n hn =>
    ⟨Double.nearest_natCast hn, by exact_mod_cast hn⟩
  obtain ⟨-, hlabel, hlonger⟩ :=
    @formatWindow_iff 720 (by exact_mod_cast hcounted 720 (by decide)) (by norm_num)
  refine ⟨hminutes, (hlabel 720 hminutes).mpr (.inl ?_), hlonger 10800 720 10800
    (by exact_mod_cast hcounted 10800 (by decide)) (by norm_num) hminutes hhours⟩
  decide +kernel

end Format

end LookingGlass
