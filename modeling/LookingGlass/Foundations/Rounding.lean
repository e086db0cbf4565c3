import LookingGlass.Foundations.Double
import Mathlib.Tactic.Linarith
import Mathlib.Tactic.Positivity
import Mathlib.Tactic.Ring

/-!
# Quotients of 64-bit numbers

A number of 64 bits below `2 ^ 53` is a whole number of steps of its own size, none of which is
longer than one. Divided by an integer it may have to be rounded, but the rounding never crosses the
quotient of an integer: an integer that is not the number itself differs from it by a step, and a
step divided by the divisor is more than what rounding can add or take.

So a rounded quotient by an even number has the same halves below it as the exact one, and whatever
depends on these only (a comparison with an integer, a rounding to an integer) comes out the same.
What depends on other fractions comes out the same but where the number is an integer, and the
fraction is its exact quotient.

## Main results

* `Double.nearest_eq_self` — what is a number of the format is not rounded
* `Double.nearest_spec` — rounding to 64 bits, where numbers are neither tiny nor huge
* `Double.nearest_sub_natCast` — taking a whole number away
* `Double.nearest_div_lt_iff` — a rounded quotient is on the right side of those of integers
* `Double.half_le_nearest_div_iff` — a rounded quotient and the exact one have the same halves below
-/

namespace Double

/-- The value of a number that is finite. -/
def toRat : Double → ℚ
  | finite q => q
  | _ => 0

/-! ### Rounding to an integer

Rounding to the nearest integer is monotone in the only way that is needed: it passes no integer. -/

theorem le_roundHalfEven {q : ℚ} {n : ℤ} (h : n ≤ q) : n ≤ roundHalfEven q := by
  have hfloor : n ≤ q.floor := Int.le_floor.mpr h
  unfold roundHalfEven
  dsimp only
  split_ifs <;> omega

theorem abs_roundHalfEven_sub_le (q : ℚ) : |(roundHalfEven q : ℚ) - q| ≤ 1 / 2 := by
  have hlow : (q.floor : ℚ) ≤ q := Int.floor_le q
  have hhigh : q < q.floor + 1 := Int.lt_floor_add_one q
  unfold roundHalfEven
  dsimp only
  rw [abs_le]
  split_ifs <;> push_cast <;> constructor <;> linarith

theorem roundHalfEven_le {q : ℚ} {n : ℤ} (h : q < n) : roundHalfEven q ≤ n := by
  have hclose := (abs_le.mp (abs_roundHalfEven_sub_le q)).2
  have hlt : (roundHalfEven q : ℚ) < n + 1 := by linarith
  exact Int.lt_add_one_iff.mp (by exact_mod_cast hlt)

/-- A whole number is not rounded. -/
theorem roundHalfEven_intCast (n : ℤ) : roundHalfEven n = n := by
  have hfloor : ((n : ℚ)).floor = n := Int.floor_intCast (R := ℚ) n
  unfold roundHalfEven
  dsimp only
  rw [hfloor, sub_self, if_pos (by norm_num)]

/-! ### Rounding to 64 bits

Between two powers of two the numbers of the format are equidistant. So rounding is division by
their distance, rounding to an integer, and multiplication by it again. -/

variable {q r x : ℚ}

/-- The distance between neighbours of the format next to a number that is not tiny. -/
def step (q : ℚ) : ℚ := 2 ^ (Int.log 2 q - 52)

theorem step_pos (q : ℚ) : 0 < step q := zpow_pos (by norm_num) _

/-- There are at most `2 ^ 53` steps. -/
theorem lt_step (q : ℚ) : q < 2 ^ 53 * step q := by
  have hlog := Int.lt_zpow_succ_log_self (b := 2) (by norm_num) q
  have hstep : (2 : ℚ) ^ (Int.log 2 q + 1) = 2 ^ 53 * step q := by
    rw [step, ← zpow_natCast (2 : ℚ) 53, ← zpow_add₀ (by norm_num)]
    congr 1
    push_cast
    ring
  rw [← hstep]
  exact_mod_cast hlog

/-- Below `2 ^ k` the steps are at most `2 ^ (k - 53)`. -/
theorem step_le {k : ℤ} (hpos : 0 < q) (h : q < 2 ^ k) : step q ≤ 2 ^ (k - 53) := by
  have hlog : Int.log 2 q < k := (Int.lt_zpow_iff_log_lt (b := 2) (by norm_num) hpos).mp
    (by exact_mod_cast h)
  exact zpow_le_zpow_right₀ (by norm_num) (by omega)

theorem log_nonneg (h : 1 ≤ q) : 0 ≤ Int.log 2 q := by
  rw [← Int.log_one_right (R := ℚ) 2]
  exact Int.log_mono_right one_pos h

theorem roundHalfEven_steps_le (q : ℚ) : roundHalfEven (q / step q) ≤ 2 ^ 53 := by
  refine roundHalfEven_le ?_
  rw [div_lt_iff₀ (step_pos q)]
  exact_mod_cast lt_step q

/-- Rounding to 64 bits is rounding the number of steps. -/
theorem nearest_eq (hlow : 1 ≤ q) (hhigh : q < 2 ^ 53) :
    nearest q = finite (roundHalfEven (q / step q) * step q) := by
  have hpos : 0 < q := by linarith
  have hlog := log_nonneg hlow
  have hmax : max (Int.log 2 |q|) (-1022) - 52 = Int.log 2 q - 52 := by
    rw [abs_of_pos hpos]
    omega
  have hcount : (0 : ℚ) ≤ roundHalfEven (q / step q) := by
    have hnonneg : (0 : ℤ) ≤ roundHalfEven (q / step q) := by
      refine le_roundHalfEven ?_
      exact_mod_cast div_nonneg hpos.le (step_pos q).le
    exact_mod_cast hnonneg
  have hcount' : (roundHalfEven (q / step q) : ℚ) ≤ 2 ^ 53 := by
    exact_mod_cast roundHalfEven_steps_le q
  have hstep : step q ≤ 1 := by
    refine (step_le (k := 53) hpos (by exact_mod_cast hhigh)).trans_eq ?_
    norm_num
  have hsmall : |roundHalfEven (q / step q) * step q| < 2 ^ 1024 := by
    rw [abs_of_nonneg (mul_nonneg hcount (step_pos q).le)]
    calc roundHalfEven (q / step q) * step q ≤ 2 ^ 53 * 1 :=
          mul_le_mul hcount' hstep (step_pos q).le (by norm_num)
      _ < 2 ^ 1024 := by
        rw [mul_one]
        exact pow_lt_pow_right₀ (by norm_num) (by norm_num)
  rw [nearest, hmax, ← step, if_pos hsmall]

/-- A number of the format, of fewer than `2 ^ 53` steps, is not rounded. -/
theorem nearest_eq_self {count : ℕ} {exponent : ℤ} (hcount : count < 2 ^ 53)
    (hlow : -1074 ≤ exponent) (hhigh : exponent ≤ 0) :
    nearest (count * 2 ^ exponent) = finite (count * 2 ^ exponent) := by
  rcases Nat.eq_zero_or_pos count with rfl | hcountpos
  · have hzero : roundHalfEven 0 = 0 := by exact_mod_cast roundHalfEven_intCast 0
    simp [nearest, hzero]
  have hpos : (0 : ℚ) < 2 ^ exponent := zpow_pos (by norm_num) _
  have hcount' : (count : ℚ) < 2 ^ 53 := by exact_mod_cast hcount
  have hq : (0 : ℚ) < count * 2 ^ exponent := mul_pos (by exact_mod_cast hcountpos) hpos
  have hsmall : |count * (2 : ℚ) ^ exponent| < 2 ^ 1024 := by
    rw [abs_of_pos hq]
    have hone : (2 : ℚ) ^ exponent ≤ 1 := zpow_le_one_of_nonpos₀ (by norm_num) hhigh
    calc count * (2 : ℚ) ^ exponent ≤ 2 ^ 53 * 1 :=
          mul_le_mul hcount'.le hone hpos.le (by norm_num)
      _ < 2 ^ 1024 := by
        rw [mul_one]
        exact pow_lt_pow_right₀ (by norm_num) (by norm_num)
  -- the steps of the format divide those of the number
  have hlog : max (Int.log 2 (count * (2 : ℚ) ^ exponent)) (-1022) - 52 ≤ exponent := by
    have hlt : count * (2 : ℚ) ^ exponent < 2 ^ (53 + exponent) := by
      rw [zpow_add₀ (by norm_num)]
      exact mul_lt_mul_of_pos_right (by exact_mod_cast hcount') hpos
    have hbound := (Int.lt_zpow_iff_log_lt (b := 2) (by norm_num) hq).mp (by exact_mod_cast hlt)
    omega
  obtain ⟨d, hd⟩ := Int.eq_ofNat_of_zero_le (Int.sub_nonneg.mpr hlog)
  rw [nearest, abs_of_pos hq]
  generalize max (Int.log 2 (count * (2 : ℚ) ^ exponent)) (-1022) - 52 = ulp at hd
  have hulp : (2 : ℚ) ^ ulp ≠ 0 := (zpow_pos (by norm_num) _).ne'
  have hsteps : count * (2 : ℚ) ^ exponent / 2 ^ ulp = (count * 2 ^ d : ℤ) := by
    rw [mul_div_assoc, ← zpow_sub₀ (by norm_num), hd]
    push_cast
    rw [zpow_natCast]
  rw [hsteps, roundHalfEven_intCast, ← hsteps, div_mul_cancel₀ _ hulp, if_pos hsmall]

/-- A whole number below `2 ^ 53` is not rounded to 64 bits. -/
theorem nearest_natCast {n : ℕ} (h : n < 2 ^ 53) : nearest n = finite n := by
  have hself := @nearest_eq_self n 0 h (by decide) le_rfl
  rwa [zpow_zero, mul_one] at hself

/-! ### Numbers of the format

A number of the format is an integer times a power of two. The integer has at most 53 digits, and
for the numbers that are looked at here the power is at most one. -/

/-- A number of the format, of at most `2 ^ 53` steps that are not longer than one. -/
def Fits (x : ℚ) : Prop :=
  ∃ count exponent : ℤ, exponent ≤ 0 ∧ x = count * 2 ^ exponent ∧ x ≤ 2 ^ (53 + exponent)

/-- **Rounding to 64 bits**: the result is a number of the format, no more than half a step away,
and no number of steps is passed by. -/
theorem nearest_spec (hlow : 1 ≤ q) (hhigh : q < 2 ^ 53) (h : nearest q = finite r) :
    Fits r ∧ |r - q| ≤ step q / 2 ∧ ∀ count : ℤ, count * step q ≤ q → count * step q ≤ r := by
  have hpos : 0 < q := by linarith
  have hr : r = roundHalfEven (q / step q) * step q :=
    (finite.inj ((nearest_eq hlow hhigh).symm.trans h)).symm
  have hlog : Int.log 2 q < 53 := (Int.lt_zpow_iff_log_lt (b := 2) (by norm_num) hpos).mp
    (by exact_mod_cast hhigh)
  have hsteps : q / step q * step q = q := div_mul_cancel₀ q (step_pos q).ne'
  refine ⟨⟨_, Int.log 2 q - 52, by omega, hr, ?_⟩, ?_, fun count hcount => ?_⟩
  · have hcount : (roundHalfEven (q / step q) : ℚ) ≤ 2 ^ 53 := by
      exact_mod_cast roundHalfEven_steps_le q
    rw [hr, zpow_add₀ (by norm_num)]
    refine (mul_le_mul_of_nonneg_right hcount (step_pos q).le).trans_eq ?_
    rw [step]
    norm_num
  · have hscaled := mul_le_mul_of_nonneg_right (abs_roundHalfEven_sub_le (q / step q))
      (step_pos q).le
    rw [← abs_of_pos (step_pos q), ← abs_mul, sub_mul, abs_of_pos (step_pos q), hsteps, ← hr]
      at hscaled
    linarith
  · have hle : (count : ℚ) ≤ q / step q := by rwa [le_div_iff₀ (step_pos q)]
    rw [hr]
    refine mul_le_mul_of_nonneg_right ?_ (step_pos q).le
    exact_mod_cast le_roundHalfEven hle

/-! ### Quotients

The divisor lies strictly between two powers of two, so a quotient by it has shorter steps than the
number has, and there is room between the exact quotient and the next integral one. -/

/-- Below `2 ^ 52`, halves are whole numbers of steps. -/
theorem exists_half_eq (hlow : 1 ≤ q) (hhigh : q < 2 ^ 52) :
    ∃ count : ℤ, (1 / 2 : ℚ) = count * step q := by
  have hlog : Int.log 2 q < 52 := (Int.lt_zpow_iff_log_lt (b := 2) (by norm_num) (by linarith)).mp
    (by exact_mod_cast hhigh)
  obtain ⟨d, hd⟩ := Int.eq_ofNat_of_zero_le (show 0 ≤ 51 - Int.log 2 q by omega)
  refine ⟨2 ^ d, ?_⟩
  have hexponent : (d : ℤ) + (Int.log 2 q - 52) = -1 := by omega
  push_cast
  rw [step, ← zpow_natCast (2 : ℚ) d, ← zpow_add₀ (by norm_num), hexponent]
  norm_num

/-- **Nothing is lost by taking a whole number away** from a number of the format: what is left has
the same steps, and fewer of them. -/
theorem nearest_sub_natCast (h : Fits x) (hx : 1 ≤ x) {n : ℕ} (hn : 0 < n) (hle : n ≤ x) :
    nearest (x - n) = finite (x - n) := by
  obtain ⟨count, exponent, hexponent, rfl, hbound⟩ := h
  obtain ⟨d, hd⟩ := Int.eq_ofNat_of_zero_le (show 0 ≤ -exponent by omega)
  have hpos : (0 : ℚ) < 2 ^ exponent := zpow_pos (by norm_num) _
  have hone : (2 : ℚ) ^ d * 2 ^ exponent = 1 := by
    rw [← zpow_natCast (2 : ℚ) d, ← zpow_add₀ (by norm_num), ← hd, neg_add_cancel, zpow_zero]
  have hwhole : (n : ℚ) = (n * 2 ^ d : ℕ) * 2 ^ exponent := by
    push_cast
    rw [mul_assoc, hone, mul_one]
  -- fewer steps, because at least one is taken away
  have htaken : 0 < n * 2 ^ d := by positivity
  have hcount : count ≤ 2 ^ 53 := by
    rw [zpow_add₀ (by norm_num), mul_le_mul_iff_left₀ hpos] at hbound
    exact_mod_cast hbound
  rw [hwhole, mul_le_mul_iff_left₀ hpos] at hle
  obtain ⟨left, hleft⟩ := Int.eq_ofNat_of_zero_le
    (show 0 ≤ count - (n * 2 ^ d : ℕ) from Int.sub_nonneg.mpr (by exact_mod_cast hle))
  have hrest : (count : ℚ) * 2 ^ exponent - n = left * 2 ^ exponent := by
    rw [hwhole, ← sub_mul]
    congr 1
    exact_mod_cast hleft
  have hlow : -1074 ≤ exponent := by
    by_contra hlt
    have hsmall : (2 : ℚ) ^ (53 + exponent) < 1 := zpow_lt_one_of_neg₀ (by norm_num) (by omega)
    linarith
  rw [hrest]
  exact nearest_eq_self (by omega) hlow hexponent

/-- A number of the format that is not an integer differs from one by one of its steps, or more. -/
theorem exists_gap (h : Fits x) :
    ∃ exponent : ℤ, x ≤ 2 ^ (53 + exponent) ∧
      ∀ n : ℤ, (x < n → x + 2 ^ exponent ≤ n) ∧ (n < x → n + 2 ^ exponent ≤ x) := by
  obtain ⟨count, exponent, hexponent, hx, hle⟩ := h
  refine ⟨exponent, hle, fun n => ?_⟩
  obtain ⟨d, hd⟩ := Int.eq_ofNat_of_zero_le (show 0 ≤ -exponent by omega)
  have hpos : (0 : ℚ) < 2 ^ exponent := zpow_pos (by norm_num) _
  have hone : (2 : ℚ) ^ d * 2 ^ exponent = 1 := by
    rw [← zpow_natCast (2 : ℚ) d, ← zpow_add₀ (by norm_num), ← hd, neg_add_cancel, zpow_zero]
  have hwhole : (n : ℚ) = (n * 2 ^ d : ℤ) * 2 ^ exponent := by
    push_cast
    rw [mul_assoc, hone, mul_one]
  have hsteps : ∀ i j : ℤ, (i : ℚ) * 2 ^ exponent < j * 2 ^ exponent →
      (i : ℚ) * 2 ^ exponent + 2 ^ exponent ≤ j * 2 ^ exponent := by
    intro i j hij
    rw [mul_lt_mul_iff_left₀ hpos] at hij
    have hnext : ((i + 1 : ℤ) : ℚ) ≤ j := by exact_mod_cast hij
    have hscaled := mul_le_mul_of_nonneg_right hnext hpos.le
    push_cast at hscaled
    linarith
  rw [hx, hwhole]
  exact ⟨hsteps count _, hsteps _ count⟩

/-- **A rounded quotient is on the same side of an integral quotient as the exact one.** An integer
that is not the number itself differs from it by a step, and that is more than what rounding can add
or take, times the divisor. -/
theorem nearest_div_lt_iff {n a : ℕ} (hx : Fits x) (hlow : n ≤ x) (hhigh : x < 2 ^ 53)
    (hn : 2 ^ a < n) (hn' : n < 2 ^ (a + 1)) (hr : nearest (x / n) = finite r) (N : ℤ) :
    (x < N → r < N / n) ∧ (N < x → N / n < r) := by
  have hone : (1 : ℚ) ≤ n := by
    have hpow := Nat.one_le_two_pow (n := a)
    exact_mod_cast (show 1 ≤ n by omega)
  have hnpos : (0 : ℚ) < n := by linarith
  have hquotient : 1 ≤ x / n := by rwa [le_div_iff₀ hnpos, one_mul]
  have hbound : x / n < 2 ^ 53 := (div_le_self (by linarith) hone).trans_lt hhigh
  obtain ⟨-, hclose, -⟩ := nearest_spec hquotient hbound hr
  obtain ⟨exponent, hle, hgap⟩ := exists_gap hx
  have hsplit : (2 : ℚ) ^ (53 + exponent) = 2 ^ (53 + exponent - a) * 2 ^ a := by
    rw [← zpow_natCast (2 : ℚ) a, ← zpow_add₀ (by norm_num), sub_add_cancel]
  have hsmall : x / n < 2 ^ (53 + exponent - a) := by
    have hpow : (2 : ℚ) ^ a < n := by exact_mod_cast hn
    rw [div_lt_iff₀ hnpos]
    calc x ≤ 2 ^ (53 + exponent - a) * 2 ^ a := hle.trans_eq hsplit
      _ < 2 ^ (53 + exponent - a) * n := mul_lt_mul_of_pos_left hpow (zpow_pos (by norm_num) _)
  have hstep : step (x / n) ≤ 2 ^ (exponent - a) := by
    refine (step_le (by linarith) hsmall).trans_eq ?_
    congr 1
    ring
  have hadded : n * step (x / n) < 2 * 2 ^ exponent := by
    have hpow : (n : ℚ) < 2 ^ (a + 1) := by exact_mod_cast hn'
    calc n * step (x / n) < 2 ^ (a + 1) * step (x / n) :=
          mul_lt_mul_of_pos_right hpow (step_pos _)
      _ ≤ 2 ^ (a + 1) * 2 ^ (exponent - a) := mul_le_mul_of_nonneg_left hstep (by positivity)
      _ = 2 * 2 ^ exponent := by
        rw [pow_succ', mul_assoc, ← zpow_natCast (2 : ℚ) a, ← zpow_add₀ (by norm_num)]
        congr 2
        ring
  have hrounded := mul_le_mul_of_nonneg_left hclose hnpos.le
  rw [← abs_of_pos hnpos, ← abs_mul, abs_of_pos hnpos, mul_sub, mul_div_cancel₀ _ hnpos.ne']
    at hrounded
  obtain ⟨hbelow, habove⟩ := abs_le.mp hrounded
  constructor
  · intro h
    rw [lt_div_iff₀ hnpos]
    have := (hgap N).1 h
    linarith
  · intro h
    rw [div_lt_iff₀ hnpos]
    have := (hgap N).2 h
    linarith

/-- **The halves below a quotient are below the rounded one, and no others.** -/
theorem half_le_nearest_div_iff {n m a : ℕ} (hx : Fits x) (hlow : n ≤ x) (hhigh : x < 2 ^ 53)
    (hn : 2 ^ a < n) (hn' : n < 2 ^ (a + 1)) (hm : n = 2 * m) (hr : nearest (x / n) = finite r)
    (k : ℤ) : (k / 2 : ℚ) ≤ r ↔ (k / 2 : ℚ) ≤ x / n := by
  have htwo : (2 : ℚ) ≤ n := by
    have hpow := Nat.one_le_two_pow (n := a)
    exact_mod_cast (show 2 ≤ n by omega)
  have hnpos : (0 : ℚ) < n := by linarith
  have hone : 1 ≤ x / n := by rwa [le_div_iff₀ hnpos, one_mul]
  have hquotient : x / n < 2 ^ 52 := by
    rw [div_lt_iff₀ hnpos]
    linarith
  constructor
  · intro h
    by_contra hlt
    -- a half is the quotient of an integer
    have hhalf : (k / 2 : ℚ) = (k * m : ℤ) / n := by
      have hmpos : (m : ℚ) ≠ 0 := by
        rintro hzero
        rw [hm, Nat.cast_mul, hzero, mul_zero] at hnpos
        exact lt_irrefl 0 hnpos
      rw [hm]
      push_cast
      rw [mul_div_mul_right _ _ hmpos]
    rw [hhalf, not_le, div_lt_div_iff_of_pos_right hnpos] at hlt
    rw [hhalf] at h
    exact absurd ((nearest_div_lt_iff hx hlow hhigh hn hn' hr _).1 hlt) (not_lt.mpr h)
  · intro h
    obtain ⟨count, hhalf⟩ := exists_half_eq hone hquotient
    have hwhole : (k / 2 : ℚ) = (k * count : ℤ) * step (x / n) := by
      push_cast
      rw [mul_assoc, ← hhalf]
      ring
    rw [hwhole] at h ⊢
    exact (nearest_spec hone (by linarith) hr).2.2 _ h

end Double
