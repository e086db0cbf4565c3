import LookingGlass.Foundations.Double
import LookingGlass.Foundations.Spellings
import Mathlib.Tactic.Linarith

/-!
# Decimals that are printed

A number with so many decimals is a whole number of units of the last of them. The text that is
printed for it is printed for no other number of units: the digits in front of the point are those
of the integer part, and the zeros that are cut off behind it can be put back, because it is known
how many digits there were.

## Why this is not obvious

The printed text has lost its trailing zeros, so `0.5` may stand for five tenths or for fifty
hundredths. Those are one number of units if the number of decimals is fixed, but for two texts to
be compared, each must first be given back what was cut off. That this is possible rests on two
facts: only zeros are cut off, and the length before the cut is the same for both.

The integer part has no such problem, since it is printed without zeros in front and in full; and
where it ends is marked by the point, which is no digit.

Nothing here concerns signs. What is printed is never negative in the uses of these lemmas, and a
sign would only be one more mark in front.

## Main results

* `Double.units_of_format` — a text is printed for one number of units only
* `Double.format_eq_units` — every number is printed as the nearest number of units
-/

namespace List

variable {α : Type*}

/-- What was cut off at the end of a list is known, up to its length: every element that is cut is
the same one. -/
theorem eq_of_rdropWhile_eq {p : α → Bool} {c : α} (hp : ∀ x, p x = true → x = c) {s t : List α}
    (hlength : s.length = t.length) (h : s.rdropWhile p = t.rdropWhile p) : s = t := by
  have hrest (l : List α) : l.rtakeWhile p = replicate (l.rtakeWhile p).length c :=
    eq_replicate_of_mem fun x hx => hp x (mem_rtakeWhile_imp hx)
  have hlengths (l : List α) : (l.rdropWhile p).length + (l.rtakeWhile p).length = l.length := by
    rw [← length_append, rdropWhile_append_rtakeWhile]
  have hcut : (s.rtakeWhile p).length = (t.rtakeWhile p).length := by
    have hs := hlengths s
    have ht := hlengths t
    rw [h] at hs
    omega
  calc s = s.rdropWhile p ++ s.rtakeWhile p := rdropWhile_append_rtakeWhile.symm
    _ = t.rdropWhile p ++ t.rtakeWhile p := by rw [h, hrest s, hrest t, hcut]
    _ = t := rdropWhile_append_rtakeWhile

end List

namespace Double

open Utf16 AddressText

variable {fixed digits m n : ℕ}

/-! ### Digits behind the point

The decimals are padded with zeros in front, so that there are as many as asked for, and cut behind.
-/

/-- Leading zeros count for nothing. -/
theorem decimalValue_zeros (k : ℕ) (s : Str) :
    decimalValue (List.replicate k (ofChar '0') ++ s) = decimalValue s := by
  induction k with
  | zero => rfl
  | succ k ih =>
    rw [List.replicate_succ, List.cons_append, ← ih]
    rfl

theorem length_decimal_le (hdigits : 0 < digits) (h : n < 10 ^ digits) :
    (decimal n).length ≤ digits := by
  rw [decimal, List.length_map]
  exact (Nat.length_toDigits_le_iff (by decide) hdigits).mpr h

/-- With zeros in front there are as many digits as asked for. -/
theorem length_padded (hdigits : 0 < digits) (n : ℕ) :
    (List.replicate (digits - (decimal (n % 10 ^ digits)).length) (ofChar '0') ++
      decimal (n % 10 ^ digits)).length = digits := by
  have hle := length_decimal_le hdigits (Nat.mod_lt n (Nat.pow_pos (by decide : 0 < 10)))
  rw [List.length_append, List.length_replicate]
  omega

/-- The first digits are not cut off. -/
theorem decimals_ne_nil (hfixed : 0 < fixed) (hdigits : 0 < digits) (n : ℕ) :
    decimals fixed digits n ≠ [] := by
  intro hnil
  have htake := congrArg List.length (List.append_eq_nil_iff.mp hnil).1
  rw [List.length_take, length_padded hdigits, List.length_nil] at htake
  omega

/-- The decimals determine the units, up to whole numbers, because the zeros that were cut off can
be put back. -/
theorem units_of_decimals (hdigits : 0 < digits)
    (h : decimals fixed digits m = decimals fixed digits n) :
    m % 10 ^ digits = n % 10 ^ digits := by
  obtain ⟨htake, hdrop⟩ := List.append_inj h (by
    rw [List.length_take, List.length_take, length_padded hdigits, length_padded hdigits])
  have hrest := List.eq_of_rdropWhile_eq (fun x hx => beq_iff_eq.mp hx) (by
    rw [List.length_drop, List.length_drop, length_padded hdigits, length_padded hdigits]) hdrop
  have hpadded := congrArg₂ List.append htake hrest
  rw [List.append_eq, List.append_eq, List.take_append_drop, List.take_append_drop] at hpadded
  have hvalue := congrArg decimalValue hpadded
  rwa [decimalValue_zeros, decimalValue_zeros, decimalValue_decimal, decimalValue_decimal] at hvalue

/-! ### Texts

A text is the integer part, and behind it the point with the decimals if any are left. -/

/-- The point and what is behind it, for so many units; nothing at all if no decimal is left. -/
def fractionText (fixed digits units : ℕ) : Str :=
  let fraction := if digits = 0 then [] else decimals fixed digits units
  if fraction = [] then [] else ofChar '.' :: fraction

theorem format_units (fixed digits n : ℕ) :
    format fixed digits (finite (n / 10 ^ digits)) =
      decimal (n / 10 ^ digits) ++ fractionText fixed digits n := by
  have hpow : (0 : ℚ) < 10 ^ digits := by positivity
  have hnonneg : (0 : ℚ) ≤ n / 10 ^ digits := by positivity
  have hunits : (|(n / 10 ^ digits : ℚ)| * 10 ^ digits + 1 / 2).floor.toNat = n := by
    rw [abs_of_nonneg hnonneg, div_mul_cancel₀ _ hpow.ne']
    have hfloor : ⌊(n : ℚ) + 1 / 2⌋ = n := by
      rw [Int.floor_eq_iff]
      push_cast
      constructor <;> linarith
    exact (congrArg Int.toNat hfloor).trans (Int.toNat_natCast n)
  rw [format, hunits, if_neg (not_and_of_not_left _ (not_lt.mpr hnonneg)), List.nil_append]
  rfl

/-- Every number is printed as the nearest number of units, so that only multiples of the last
decimal have to be looked at. -/
theorem format_eq_units {x : ℚ} (hx : 0 ≤ x) :
    format fixed digits (finite x) =
      format fixed digits (finite (⌊x * 10 ^ digits + 1 / 2⌋.toNat / 10 ^ digits)) := by
  rw [format_units, format, abs_of_nonneg hx, if_neg (not_and_of_not_left _ (not_lt.mpr hx)),
    List.nil_append]
  rfl

theorem fractionText_head (fixed digits n : ℕ) :
    fractionText fixed digits n = [] ∨
      ∃ rest, fractionText fixed digits n = ofChar '.' :: rest := by
  by_cases h : (if digits = 0 then [] else decimals fixed digits n) = []
  · exact .inl (if_pos h)
  · exact .inr ⟨_, if_neg h⟩

theorem mem_format_units {c : Char16}
    (h : c ∈ format fixed digits (finite (n / 10 ^ digits))) :
    isDigit c = true ∨ c = ofChar '.' := by
  have hpadded : ∀ d ∈ List.replicate (digits - (decimal (n % 10 ^ digits)).length) (ofChar '0') ++
      decimal (n % 10 ^ digits), isDigit d = true := by
    intro d hd
    rcases List.mem_append.mp hd with hd | hd
    · rw [List.eq_of_mem_replicate hd]
      rfl
    · exact isDigit_of_mem_decimal hd
  have hdecimals : ∀ d ∈ decimals fixed digits n, isDigit d = true := by
    intro d hd
    rcases List.mem_append.mp hd with hd | hd
    · exact hpadded d (List.mem_of_mem_take hd)
    · exact hpadded d (List.mem_of_mem_drop ((List.rdropWhile_prefix _ _).subset hd))
  rw [format_units, List.mem_append] at h
  rcases h with h | h
  · exact .inl (isDigit_of_mem_decimal h)
  rcases Nat.eq_zero_or_pos digits with rfl | hdigits
  · exact absurd h List.not_mem_nil
  simp only [fractionText, if_neg hdigits.ne'] at h
  split at h
  · exact absurd h List.not_mem_nil
  · rcases List.mem_cons.mp h with rfl | h
    · exact .inr rfl
    · exact .inl (hdecimals c h)

/-- **A text is printed for one number of units only.** -/
theorem units_of_format (h : format fixed digits (finite (m / 10 ^ digits)) =
    format fixed digits (finite (n / 10 ^ digits))) : m = n := by
  have hwhole (k : ℕ) : (format fixed digits (finite (k / 10 ^ digits))).takeWhile isDigit =
      decimal (k / 10 ^ digits) := by
    rw [format_units, List.takeWhile_append_of_pos fun c => isDigit_of_mem_decimal]
    rcases fractionText_head fixed digits k with hnil | ⟨rest, hcons⟩
    · rw [hnil, List.takeWhile_nil, List.append_nil]
    · rw [hcons, List.takeWhile_cons_of_neg (by decide), List.append_nil]
  have hquotient : m / 10 ^ digits = n / 10 ^ digits := by
    refine decimal_injective ?_
    rw [← hwhole m, ← hwhole n, h]
  rw [format_units, format_units, hquotient] at h
  have hrest : m % 10 ^ digits = n % 10 ^ digits := by
    rcases Nat.eq_zero_or_pos digits with rfl | hdigits
    · rw [pow_zero, Nat.mod_one, Nat.mod_one]
    have hfraction : decimals fixed digits m = decimals fixed digits n := by
      have htails := List.append_cancel_left h
      simp only [fractionText, if_neg hdigits.ne'] at htails
      split at htails <;> split at htails <;> simp_all
    exact units_of_decimals hdigits hfraction
  rw [← Nat.div_add_mod m (10 ^ digits), ← Nat.div_add_mod n (10 ^ digits), hquotient, hrest]

end Double
