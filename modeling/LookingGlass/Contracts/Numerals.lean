import LookingGlass.Contracts.Models
import LookingGlass.Foundations.JsonDocument
import LookingGlass.Foundations.Spellings

/-!
# Reading numbers

What the base library reads as a number under the invariant culture: a numeral of a floating-point
number may have a sign, a point, an exponent, white space around it and zero characters after it,
and there are names for the infinities and for what is no number. An integer is read from digits
here, which is all that is ever handed over.

A digit is an ASCII digit for these readers. For a regular expression it is a decimal digit of any
script, so not every run of digits that an expression finds is a numeral.

## Why the readers are written out

What a tool prints is not in the hands of the code that reads it. Statements about every output of a
tool include those in which a numeral has forty digits, or an exponent, or a digit of another
script, and for each of them it must be said whether there is a number or an exception, and which.
So the readers are definitions here and not assumptions, and follow the documented grammar of the
base library.

## Main results

* `Numerals.tryParse_plain` — a plain decimal is read as the number that is nearest to it
* `Numerals.parseInt_eq_ok_iff` — which runs of digits are integers
* `Numerals.PlainInt.value_ofNat` — every number below 2^31 is written as one of them
-/

namespace LookingGlass

open Utf16 AddressText

namespace Numerals

/-! ### Digits

The two meanings of a digit, and the integers that are read from ASCII ones. -/

/-- The first digits of the scripts with decimal digits, ten in each. -/
def zeros : List Char16 :=
  [0x30, 0x660, 0x6f0, 0x7c0, 0x966, 0x9e6, 0xa66, 0xae6, 0xb66, 0xbe6, 0xc66, 0xce6, 0xd66, 0xde6,
    0xe50, 0xed0, 0xf20, 0x1040, 0x1090, 0x17e0, 0x1810, 0x1946, 0x19d0, 0x1a80, 0x1a90, 0x1b50,
    0x1bb0, 0x1c40, 0x1c50, 0xa620, 0xa8d0, 0xa900, 0xa9d0, 0xa9f0, 0xaa50, 0xabf0, 0xff10]

/-- `char.IsDigit`, which is what `\d` matches. -/
def isDecimalDigit (c : Char16) : Bool := zeros.any fun zero => zero ≤ c && c ≤ zero + 9

/-- `int.Parse`, of digits. -/
def parseInt (s : Str) : Except Exn ℤ :=
  if s = [] ∨ ¬ s.all isDigit then .error .format
  else if decimalValue s < 2 ^ 31 then .ok (decimalValue s)
  -- an `OverflowException`
  else .error .other

/-! ### Floating-point numbers

A numeral is taken apart from the left, and its parts are put together as one exact number, which is
then rounded to 64 bits. -/

/-- The white space of a numeral. -/
def isWhite (c : Char16) : Bool := c == 0x20 || (0x09 ≤ c && c ≤ 0x0d)

/-- Whether there is a minus sign, and the rest. -/
def readSign : Str → Bool × Str
  | [] => (false, [])
  | c :: rest =>
    if c = ofChar '+' then (false, rest)
    else if c = ofChar '-' then (true, rest)
    else (false, c :: rest)

/-- The digits before the point. With `thousands` there may be commas among them. -/
def readWhole (thousands : Bool) (s : Str) : Str × Str :=
  let isPart c := isDigit c || thousands && c == ofChar ','
  if s.head?.any isDigit then ((s.takeWhile isPart).filter isDigit, s.dropWhile isPart) else ([], s)

/-- The digits after the point, if there is one. -/
def readFraction : Str → Str × Str
  | [] => ([], [])
  | c :: rest =>
    if c = ofChar '.' then (rest.takeWhile isDigit, rest.dropWhile isDigit) else ([], c :: rest)

/-- Whether the exponent is negative, its digits, and the rest. What looks like an exponent and has
no digits is left where it is. -/
def readExponent : Str → Bool × Str × Str
  | [] => (false, [], [])
  | c :: rest =>
    let (negative, digits) := readSign rest
    if (c = ofChar 'e' ∨ c = ofChar 'E') ∧ digits.head?.any isDigit then
      (negative, digits.takeWhile isDigit, digits.dropWhile isDigit)
    else (false, [], c :: rest)

/-- A number from its digits, how many of these are behind the point, and its exponent. An exponent
of more than nine digits stands for one that is out of range. -/
def ofDigits (digits : Str) (decimals : ℕ) (negativeExponent : Bool) (exponent : Str) : Double :=
  let mantissa := decimalValue digits
  let magnitude := decimalValue exponent
  if 10 ^ 9 ≤ magnitude then
    if mantissa = 0 ∨ negativeExponent then 0 else .infinity false
  else
    let exponent : ℤ := if negativeExponent then -magnitude else magnitude
    .nearest (mantissa * 10 ^ (exponent - decimals))

def readNumeral (thousands : Bool) (s : Str) : Option Double :=
  let (negative, s) := readSign (s.dropWhile isWhite)
  let (whole, s) := readWhole thousands s
  let (fraction, s) := readFraction s
  let (negativeExponent, exponent, s) := readExponent s
  if whole ++ fraction = [] ∨ ¬ (s.dropWhile isWhite).all (· == 0) then none
  else
    let magnitude := ofDigits (whole ++ fraction) fraction.length negativeExponent exponent
    some (if negative then -magnitude else magnitude)

/-- The names of the numbers without a numeral. -/
def readSymbol (s : Str) : Option Double :=
  let name := (trim Runtime.isWhiteSpace s).map asciiUpper
  if name = "INFINITY" ∨ name = "+INFINITY" then some (.infinity false)
  else if name = "-INFINITY" then some (.infinity true)
  else if name = "NAN" ∨ name = "+NAN" ∨ name = "-NAN" then some .nan
  else none

/-- `double.TryParse`; `double.Parse` throws a `FormatException` where this is `none`. -/
def tryParse (thousands : Bool) (s : Str) : Option Double :=
  readNumeral thousands s <|> readSymbol s

/-- `double.Parse` in its default style. -/
def parseDouble (s : Str) : Except Exn Double :=
  match tryParse true s with
  | some value => .ok value
  | none => .error .format

/-! ### Integers

An integer beyond 31 bits is an exception of another type than a text that is no integer. -/

theorem parseInt_eq_ok_iff {s : Str} {n : ℤ} :
    parseInt s = .ok n ↔
      s ≠ [] ∧ s.all isDigit = true ∧ decimalValue s < 2 ^ 31 ∧ n = decimalValue s := by
  unfold parseInt
  split
  · next h => exact iff_of_false (by simp) fun h' => h.elim h'.1 fun hall => hall h'.2.1
  · next h =>
    obtain ⟨hne, hall⟩ := not_or.mp h
    split
    · next hlt => exact ⟨fun h => ⟨hne, not_not.mp hall, hlt, (Except.ok.inj h).symm⟩,
        fun h => congrArg Except.ok h.2.2.2.symm⟩
    · next hlt => exact iff_of_false (by simp) fun h' => hlt h'.2.2.1

/-- Digits of a number that is an `int`. The text is kept, as one number may be spelled with any
number of zeros in front. -/
structure PlainInt where
  text : Str
  ne_nil : text ≠ []
  isDigit_text : ∀ c ∈ text, isDigit c = true
  lt : decimalValue text < 2 ^ 31

def PlainInt.value (x : PlainInt) : ℤ := decimalValue x.text

theorem parseInt_plain (x : PlainInt) : parseInt x.text = .ok x.value :=
  parseInt_eq_ok_iff.mpr ⟨x.ne_nil, List.all_eq_true.mpr x.isDigit_text, x.lt, rfl⟩

/-- The digits that a number is printed as. -/
def PlainInt.ofNat (n : ℕ) (h : n < 2 ^ 31) : PlainInt where
  text := decimal n
  ne_nil := decimal_ne_nil n
  isDigit_text _ hc := isDigit_of_mem_decimal hc
  lt := by rwa [decimalValue_decimal]

theorem PlainInt.value_ofNat {n : ℕ} (h : n < 2 ^ 31) : (PlainInt.ofNat n h).value = n := by
  rw [PlainInt.value, PlainInt.ofNat, decimalValue_decimal]

/-! ### Plain decimals

What the tools print: digits, and more of them after a point. These are read as what they say, up to
rounding. -/

/-- Digits, and more of them after a point. Without those there is no point either. There is no
bound on their number, so the value may be too large for a number of 64 bits. -/
structure Plain where
  whole : Str
  fraction : Str
  whole_ne_nil : whole ≠ []
  isDigit_whole : ∀ c ∈ whole, isDigit c = true
  isDigit_fraction : ∀ c ∈ fraction, isDigit c = true

namespace Plain

def text (x : Plain) : Str := x.whole ++ if x.fraction = [] then [] else ofChar '.' :: x.fraction

/-- The number that is read. -/
def value (x : Plain) : Double :=
  .nearest (decimalValue (x.whole ++ x.fraction) / 10 ^ x.fraction.length)

theorem exists_cons (x : Plain) : ∃ c rest, x.text = c :: rest ∧ isDigit c = true := by
  obtain ⟨c, rest, hwhole⟩ := List.exists_cons_of_ne_nil x.whole_ne_nil
  exact ⟨c, _, by rw [text, hwhole, List.cons_append],
    x.isDigit_whole c (hwhole ▸ List.mem_cons_self ..)⟩

/-- The characters of a plain decimal: digits and the point. -/
theorem eq_or_isDigit_of_mem {x : Plain} {c : Char16} (h : c ∈ x.text) :
    c = ofChar '.' ∨ isDigit c = true := by
  rw [text, List.mem_append] at h
  rcases h with h | h
  · exact .inr (x.isDigit_whole c h)
  · split at h
    · exact absurd h (by simp)
    · exact (List.mem_cons.mp h).imp id (x.isDigit_fraction c)

end Plain

theorem readWhole_plain {thousands : Bool} (x : Plain) :
    readWhole thousands x.text =
      (x.whole, if x.fraction = [] then [] else ofChar '.' :: x.fraction) := by
  have hpart : ∀ c ∈ x.whole, (isDigit c || thousands && c == ofChar ',') = true :=
    fun c hc => by rw [x.isDigit_whole c hc, Bool.true_or]
  have hpoint : (isDigit (ofChar '.') || thousands && ofChar '.' == ofChar ',') = false := by
    cases thousands <;> decide
  have hhead : x.text.head?.any isDigit = true := by
    obtain ⟨c, rest, htext, hc⟩ := x.exists_cons
    rw [htext]
    exact hc
  have hfilter : x.whole.filter isDigit = x.whole := List.filter_eq_self.mpr x.isDigit_whole
  unfold readWhole
  rw [if_pos hhead, Plain.text, List.takeWhile_append_of_pos hpart,
    List.dropWhile_append_of_pos hpart]
  split
  · rw [List.takeWhile_nil, List.dropWhile_nil, List.append_nil, hfilter]
  · rw [List.takeWhile_cons_of_neg (by simp [hpoint]),
      List.dropWhile_cons_of_neg (by simp [hpoint]),
      List.append_nil, hfilter]

theorem readFraction_plain (x : Plain) :
    readFraction (if x.fraction = [] then [] else ofChar '.' :: x.fraction) = (x.fraction, []) := by
  split
  · next h => rw [h, readFraction]
  · rw [readFraction, if_pos rfl, List.takeWhile_eq_self_iff.mpr x.isDigit_fraction,
      List.dropWhile_eq_nil_iff.mpr x.isDigit_fraction]

/-- **A plain decimal is read as the number that is nearest to it.** -/
theorem tryParse_plain (thousands : Bool) (x : Plain) :
    tryParse thousands x.text = some x.value := by
  obtain ⟨c, rest, htext, hc⟩ := x.exists_cons
  have hwhite : isWhite c = false := by
    simp only [isDigit, isWhite, Bool.and_eq_true, decide_eq_true_eq, Bool.or_eq_false_iff,
      Bool.and_eq_false_iff, decide_eq_false_iff_not, beq_eq_false_iff_ne] at hc ⊢
    grind
  have hsign : readSign x.text = (false, x.text) := by
    rw [htext, readSign, if_neg (by rintro rfl; exact absurd hc (by decide)),
      if_neg (by rintro rfl; exact absurd hc (by decide))]
  have hvalue : ofDigits (x.whole ++ x.fraction) x.fraction.length false [] = x.value := by
    have hexponent : ((decimalValue [] : ℕ) : ℤ) - (x.fraction.length : ℤ) =
      -x.fraction.length := by
      rw [show decimalValue [] = 0 from rfl, Nat.cast_zero, zero_sub]
    unfold ofDigits Plain.value
    rw [if_neg (by decide), if_neg Bool.false_ne_true]
    dsimp only
    rw [hexponent, zpow_neg, zpow_natCast, div_eq_mul_inv]
  have hstart : x.text.dropWhile isWhite = x.text := by
    rw [htext, List.dropWhile_cons_of_neg (by simp [hwhite])]
  have hnumeral : readNumeral thousands x.text = some x.value := by
    unfold readNumeral
    rw [hstart, hsign]
    dsimp only
    rw [readWhole_plain]
    dsimp only
    rw [readFraction_plain]
    dsimp only
    rw [readExponent, if_neg (by simp [x.whole_ne_nil]), hvalue]
    rfl
  rw [tryParse, hnumeral]
  rfl

theorem parseDouble_plain (x : Plain) : parseDouble x.text = .ok x.value := by
  rw [parseDouble, tryParse_plain]

end Numerals

end LookingGlass

/-- `GetDouble`: `none` for an element that is no number, and `some none` for one that is no
`double`, which a number that the JSON parser accepts always is. -/
def Json.getDouble : Json → Option (Option Double)
  | .number token => some (LookingGlass.Numerals.readNumeral false token)
  | _ => none
