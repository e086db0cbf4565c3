import LookingGlass.Foundations.AddressText
import Mathlib.Algebra.Order.Floor.Ring
import Mathlib.Data.Int.Log
import Mathlib.Data.Rat.Floor

/-!
# Floating-point numbers

A `Double` is a rational number, an infinity or not a number. Arithmetic on the rational ones is
exact: the rounding of the hardware is left out, the special values are not, because reading an
overlong numeral yields one. Where it matters which numbers there are, as it does when a numeral is
read or compared with a bound, `nearest` rounds to the format of 64 bits.

Rounding to a number of decimals is what `Math.Round` does (ties to even), printing is what the
custom formats `"0.0#"`, `"0.##"` and the like do (ties away from zero, a fixed part of the
decimals and an optional one).

## Why exact arithmetic, and where it is not enough

A sum of sixty latencies differs from the sum of the same numbers in the hardware by less than a
billionth, which is far behind the decimals that are ever kept of it. Exact sums keep the laws of
arithmetic, and the results about them do not depend on the order of the summands.

There are places where this is too coarse. A number that is read has first become one of 64 bits,
and so an integer from `2 ^ 53` on may be another one; a quotient of two integers is the nearest
number there is, and rounding this to one decimal is not the same as rounding the quotient. Such
places use `nearest`, which is the rounding of the format itself. It has no use for flags or
subnormal numbers of its own: the exponent is bounded from below, and so is the unit in the last
place.

## The special values

They are part of the type because programs meet them: a numeral with four hundred digits is read as
an infinity, the difference of two infinities is no number, and each of them has a text of its own
where it is printed. Comparisons with what is no number are all false, which is why `larger` treats
it apart.
-/

open Utf16

/-- A number of 64 bits, as far as the code can tell: a finite value, one of two infinities, or no
number. Negative zero is not told from zero. -/
inductive Double
  | finite (value : ℚ)
  | infinity (negative : Bool)
  | nan
  deriving DecidableEq

namespace Double

instance : OfNat Double n := ⟨finite n⟩

def isFinite : Double → Bool
  | finite _ => true
  | _ => false

protected def add : Double → Double → Double
  | finite a, finite b => finite (a + b)
  | nan, _ => nan
  | _, nan => nan
  | infinity s, infinity t => if s = t then infinity s else nan
  | infinity s, finite _ => infinity s
  | finite _, infinity s => infinity s

instance : Add Double := ⟨Double.add⟩

protected def neg : Double → Double
  | finite a => finite (-a)
  | infinity s => infinity !s
  | nan => nan

instance : Neg Double := ⟨Double.neg⟩

instance : Sub Double := ⟨fun x y => x + -y⟩

/-- Divide by a positive number. The special values stay what they are. -/
def divNat (x : Double) (n : ℕ) : Double :=
  match x with
  | finite a => finite (a / n)
  | x => x

/-- `Enumerable.Average`: the sum, in the order of the list, divided by its length. The callers make
sure that there is something to average. -/
def average (xs : List Double) : Double := (xs.foldl (· + ·) 0).divNat xs.length

/-- The larger of two numbers; `nan` is smaller than any. -/
def larger : Double → Double → Double
  | nan, y => y
  | x, nan => x
  | infinity true, y => y
  | x, infinity true => x
  | finite a, finite b => finite (max a b)
  | _, _ => infinity false

/-- `Enumerable.Max`, which starts from a value below all others. The callers make sure that there
is something to compare. -/
def maximum (xs : List Double) : Double := xs.foldl larger nan

/-! ### Rounding

Ties go to the even digit, as the runtime rounds unless it is told otherwise. -/

/-- The nearest integer, ties to the even one. -/
def roundHalfEven (q : ℚ) : ℤ :=
  let below := q.floor
  if q - below < 1 / 2 then below
  else if 1 / 2 < q - below then below + 1
  else if below % 2 = 0 then below
  else below + 1

/-- `Math.Round` to a number of decimals. -/
def round (digits : ℕ) : Double → Double
  | finite q => finite (roundHalfEven (q * 10 ^ digits) / 10 ^ digits)
  | x => x

/-! ### The format of 64 bits

One function rounds: the quotient by the unit in the last place is rounded to an integer, and what
that yields beyond the largest exponent is an infinity. -/

/-- The nearest number of 53 binary digits and an exponent in range, ties to the even one; one that
is too large is an infinity. -/
def nearest (q : ℚ) : Double :=
  let ulp : ℚ := 2 ^ (max (Int.log 2 |q|) (-1022) - 52)
  let rounded := roundHalfEven (q / ulp) * ulp
  if |rounded| < 2 ^ 1024 then finite rounded else infinity (decide (q < 0))

/-- Multiply by a positive number, to the nearest number of the format. Past the largest one this is
an infinity. -/
def mulNat (x : Double) (n : ℕ) : Double :=
  match x with
  | finite a => nearest (a * n)
  | x => x

/-- Truncate to an integer type, as a cast does: what does not fit is the closest number of the
type, and what is no number is zero. -/
def truncate (least greatest : ℤ) : Double → ℤ
  | finite q => max least (min greatest (q.num.tdiv q.den))
  | infinity negative => if negative then least else greatest
  | nan => 0

/-! ### Printing

A custom format has some decimals that are always there and some that are there unless they end in
zeros. Ties are rounded away from zero here. -/

/-- The decimal digits of an integer, with a sign if it is negative. -/
def decimalInt (n : ℤ) : Str :=
  if n < 0 then ofChar '-' :: AddressText.decimal n.natAbs else AddressText.decimal n.natAbs

/-- The decimals of a number that is given in units of `10 ^ -digits`, without the trailing zeros
past the first `fixed` ones. -/
def decimals (fixed digits units : ℕ) : Str :=
  let all := AddressText.decimal (units % 10 ^ digits)
  let padded := List.replicate (digits - all.length) (ofChar '0') ++ all
  padded.take fixed ++ (padded.drop fixed).rdropWhile (· == ofChar '0')

/-- Print with a custom format of `fixed` zeros and `digits - fixed` hashes after the point. -/
def format (fixed digits : ℕ) : Double → Str
  | finite q =>
    let units := (|q| * 10 ^ digits + 1 / 2).floor.toNat
    let fraction := if digits = 0 then [] else decimals fixed digits units
    (if q < 0 ∧ units ≠ 0 then [ofChar '-'] else []) ++ AddressText.decimal (units / 10 ^ digits) ++
      if fraction = [] then [] else ofChar '.' :: fraction
  | infinity negative => if negative then "-Infinity" else "Infinity"
  | nan => "NaN"

end Double
