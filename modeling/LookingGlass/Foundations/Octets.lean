import Mathlib.Tactic.Common
import Mathlib.Tactic.Ring

/-!
# Byte strings and bit prefixes

An address is a byte string of a fixed length, most significant byte first. `bigEndian` reads one
as a number, and two byte strings of one length share their first `len` bits exactly when their
numbers agree after the remaining bits are shifted out. That is how `samePrefix` is defined: the
arithmetic form makes containment in a concrete range a goal for `omega`, with the bytes as atoms.

## Why bytes and not numbers

The length is part of the type, so an address of one family cannot be taken for one of the other,
and what code does with bytes (copying four of them out of sixteen, setting the first two) is what
the model does. The number is there for comparisons only. Two addresses that are equal as numbers
and differ in length, `::7f00:1` and `127.0.0.1`, are different here, as they should be.

## Main results

* `Octets.bigEndian_append`, `Octets.bigEndian_lt` — the value of a concatenation, and its bound
* `Octets.samePrefix_mono`, `Octets.samePrefix_trans` — shared prefixes as an order
* `Octets.samePrefix_congr` — a prefix within the leading bytes does not see the others
-/

/-- A byte string of length `n`, which is known from its type. Two strings of different lengths are
never compared by mistake. -/
structure Octets (n : ℕ) where
  toList : List UInt8
  length_toList : toList.length = n
  deriving DecidableEq

namespace Octets

variable {n : ℕ}

attribute [simp] length_toList

@[ext] theorem ext {x y : Octets n} (h : x.toList = y.toList) : x = y := by
  cases x; cases y; simpa using h

/-- A byte string of length 4, by its bytes. -/
def four (a b c d : UInt8) : Octets 4 := ⟨[a, b, c, d], rfl⟩

/-- Every byte string of length 4 has four bytes. -/
theorem exists_four (x : Octets 4) : ∃ a b c d, x = four a b c d := by
  obtain ⟨xs, hxs⟩ := x
  match xs, hxs with
  | [a, b, c, d], _ => exact ⟨a, b, c, d, rfl⟩

instance : GetElem (Octets n) ℕ UInt8 fun _ i => i < n where
  getElem x i h := x.toList.get ⟨i, by simpa using h⟩

/-- `len` bytes from position `start` on. -/
def slice (x : Octets n) (start len : ℕ) (h : start + len ≤ n) : Octets len :=
  ⟨(x.toList.drop start).take len, by simp; omega⟩

/-- Two byte strings one after the other. -/
def append {m : ℕ} (x : Octets m) (y : Octets n) : Octets (m + n) :=
  ⟨x.toList ++ y.toList, by simp⟩

/-- The number a byte string denotes, most significant byte first. -/
def bigEndian (bytes : List UInt8) : ℕ := bytes.foldl (fun acc b => 256 * acc + b.toNat) 0

theorem foldl_eq (bytes : List UInt8) (acc : ℕ) :
    bytes.foldl (fun acc b => 256 * acc + b.toNat) acc =
      acc * 256 ^ bytes.length + bigEndian bytes := by
  induction bytes generalizing acc with
  | nil => simp [bigEndian]
  | cons b bytes ih =>
    rw [bigEndian, List.foldl_cons, List.foldl_cons, ih, ih, List.length_cons]
    ring

theorem bigEndian_append (xs ys : List UInt8) :
    bigEndian (xs ++ ys) = bigEndian xs * 256 ^ ys.length + bigEndian ys := by
  rw [bigEndian, List.foldl_append, foldl_eq]
  rfl

theorem bigEndian_lt (bytes : List UInt8) : bigEndian bytes < 256 ^ bytes.length := by
  induction bytes with
  | nil => simp [bigEndian]
  | cons b bytes ih =>
    rw [← List.singleton_append, bigEndian_append, List.length_append, List.length_singleton]
    have hb : bigEndian [b] < 256 := by simpa [bigEndian] using b.toNat_lt
    calc bigEndian [b] * 256 ^ bytes.length + bigEndian bytes
        < bigEndian [b] * 256 ^ bytes.length + 256 ^ bytes.length := by omega
      _ = (bigEndian [b] + 1) * 256 ^ bytes.length := by ring
      _ ≤ 256 * 256 ^ bytes.length := Nat.mul_le_mul_right _ hb
      _ = 256 ^ (1 + bytes.length) := by ring

/-- Two byte strings of one length agree in their first `len` bits: as numbers they agree once the
others are shifted out. -/
def samePrefix (len : ℕ) (xs ys : List UInt8) : Bool :=
  xs.length == ys.length &&
    bigEndian xs / 2 ^ (8 * xs.length - len) == bigEndian ys / 2 ^ (8 * ys.length - len)

/-- Agreeing in more bits is agreeing in fewer: a range lies within the shorter ones that it begins
with. -/
theorem samePrefix_mono {len len' : ℕ} {xs ys : List UInt8} (hle : len' ≤ len)
    (h : samePrefix len xs ys) : samePrefix len' xs ys := by
  simp only [samePrefix, Bool.and_eq_true, beq_iff_eq] at h ⊢
  obtain ⟨hlen, h⟩ := h
  have hsplit : ∀ k, 8 * k - len' = 8 * k - len + (8 * k - len' - (8 * k - len)) := by
    intro k; omega
  refine ⟨hlen, ?_⟩
  rw [hlen] at h ⊢
  rw [hsplit, pow_add, ← Nat.div_div_eq_div_mul, ← Nat.div_div_eq_div_mul, h]

theorem samePrefix_trans {len : ℕ} {xs ys zs : List UInt8} (h : samePrefix len xs ys)
    (h' : samePrefix len ys zs) : samePrefix len xs zs := by
  simp only [samePrefix, Bool.and_eq_true, beq_iff_eq] at h h' ⊢
  exact ⟨h.1.trans h'.1, h.2.trans h'.2⟩

/-- Whether a prefix that lies within the leading bytes is shared depends on these bytes only. -/
theorem samePrefix_append {len : ℕ} {xs ys zs : List UInt8} (hlen : len ≤ 8 * xs.length) :
    samePrefix len (xs ++ ys) zs =
      (xs.length + ys.length == zs.length &&
        bigEndian xs / 2 ^ (8 * xs.length - len) == bigEndian zs / 2 ^ (8 * zs.length - len)) := by
  have hsplit : 8 * (xs ++ ys).length - len = 8 * ys.length + (8 * xs.length - len) := by
    rw [List.length_append]; omega
  have hpow : (256 : ℕ) ^ ys.length = 2 ^ (8 * ys.length) := by
    rw [show (256 : ℕ) = 2 ^ 8 from rfl, ← pow_mul]
  have hys : bigEndian ys / 2 ^ (8 * ys.length) = 0 := by
    rw [← hpow]; exact Nat.div_eq_of_lt (bigEndian_lt ys)
  have hdiv : bigEndian (xs ++ ys) / 2 ^ (8 * ys.length) = bigEndian xs := by
    rw [bigEndian_append, hpow, Nat.add_comm, Nat.add_mul_div_right _ _ (Nat.two_pow_pos _),
      hys, Nat.zero_add]
  rw [samePrefix, hsplit, pow_add, ← Nat.div_div_eq_div_mul, hdiv, List.length_append]

theorem samePrefix_congr {len : ℕ} {xs ys : List UInt8} (ys' zs : List UInt8)
    (hlen : len ≤ 8 * xs.length) (hys : ys.length = ys'.length) :
    samePrefix len (xs ++ ys) zs = samePrefix len (xs ++ ys') zs := by
  rw [samePrefix_append hlen, samePrefix_append hlen, hys]

end Octets
