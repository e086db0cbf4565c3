import LookingGlass.Foundations.Utf16

/-!
# UTF-8

The encoding of UTF-16 text, as an encoder without an error mode writes it: a surrogate pair is one
scalar value of four bytes, and a surrogate without its other half is replaced by U+FFFD, which has
three.

So the encoding of a text is not the encodings of its pieces put together. Where a cut falls between
the halves of a pair, each half is replaced on its own, and the pieces have two bytes more.

## Counting bytes

A program that limits a text by its bytes and receives it in pieces counts the bytes of each piece.
This is the number of bytes of the whole as long as no cut falls between the halves of a pair, and
two more for every cut that does. `byteCount_append` says so as one equation, with no case
distinction in it: the correction is there or not.

The other bounds are for programs that compare a number of bytes with a number of code units, or
take one for the other. They are the same for ASCII, and only for ASCII.

## Main results

* `Utf8.byteCount_append`, `Utf8.byteCount_le_append` — what a cut adds, and what it does not
* `Utf8.length_le_byteCount`, `Utf8.byteCount_le` — one byte to three for a code unit
* `Utf8.byteCount_le_length_iff` — a text has no more bytes than code units exactly if it is ASCII
* `Utf8.encode_of_isAscii` — the code of a text of ASCII
-/

namespace Utf8

open Utf16

/-- The first half of a surrogate pair. -/
def isHighSurrogate (c : Char16) : Bool := 0xd800 ≤ c && c ≤ 0xdbff

/-- The second half of a surrogate pair. -/
def isLowSurrogate (c : Char16) : Bool := 0xdc00 ≤ c && c ≤ 0xdfff

def encodeScalar (n : ℕ) : List UInt8 :=
  if n < 0x80 then [n.toUInt8]
  else if n < 0x800 then [(0xc0 + n / 0x40).toUInt8, (0x80 + n % 0x40).toUInt8]
  else if n < 0x10000 then
    [(0xe0 + n / 0x1000).toUInt8, (0x80 + n / 0x40 % 0x40).toUInt8, (0x80 + n % 0x40).toUInt8]
  else
    [(0xf0 + n / 0x40000).toUInt8, (0x80 + n / 0x1000 % 0x40).toUInt8,
      (0x80 + n / 0x40 % 0x40).toUInt8, (0x80 + n % 0x40).toUInt8]

/-- A code unit that is no half of a pair. A half that stands alone is replaced, as nothing can be
encoded for it. -/
def encodeUnit (c : Char16) : List UInt8 :=
  encodeScalar (if isHighSurrogate c || isLowSurrogate c then 0xfffd else c.toNat)

def encode : Str → List UInt8
  | [] => []
  | [c] => encodeUnit c
  | c :: d :: rest =>
    if isHighSurrogate c && isLowSurrogate d then
      encodeScalar (0x10000 + (c.toNat - 0xd800) * 0x400 + (d.toNat - 0xdc00)) ++ encode rest
    else encodeUnit c ++ encode (d :: rest)

/-- `Encoding.UTF8.GetByteCount`. -/
def byteCount (s : Str) : ℕ := (encode s).length

/-- No half of a pair is alone. -/
def isWellFormed : Str → Bool
  | [] => true
  | [c] => !(isHighSurrogate c || isLowSurrogate c)
  | c :: d :: rest =>
    if isHighSurrogate c && isLowSurrogate d then isWellFormed rest
    else !(isHighSurrogate c || isLowSurrogate c) && isWellFormed (d :: rest)

/-- A pair has one half at the end of the first text and the other at the start of the second, so
that cutting here makes two lone halves of it. -/
def splitsPair (s t : Str) : Bool := s.getLast?.any isHighSurrogate && t.head?.any isLowSurrogate

@[simp] theorem byteCount_nil : byteCount [] = 0 := by rw [byteCount, encode, List.length_nil]

theorem length_encodeUnit_of_surrogate {c : Char16}
    (h : isHighSurrogate c = true ∨ isLowSurrogate c = true) : (encodeUnit c).length = 3 := by
  rw [encodeUnit, if_pos (by simpa using h)]
  decide

theorem not_high_of_low {c : Char16} (h : isLowSurrogate c = true) : isHighSurrogate c = false := by
  simp only [isLowSurrogate, isHighSurrogate, Bool.and_eq_true, decide_eq_true_eq,
    Bool.and_eq_false_iff, decide_eq_false_iff_not] at h ⊢
  right
  intro hle
  have hlt := UInt16.le_trans h.1 hle
  exact absurd hlt (by decide)

/-- What is no first half is encoded on its own. -/
theorem byteCount_cons {c : Char16} (h : isHighSurrogate c = false) (s : Str) :
    byteCount (c :: s) = (encodeUnit c).length + byteCount s := by
  cases s with
  | nil => rw [byteCount, encode, byteCount_nil]; rfl
  | cons d rest => rw [byteCount, encode, h, Bool.false_and, if_neg Bool.false_ne_true,
      List.length_append, byteCount]

theorem byteCount_pair {c d : Char16} (hc : isHighSurrogate c = true) (hd : isLowSurrogate d = true)
    (s : Str) : byteCount (c :: d :: s) = 4 + byteCount s := by
  rw [byteCount, encode, hc, hd, Bool.and_self, if_pos rfl, List.length_append, encodeScalar,
    if_neg (by omega), if_neg (by omega), if_neg (by omega)]
  rfl

theorem byteCount_cons_cons {c d : Char16} (h : (isHighSurrogate c && isLowSurrogate d) = false)
    (s : Str) : byteCount (c :: d :: s) = (encodeUnit c).length + byteCount (d :: s) := by
  rw [byteCount, encode, h, if_neg Bool.false_ne_true, List.length_append, byteCount]

theorem byteCount_singleton (c : Char16) : byteCount [c] = (encodeUnit c).length := by
  rw [byteCount, encode]

/-- **A cut between the halves of a pair adds two bytes**, and any other cut adds none. -/
theorem byteCount_append (s t : Str) :
    byteCount (s ++ t) + 2 * (splitsPair s t).toNat = byteCount s + byteCount t := by
  induction s using encode.induct with
  | case1 => simp [splitsPair]
  | case2 c =>
    cases t with
    | nil => simp [splitsPair]
    | cons d rest =>
      rw [byteCount_singleton]
      by_cases hpair : (isHighSurrogate c && isLowSurrogate d) = true
      · obtain ⟨hc, hd⟩ := Bool.and_eq_true_iff.mp hpair
        have hsplit : splitsPair [c] (d :: rest) = true := by simp [splitsPair, hc, hd]
        rw [List.singleton_append, byteCount_pair hc hd,
          byteCount_cons (not_high_of_low hd), hsplit,
          length_encodeUnit_of_surrogate (.inl hc), length_encodeUnit_of_surrogate (.inr hd),
          Bool.toNat_true]
        omega
      · have hsplit : splitsPair [c] (d :: rest) = false := by
          simpa [splitsPair] using hpair
        rw [List.singleton_append, byteCount_cons_cons (by simpa using hpair), hsplit]
        rfl
  | case3 c d rest hpair ih =>
    obtain ⟨hc, hd⟩ := Bool.and_eq_true_iff.mp hpair
    have hsplit : splitsPair (c :: d :: rest) t = splitsPair rest t := by
      cases rest with
      | nil => simp [splitsPair, not_high_of_low hd]
      | cons e rest => simp [splitsPair]
    rw [List.cons_append, List.cons_append, byteCount_pair hc hd, byteCount_pair hc hd, hsplit]
    omega
  | case4 c d rest hpair ih =>
    have hsplit : splitsPair (c :: d :: rest) t = splitsPair (d :: rest) t := by
      simp [splitsPair]
    rw [List.cons_append, List.cons_append, byteCount_cons_cons (by simpa using hpair),
      byteCount_cons_cons (by simpa using hpair), hsplit]
    rw [List.cons_append] at ih
    omega

/-- A text has no fewer bytes than its beginnings. -/
theorem byteCount_le_append (s t : Str) : byteCount s ≤ byteCount (s ++ t) := by
  have hcut := byteCount_append s t
  cases hsplit : splitsPair s t with
  | false =>
    rw [hsplit] at hcut
    exact Nat.le_of_add_right_le hcut.ge
  | true =>
    -- the second half of the pair is counted with three bytes on its own
    rw [splitsPair, Bool.and_eq_true] at hsplit
    cases t with
    | nil => exact nomatch hsplit.2
    | cons d rest =>
      have hd : isLowSurrogate d = true := hsplit.2
      rw [byteCount_cons (not_high_of_low hd), length_encodeUnit_of_surrogate (.inr hd)] at hcut
      have htwo := Bool.toNat_le (splitsPair s (d :: rest))
      omega

/-! ### At least a byte for each code unit, and at most three

A pair has four bytes for its two code units, and everything else has one, two or three. -/

theorem length_encodeUnit_of_ascii {c : Char16} (h : c ≤ 0x7f) : (encodeUnit c).length = 1 := by
  have hlt : c.toNat < 0x80 := Nat.lt_succ_of_le (UInt16.le_iff_toNat_le.mp h)
  have hhigh : isHighSurrogate c = false := by
    have hge : ¬ (0xd800 : Char16) ≤ c := by
      rw [UInt16.le_iff_toNat_le]
      exact Nat.not_le.mpr (Nat.lt_trans hlt (by decide))
    simp [isHighSurrogate, hge]
  have hlow : isLowSurrogate c = false := by
    have hge : ¬ (0xdc00 : Char16) ≤ c := by
      rw [UInt16.le_iff_toNat_le]
      exact Nat.not_le.mpr (Nat.lt_trans hlt (by decide))
    simp [isLowSurrogate, hge]
  rw [encodeUnit, hhigh, hlow, if_neg (by decide), encodeScalar, if_pos hlt]
  rfl

theorem one_lt_length_encodeScalar {n : ℕ} (h : 0x80 ≤ n) : 1 < (encodeScalar n).length := by
  rw [encodeScalar, if_neg (by omega)]
  split
  · exact Nat.lt_succ_self 1
  · split <;> simp

theorem one_lt_length_encodeUnit {c : Char16} (h : ¬ c ≤ 0x7f) : 1 < (encodeUnit c).length := by
  rw [encodeUnit]
  split
  · exact one_lt_length_encodeScalar (by decide)
  · rw [UInt16.le_iff_toNat_le] at h
    exact one_lt_length_encodeScalar (Nat.not_le.mp h)

theorem not_ascii_of_high {c : Char16} (h : isHighSurrogate c = true) : ¬ c ≤ 0x7f := by
  intro hascii
  have hone := length_encodeUnit_of_ascii hascii
  rw [length_encodeUnit_of_surrogate (.inl h)] at hone
  exact absurd hone (by decide)

theorem length_le_byteCount (s : Str) : s.length ≤ byteCount s := by
  have hunit : ∀ c, 1 ≤ (encodeUnit c).length := by
    intro c
    by_cases h : c ≤ 0x7f
    · exact (length_encodeUnit_of_ascii h).ge
    · exact (one_lt_length_encodeUnit h).le
  induction s using encode.induct with
  | case1 => exact Nat.zero_le _
  | case2 c => exact byteCount_singleton c ▸ hunit c
  | case3 c d rest hpair ih =>
    obtain ⟨hc, hd⟩ := Bool.and_eq_true_iff.mp hpair
    rw [byteCount_pair hc hd, List.length_cons, List.length_cons]
    omega
  | case4 c d rest hpair ih =>
    rw [byteCount_cons_cons (by simpa using hpair), List.length_cons]
    have hc := hunit c
    omega

theorem length_encodeUnit_le (c : Char16) : (encodeUnit c).length ≤ 3 := by
  have hscalar : ∀ n < 0x10000, (encodeScalar n).length ≤ 3 := by
    intro n hn
    rw [encodeScalar]
    split
    · exact Nat.le_of_lt_succ (by simp)
    · split
      · exact Nat.le_of_lt_succ (by simp)
      · exact Nat.le_refl 3
  rw [encodeUnit]
  split
  · exact hscalar _ (by decide)
  · exact hscalar _ c.toNat_lt

theorem byteCount_le (s : Str) : byteCount s ≤ 3 * s.length := by
  induction s using encode.induct with
  | case1 => exact Nat.le_refl 0
  | case2 c => exact byteCount_singleton c ▸ length_encodeUnit_le c
  | case3 c d rest hpair ih =>
    obtain ⟨hc, hd⟩ := Bool.and_eq_true_iff.mp hpair
    rw [byteCount_pair hc hd, List.length_cons, List.length_cons]
    omega
  | case4 c d rest hpair ih =>
    rw [byteCount_cons_cons (by simpa using hpair), List.length_cons]
    have hc := length_encodeUnit_le c
    omega

/-- **No more bytes than code units exactly for ASCII.** -/
theorem byteCount_le_length_iff (s : Str) : byteCount s ≤ s.length ↔ IsAscii s := by
  induction s using encode.induct with
  | case1 => simp [IsAscii]
  | case2 c =>
    rw [byteCount_singleton]
    by_cases h : c ≤ 0x7f
    · exact iff_of_true (length_encodeUnit_of_ascii h).le (by simpa [IsAscii] using h)
    · exact iff_of_false (Nat.not_le.mpr (one_lt_length_encodeUnit h)) (by simpa [IsAscii] using h)
  | case3 c d rest hpair ih =>
    obtain ⟨hc, hd⟩ := Bool.and_eq_true_iff.mp hpair
    refine iff_of_false ?_ fun hascii => not_ascii_of_high hc (hascii c (List.mem_cons_self ..))
    have hrest := length_le_byteCount rest
    rw [byteCount_pair hc hd, List.length_cons, List.length_cons]
    omega
  | case4 c d rest hpair ih =>
    have hrest := length_le_byteCount (d :: rest)
    rw [byteCount_cons_cons (by simpa using hpair), List.length_cons (a := c)]
    by_cases h : c ≤ 0x7f
    · rw [length_encodeUnit_of_ascii h, Nat.add_comm, Nat.add_le_add_iff_right, ih]
      simp [IsAscii, h]
    · have hc := one_lt_length_encodeUnit h
      refine iff_of_false (by omega) fun hascii => h (hascii c (List.mem_cons_self ..))

/-! ### ASCII

The encodings of ASCII are the texts themselves. -/

/-- A character of ASCII is its own code. -/
theorem encodeUnit_of_ascii {c : Char16} (h : c ≤ 0x7f) : encodeUnit c = [c.toUInt8] := by
  have hlt : c.toNat < 0x80 := Nat.lt_succ_of_le (UInt16.le_iff_toNat_le.mp h)
  have hone := length_encodeUnit_of_ascii h
  have hsurrogate : (isHighSurrogate c || isLowSurrogate c) = false := by
    rw [Bool.eq_false_iff]
    intro hc
    rw [length_encodeUnit_of_surrogate (Bool.or_eq_true_iff.mp hc)] at hone
    omega
  rw [encodeUnit, hsurrogate, if_neg (by decide), encodeScalar, if_pos hlt]
  rfl

theorem encode_of_isAscii {s : Str} (h : IsAscii s) : encode s = s.map UInt16.toUInt8 := by
  induction s using encode.induct with
  | case1 => rfl
  | case2 c => exact encodeUnit_of_ascii (h c (List.mem_cons_self ..))
  | case3 c d rest hpair ih =>
    exact absurd (h c (List.mem_cons_self ..))
      (not_ascii_of_high (Bool.and_eq_true_iff.mp hpair).1)
  | case4 c d rest hpair ih =>
    rw [encode, if_neg hpair, encodeUnit_of_ascii (h c (List.mem_cons_self ..)),
      ih fun a ha => h a (List.mem_cons_of_mem _ ha)]
    rfl

end Utf8
