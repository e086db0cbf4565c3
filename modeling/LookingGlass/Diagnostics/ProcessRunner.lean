import LookingGlass.Foundations.Utf8
import Mathlib.Algebra.BigOperators.Group.List.Basic
import Mathlib.Algebra.GroupWithZero.Nat
import Mathlib.Algebra.Order.Group.Int
import Mathlib.Data.Int.Basic
import Mathlib.Tactic.Common

/-!
# The cap on the output of a tool

`readCappedAsync` is to keep at most `maxBytes` bytes of what a tool writes, and to report if there
is more. It counts the bytes of each chunk of characters that the reader hands it, which is not the
number of bytes of the text where a chunk ends between the halves of a surrogate pair; and of the
chunk that is too much it keeps as many characters as there are bytes left, which is too many where
these are not ASCII.

The counter is an `int`, and `wrap` is what its arithmetic makes of a sum. A sum that wraps around
is negative, so the loop goes on, and what it returns is too long whatever comes next.

## What the chunks have to be

Whether the cap is right is said of the chunks, as they are handed over: `WholePairs` and
`AsciiAtCap` know nothing of the loop. Both look only at the chunks that come while the text fits,
since what comes after the chunk that is too much is not read. Where a pair is split, the text may
still be returned as it should be, if the cap is not near; nothing is said about that.

## Main results

* `ProcessRunner.faithful_readLoop_iff` — when the loop is right, from any text that fits
* `ProcessRunner.faithful_of_asciiAtCap` — for which chunks the cap is right
-/

namespace LookingGlass

open Utf16 Utf8

namespace ProcessRunner

/-- What a call of `ReadAsync` comes to; no characters are the end. The two exceptions that are
caught end the loop like that. -/
inductive Read
  | chars (buffer : Str)
  | objectDisposed
  | io

/-- The arithmetic of `int`. -/
def wrap (n : ℤ) : ℤ := n.bmod (2 ^ 32)

/-- The text, and whether `onLimit` was invoked. The callback is invoked once at most, so that is
all there is to know about it. -/
structure Capped where
  text : Str
  limited : Bool
  deriving DecidableEq

/-- The loop, with `builder` and `total`. -/
def readLoop (maxBytes : ℤ) (builder : Str) (total : ℤ) : List Read → Capped
  | [] | .objectDisposed :: _ | .io :: _ => ⟨builder, false⟩
  | .chars buffer :: reads =>
    if buffer.length = 0 then ⟨builder, false⟩
    else
      let bytes : ℤ := byteCount buffer
      if wrap (total + bytes) > maxBytes then
        let remaining := max 0 (wrap (maxBytes - total))
        ⟨builder ++ buffer.take (min buffer.length remaining.toNat), true⟩
      else readLoop maxBytes (builder ++ buffer) (wrap (total + bytes)) reads

def readCappedAsync (reads : List Read) (maxBytes : ℤ) : Capped := readLoop maxBytes [] 0 reads

/-! ### What is expected

Four things are asked of what is returned, and the text that they are about is the whole of what the
chunks have in them. -/

/-- The part of a text that fits, all of it if it does, and the right verdict. Bytes are those of
the text in UTF-8, where half of a surrogate pair that is alone counts as a replacement character.
-/
structure Faithful (text : Str) (maxBytes : ℤ) (capped : Capped) : Prop where
  start : capped.text <+: text
  bytes_le : byteCount capped.text ≤ maxBytes
  whole : byteCount text ≤ maxBytes → capped.text = text
  limited : capped.limited = true ↔ maxBytes < byteCount text

/-! ### When the cap is right

Both conditions are on the chunks by themselves. They mention neither the counter nor what is kept.
-/

/-- Of the chunks that come after a text: as long as there are no more than `maxBytes` bytes, no
surrogate pair is split between what there is and the next chunk. -/
def WholePairs (maxBytes : ℤ) (text : Str) (chunks : List Str) : Prop :=
  ∀ before chunk after, chunks = before ++ chunk :: after →
    byteCount (text ++ before.flatten) ≤ maxBytes →
      splitsPair (text ++ before.flatten) chunk = false

/-- Of the chunks that come after a text: if one of them is too much, then an `int` can count the
bytes there are with it, and it starts with at least as many characters of ASCII as there are bytes
left for it. -/
def AsciiAtCap (maxBytes : ℤ) (text : Str) (chunks : List Str) : Prop :=
  ∀ before chunk after, chunks = before ++ chunk :: after →
    byteCount (text ++ before.flatten) ≤ maxBytes →
      maxBytes < byteCount (text ++ before.flatten ++ chunk) →
        byteCount (text ++ before.flatten ++ chunk) < 2 ^ 31 ∧
          maxBytes - byteCount (text ++ before.flatten) ≤ chunk.length ∧
            IsAscii (chunk.take (maxBytes - byteCount (text ++ before.flatten)).toNat)

theorem WholePairs.tail {maxBytes : ℤ} {text chunk : Str} {chunks : List Str}
    (h : WholePairs maxBytes text (chunk :: chunks)) :
    WholePairs maxBytes (text ++ chunk) chunks := by
  intro before next after hchunks hfits
  rw [List.append_assoc, ← List.flatten_cons] at hfits ⊢
  exact h (chunk :: before) next after (by rw [hchunks, List.cons_append]) hfits

/-- A chunk that fits says nothing. -/
theorem asciiAtCap_cons_of_le {maxBytes : ℤ} {text chunk : Str} {chunks : List Str}
    (hfits : byteCount (text ++ chunk) ≤ maxBytes) :
    AsciiAtCap maxBytes text (chunk :: chunks) ↔ AsciiAtCap maxBytes (text ++ chunk) chunks := by
  constructor
  · intro h before next after hchunks
    rw [List.append_assoc text, ← List.flatten_cons]
    exact h (chunk :: before) next after (by rw [hchunks, List.cons_append])
  · intro h before next after hchunks
    cases before with
    | nil =>
      obtain ⟨rfl, rfl⟩ := List.cons.inj hchunks
      rw [List.flatten_nil, List.append_nil]
      exact fun _ hmore => absurd hfits (Int.not_le.mpr hmore)
    | cons first before =>
      obtain ⟨rfl, hrest⟩ := List.cons.inj hchunks
      rw [List.flatten_cons, ← List.append_assoc]
      exact h before next after hrest

/-- A chunk that is too much is the only one that counts. -/
theorem asciiAtCap_cons_of_lt {maxBytes : ℤ} {text chunk : Str} {chunks : List Str}
    (htext : byteCount text ≤ maxBytes) (hmore : maxBytes < byteCount (text ++ chunk)) :
    AsciiAtCap maxBytes text (chunk :: chunks) ↔ byteCount (text ++ chunk) < 2 ^ 31 ∧
      maxBytes - byteCount text ≤ chunk.length ∧
        IsAscii (chunk.take (maxBytes - byteCount text).toNat) := by
  constructor
  · intro h
    have hself := h [] chunk chunks rfl
    rw [List.flatten_nil, List.append_nil] at hself
    exact hself htext hmore
  · intro h before next after hchunks
    cases before with
    | nil =>
      obtain ⟨rfl, rfl⟩ := List.cons.inj hchunks
      rw [List.flatten_nil, List.append_nil]
      exact fun _ _ => h
    | cons first before =>
      obtain ⟨rfl, hrest⟩ := List.cons.inj hchunks
      intro hfits
      have hle := byteCount_le_append (text ++ chunk) before.flatten
      rw [List.flatten_cons, ← List.append_assoc] at hfits
      omega

/-! ### The loop

By induction over the chunks, from any text that fits so far. -/

theorem wrap_of_lt {n : ℤ} (h : 0 ≤ n) (hlt : n < 2 ^ 31) : wrap n = n := by
  rw [wrap, Int.bmod_eq_of_le_mul_two] <;> omega

theorem wrap_neg {n : ℤ} (h : 2 ^ 31 ≤ n) (hlt : n < 2 ^ 32) : wrap n < 0 := by
  rw [wrap, Int.bmod_def, Int.emod_eq_of_lt (by omega) (by omega)]
  split <;> omega

/-- The loop takes nothing back. -/
theorem prefix_readLoop (maxBytes : ℤ) (reads : List Read) (builder : Str) (total : ℤ) :
    builder <+: (readLoop maxBytes builder total reads).text := by
  induction reads generalizing builder total with
  | nil => exact List.prefix_rfl
  | cons read reads ih =>
    cases read with
    | objectDisposed | io => exact List.prefix_rfl
    | chars buffer =>
      rw [readLoop]
      split
      · exact List.prefix_rfl
      · dsimp only
        split
        · exact List.prefix_append ..
        · exact (List.prefix_append ..).trans (ih _ _)

/-- A beginning of a chunk splits no pair that the chunk does not split. -/
theorem splitsPair_take {text chunk : Str} (h : splitsPair text chunk = false) (n : ℕ) :
    splitsPair text (chunk.take n) = false := by
  cases n with
  | zero => simp [splitsPair]
  | succ n => rwa [splitsPair, List.head?_take, if_neg (Nat.succ_ne_zero n), ← splitsPair]

/-- Of the chunk that is too much, as many characters are kept as there are bytes left. -/
theorem faithful_take_iff {maxBytes : ℤ} {text chunk rest : Str} (htext : byteCount text ≤ maxBytes)
    (hmore : maxBytes < byteCount (text ++ chunk)) (hwhole : splitsPair text chunk = false) :
    Faithful (text ++ chunk ++ rest) maxBytes
        ⟨text ++ chunk.take (maxBytes - byteCount text).toNat, true⟩ ↔
      maxBytes - byteCount text ≤ chunk.length ∧
        IsAscii (chunk.take (maxBytes - byteCount text).toNat) := by
  have hleft : ((maxBytes - byteCount text).toNat : ℤ) = maxBytes - byteCount text :=
    Int.toNat_of_nonneg (by omega)
  generalize (maxBytes - byteCount text).toNat = left at hleft
  have hkept := byteCount_append text (chunk.take left)
  rw [splitsPair_take hwhole, Bool.toNat_false] at hkept
  have hascii := byteCount_le_length_iff (chunk.take left)
  rw [List.length_take] at hascii
  have hall := byteCount_le_append (text ++ chunk) rest
  constructor
  · intro h
    have hle := h.bytes_le
    dsimp only at hle
    have hlong : left ≤ chunk.length := by
      by_contra hshort
      rw [List.take_of_length_le (by omega)] at hle
      omega
    exact ⟨by omega, hascii.mp (by omega)⟩
  · rintro ⟨hlong, hkeeps⟩
    have hfew := hascii.mpr hkeeps
    refine ⟨?_, by dsimp only; omega, fun hfits => by omega, iff_of_true rfl (by omega)⟩
    rw [List.append_assoc]
    exact (List.prefix_append_right_inj _).mpr
      ((List.take_prefix _ _).trans (List.prefix_append _ _))

/-- What the reader hands over is not empty and fits into its buffer. -/
def AreRead (chunks : List Str) : Prop := ∀ chunk ∈ chunks, chunk ≠ [] ∧ chunk.length ≤ 4096

instance (chunks : List Str) : Decidable (AreRead chunks) :=
  inferInstanceAs (Decidable (∀ chunk ∈ chunks, chunk ≠ [] ∧ chunk.length ≤ 4096))

/-- **When the loop is right**, from any text that fits: by the chunk that is too much. -/
theorem faithful_readLoop_iff {maxBytes : ℤ} (hint : maxBytes < 2 ^ 31) {text : Str}
    {chunks : List Str} (hchunks : AreRead chunks) (htext : byteCount text ≤ maxBytes)
    (hwhole : WholePairs maxBytes text chunks) :
    Faithful (text ++ chunks.flatten) maxBytes
        (readLoop maxBytes text (byteCount text) (chunks.map .chars)) ↔
      AsciiAtCap maxBytes text chunks := by
  induction chunks generalizing text with
  | nil =>
    rw [List.flatten_nil, List.append_nil]
    refine iff_of_true ⟨List.prefix_rfl, htext, fun _ => rfl, ?_⟩ fun before chunk after h => ?_
    · exact iff_of_false Bool.false_ne_true (Int.not_lt.mpr htext)
    · exact absurd h (by simp)
  | cons chunk chunks ih =>
    obtain ⟨hne, hlength⟩ := hchunks chunk (List.mem_cons_self ..)
    have hsplit : splitsPair text chunk = false := by
      have hself := hwhole [] chunk chunks rfl
      rw [List.flatten_nil, List.append_nil] at hself
      exact hself htext
    have hsum := byteCount_append text chunk
    rw [hsplit, Bool.toNat_false] at hsum
    have hbytes := byteCount_le chunk
    have htotal : (byteCount text : ℤ) + byteCount chunk = byteCount (text ++ chunk) := by omega
    rw [List.map_cons, readLoop, if_neg (by simpa using hne), List.flatten_cons,
      ← List.append_assoc]
    dsimp only
    rw [htotal]
    by_cases hfits : (byteCount (text ++ chunk) : ℤ) ≤ maxBytes
    · rw [wrap_of_lt (Int.natCast_nonneg _) (by omega), if_neg (Int.not_lt.mpr hfits),
        asciiAtCap_cons_of_le hfits]
      exact ih (fun other hother => hchunks other (List.mem_cons_of_mem _ hother)) hfits hwhole.tail
    have hmore : maxBytes < byteCount (text ++ chunk) := Int.not_le.mp hfits
    rw [asciiAtCap_cons_of_lt htext hmore]
    by_cases hcount : byteCount (text ++ chunk) < 2 ^ 31
    · rw [wrap_of_lt (Int.natCast_nonneg _) (by omega), if_pos hmore,
        wrap_of_lt (by omega) (by omega), max_eq_right (by omega), Nat.min_comm,
        ← List.take_eq_take_min, faithful_take_iff htext hmore hsplit]
      exact (and_iff_right hcount).symm
    · -- The counter wraps around: the chunk is kept, although it is too much.
      have hneg := wrap_neg (n := byteCount (text ++ chunk)) (by omega) (by omega)
      rw [if_neg (by omega)]
      refine iff_of_false (fun h => ?_) fun h => hcount h.1
      obtain ⟨rest, hrest⟩ := prefix_readLoop maxBytes (chunks.map .chars) (text ++ chunk)
        (wrap (byteCount (text ++ chunk)))
      have hle := h.bytes_le
      rw [← hrest] at hle
      have hall := byteCount_le_append (text ++ chunk) rest
      omega

/-- **For which chunks the cap is right.** It is enough that no pair is split while the text fits,
and that the chunk that is too much starts with enough of ASCII; and where no pair is split, the
latter is needed. -/
theorem faithful_of_asciiAtCap {maxBytes : ℤ} (hmax : 0 ≤ maxBytes ∧ maxBytes < 2 ^ 31)
    {chunks : List Str} (hchunks : AreRead chunks) :
    (WholePairs maxBytes [] chunks ∧ AsciiAtCap maxBytes [] chunks →
      Faithful chunks.flatten maxBytes (readCappedAsync (chunks.map .chars) maxBytes)) ∧
    (WholePairs maxBytes [] chunks →
      Faithful chunks.flatten maxBytes (readCappedAsync (chunks.map .chars) maxBytes) →
        AsciiAtCap maxBytes [] chunks) := by
  have hiff := @faithful_readLoop_iff _ hmax.2 [] _ hchunks hmax.1
  exact ⟨fun ⟨hwhole, hascii⟩ => (hiff hwhole).mpr hascii, fun hwhole => (hiff hwhole).mp⟩

/-- Four letters in two chunks, of which three fit. -/
theorem faithful_of_four_letters :
    Faithful [0x61, 0x62, 0x63, 0xe9] 3
      (readCappedAsync [.chars [0x61, 0x62], .chars [0x63, 0xe9]] 3) := by
  have hheads : ∀ chunk ∈ ([[0x61, 0x62], [0x63, 0xe9]] : List Str),
      chunk.head?.any isLowSurrogate = false := by decide
  refine (@faithful_of_asciiAtCap 3 (by decide) [[0x61, 0x62], [0x63, 0xe9]] (by decide)).1 ⟨?_, ?_⟩
  · intro before chunk after h _
    have hmem : chunk ∈ ([[0x61, 0x62], [0x63, 0xe9]] : List Str) :=
      h ▸ List.mem_append_right _ (List.mem_cons_self ..)
    rw [splitsPair, hheads chunk hmem, Bool.and_false]
  · rw [asciiAtCap_cons_of_le (by decide), asciiAtCap_cons_of_lt (by decide) (by decide)]
    decide

/-- One byte is left for a letter of two, and the letter is kept. And a letter of four, read in two
halves, does not fit in five. -/
theorem not_faithful_of_two :
    ¬ Faithful [0xe9] 1 (readCappedAsync [.chars [0xe9]] 1) ∧
      ¬ Faithful [0xd83d, 0xde00] 5 (readCappedAsync [.chars [0xd83d], .chars [0xde00]] 5) := by
  constructor
  · intro h
    exact absurd h.bytes_le (by decide)
  · intro h
    exact absurd (h.limited.mp (by decide)) (by decide)

end ProcessRunner

end LookingGlass
