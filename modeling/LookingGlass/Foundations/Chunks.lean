import Mathlib.Data.List.Basic

/-!
# Lists in chunks

`List.chunk` cuts a list into consecutive blocks of a given size, the last of which may be shorter.
Block `i` starts at `i * size`, so the block of the last element starts at the largest multiple of
the size that is still an index.

## Why the number of blocks is written out

The blocks are indexed: their number is the length divided by the size and rounded up, and block `i`
is what is there from `i * size` on, cut to the size. A recursion that takes one block after the
other would be as good a definition of the same list, but loops over arrays are written with an
index and a bound, and this is the form in which they can be compared with it line by line. The
recursion is what `flatten_map_range` supplies: so many blocks are what the list starts with.

A size of zero has no blocks to speak of, and every result asks for a positive one.

## Main results

* `List.flatten_chunk` — nothing is lost, and nothing is moved
* `List.head?_chunk`, `List.getLast?_chunk` — the first block and the last one
-/

namespace List

variable {α : Type*}

/-- The blocks of a list, by their indices: as many as are needed to reach its end. -/
def chunk (size : ℕ) (xs : List α) : List (List α) :=
  (range ((xs.length + (size - 1)) / size)).map fun i => (xs.drop (i * size)).take size

/-- The first block starts where the list does, and is shorter than the size only if the list is. -/
theorem head?_chunk {size : ℕ} (hsize : 0 < size) {xs : List α} (hxs : 0 < xs.length) :
    (chunk size xs).head? = some (xs.take size) := by
  have hcount : 0 < (xs.length + (size - 1)) / size := Nat.div_pos (by omega) hsize
  rw [chunk, head?_map, head?_range, if_neg (Nat.pos_iff_ne_zero.mp hcount)]
  simp

/-- The last block is all that is left from its start on, which is the last multiple of the size
that is an index of the list. -/
theorem getLast?_chunk {size : ℕ} (hsize : 0 < size) {xs : List α} (hxs : 0 < xs.length) :
    (chunk size xs).getLast? = some (xs.drop ((xs.length - 1) / size * size)) := by
  have hcount : (xs.length + (size - 1)) / size = (xs.length - 1) / size + 1 := by
    rw [show xs.length + (size - 1) = xs.length - 1 + size by omega, Nat.add_div_right _ hsize]
  have hlen : (xs.drop ((xs.length - 1) / size * size)).length ≤ size := by
    have hdiv := Nat.div_add_mod (xs.length - 1) size
    have hmod := Nat.mod_lt (xs.length - 1) hsize
    rw [Nat.mul_comm] at hdiv
    rw [length_drop]
    omega
  rw [chunk, hcount, range_succ, map_append, map_singleton, getLast?_append_of_ne_nil _ (by simp)]
  simp [take_of_length_le hlen]

/-- So many blocks of full size are what the list starts with. -/
theorem flatten_map_range (size count : ℕ) (xs : List α) :
    ((range count).map fun i => (xs.drop (i * size)).take size).flatten =
      xs.take (count * size) := by
  induction count with
  | zero => simp
  | succ count ih =>
    rw [range_succ, map_append, flatten_append, ih, map_singleton, flatten_singleton,
      Nat.succ_mul, take_add]

/-- **Nothing is lost, and nothing is moved.** -/
theorem flatten_chunk {size : ℕ} (hsize : 0 < size) (xs : List α) :
    (chunk size xs).flatten = xs := by
  rw [chunk, flatten_map_range]
  refine take_of_length_le ?_
  have hdiv := Nat.div_add_mod (xs.length + (size - 1)) size
  have hmod := Nat.mod_lt (xs.length + (size - 1)) hsize
  rw [Nat.mul_comm] at hdiv
  omega

theorem ne_nil_of_mem_chunk {size : ℕ} (hsize : 0 < size) {xs block : List α}
    (h : block ∈ chunk size xs) : block ≠ [] := by
  obtain ⟨i, hi, rfl⟩ := mem_map.mp h
  have hcount : (i + 1) * size ≤ xs.length + (size - 1) :=
    (Nat.le_div_iff_mul_le hsize).mp (mem_range.mp hi)
  rw [Nat.succ_mul] at hcount
  refine ne_nil_of_length_pos ?_
  rw [length_take, length_drop]
  omega

/-- If so many blocks could hold the list, there are no more: a bound on the number of points of a
summary whose size was chosen from the length. -/
theorem length_chunk_le {size : ℕ} (hsize : 0 < size) {xs : List α} {count : ℕ}
    (h : xs.length ≤ count * size) : (chunk size xs).length ≤ count := by
  rw [chunk, length_map, length_range]
  refine Nat.lt_succ_iff.mp ((Nat.div_lt_iff_lt_mul hsize).mpr ?_)
  rw [Nat.succ_mul]
  omega

/-- The first elements of the blocks stand in the order of the list, so what is increasing in the
list is increasing in them. -/
theorem filterMap_head?_sublist (blocks : List (List α)) :
    blocks.filterMap head? <+ blocks.flatten := by
  induction blocks with
  | nil => exact .refl _
  | cons block blocks ih =>
    cases block with
    | nil => exact ih
    | cons x xs =>
      show x :: blocks.filterMap head? <+ x :: (xs ++ blocks.flatten)
      exact .cons_cons x (ih.trans (sublist_append_right _ _))

end List
