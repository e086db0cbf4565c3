import LookingGlass.Diagnostics.ConnectivityWindow
import LookingGlass.Foundations.Rounding
import Mathlib.Algebra.Order.BigOperators.Group.List

/-!
# Histories that are shown with fewer points

A history of more than 288 samples is cut into blocks of one size, and each block becomes one point.
The size is the smallest with which there are not too many blocks.

## What a point stands for

Each sample is in one block and each block in the order of the history, so nothing is dropped and
nothing is moved: a point has the time at which its block began, and the average of the latencies of
the block, or none if all of its attempts failed. A block with one success among failures is a point
with a latency.

## Exact averages

Sums and averages are exact rationals here, and the code adds up numbers of 64 bits. The two differ
by far less than the last decimal that is kept, but rounding to two decimals can still come out
differently where the average is near the middle between two of them: a point that is shown as 1.00
may be 1.01 in the code. What is claimed of a point allows for this, since it is near to a number
between the smallest and the largest latency of the block, by either computation.

## Main results

* `Double.average_mem` — an average lies between the smallest and the largest number
* `ConnectivityMonitor.downsample_spec` — what a shortened history says about the whole one
-/

namespace Double

/-! ### Averages

An average of finite numbers is finite and lies between them, and rounding moves it by half of the
last decimal at most. -/

variable {xs : List Double} {qs : List ℚ} {lo hi : ℚ}

/-- A number between two others. -/
def Between (lo hi : ℚ) (x : Double) : Prop := ∃ q, x = finite q ∧ lo ≤ q ∧ q ≤ hi

theorem foldl_add_finite (qs : List ℚ) (a : ℚ) :
    (qs.map finite).foldl (· + ·) (finite a) = finite (a + qs.sum) := by
  induction qs generalizing a with
  | nil => rw [List.sum_nil, add_zero]; rfl
  | cons q qs ih =>
    rw [List.map_cons, List.foldl_cons, List.sum_cons, ← add_assoc]
    exact ih (a + q)

theorem average_finite (qs : List ℚ) :
    average (qs.map finite) = finite (qs.sum / qs.length) := by
  have hsum := foldl_add_finite qs 0
  rw [zero_add] at hsum
  rw [average, List.length_map]
  exact congrArg (divNat · qs.length) hsum

theorem exists_map_finite (h : ∀ x ∈ xs, Between lo hi x) :
    ∃ qs : List ℚ, xs = qs.map finite ∧ ∀ q ∈ qs, lo ≤ q ∧ q ≤ hi := by
  induction xs with
  | nil => exact ⟨[], rfl, by simp⟩
  | cons x xs ih =>
    obtain ⟨q, rfl, hq⟩ := h x (List.mem_cons_self ..)
    obtain ⟨qs, rfl, hqs⟩ := ih fun y hy => h y (List.mem_cons_of_mem _ hy)
    exact ⟨q :: qs, rfl, List.forall_mem_cons.mpr ⟨hq, hqs⟩⟩

/-- An average lies between the smallest and the largest number. -/
theorem average_mem (hne : xs ≠ []) (h : ∀ x ∈ xs, Between lo hi x) :
    Between lo hi (average xs) := by
  obtain ⟨qs, rfl, hqs⟩ := exists_map_finite h
  have hlength : (0 : ℚ) < qs.length := by
    rw [Nat.cast_pos]
    exact List.length_pos_of_ne_nil fun hnil => hne (by rw [hnil]; rfl)
  have hlow := List.card_nsmul_le_sum qs lo fun q hq => (hqs q hq).1
  have hhigh := List.sum_le_card_nsmul qs hi fun q hq => (hqs q hq).2
  rw [nsmul_eq_mul] at hlow hhigh
  refine ⟨qs.sum / qs.length, average_finite qs, ?_, ?_⟩
  · rwa [le_div_iff₀ hlength, mul_comm]
  · rwa [div_le_iff₀ hlength, mul_comm]

/-- Rounding to two decimals moves a number by half of the last one at most. -/
theorem exists_round_eq {x : Double} (h : Between lo hi x) :
    ∃ mean rounded, x.round 2 = finite rounded ∧ lo ≤ mean ∧ mean ≤ hi ∧
      |rounded - mean| ≤ 1 / 200 := by
  obtain ⟨q, rfl, hlow, hhigh⟩ := h
  have hnear := abs_roundHalfEven_sub_le (q * 10 ^ 2)
  refine ⟨q, roundHalfEven (q * 10 ^ 2) / 10 ^ 2, rfl, hlow, hhigh, ?_⟩
  rw [abs_le] at hnear ⊢
  constructor <;> linarith

end Double

namespace LookingGlass

namespace ConnectivityMonitor

open Double

variable {samples block : List LatencySample}

/-- What a point says about a block of samples: when it began, and a latency unless all failed,
which is between those of the block up to rounding to two decimals. The mean is bounded and not
computed, so that nothing depends on the order of a sum. -/
structure Represents (block : List LatencySample) (p : LatencySample) : Prop where
  ne_nil : block ≠ []
  sampledAt_eq : block.head?.map LatencySample.sampledAt = some p.sampledAt
  none_iff : p.latencyMs = none ↔ ∀ s ∈ block, s.latencyMs = none
  near : ∀ lo hi, (∀ s ∈ block, ∀ x ∈ s.latencyMs, Between lo hi x) →
    ∀ x ∈ p.latencyMs, ∃ mean rounded, x = finite rounded ∧ lo ≤ mean ∧ mean ≤ hi ∧
      |rounded - mean| ≤ 1 / 200

theorem represents_point (hne : block ≠ []) : Represents block (point block) := by
  obtain ⟨first, rest, rfl⟩ := List.exists_cons_of_ne_nil hne
  set ok := (first :: rest).filterMap LatencySample.latencyMs with hok
  have hlatency : (point (first :: rest)).latencyMs =
      if ok.length > 0 then some ((average ok).round 2) else none := rfl
  refine ⟨hne, rfl, ?_, ?_⟩
  · rw [hlatency, ← List.filterMap_eq_nil_iff, ← hok, ← List.length_eq_zero_iff]
    split
    · next hpos => exact iff_of_false (by simp) hpos.ne'
    · next hzero => exact iff_of_true rfl (Nat.eq_zero_of_not_pos hzero)
  · intro lo hi hbetween x hx
    rw [hlatency] at hx
    split at hx
    · next hpos =>
      obtain rfl := Option.some.inj hx
      refine exists_round_eq (average_mem (List.length_pos_iff.mp hpos) fun y hy => ?_)
      obtain ⟨s, hs, hsy⟩ := List.mem_filterMap.mp hy
      exact hbetween s hs y hsy
    · exact absurd hx (by simp)

theorem represents_singleton (s : LatencySample) : Represents [s] s := by
  refine ⟨by simp, rfl, by simp, ?_⟩
  intro lo hi hbetween x hx
  obtain ⟨q, rfl, hlow, hhigh⟩ := hbetween s (List.mem_singleton_self s) x hx
  exact ⟨q, q, rfl, hlow, hhigh, by rw [sub_self, abs_zero]; norm_num⟩

/-- The blocks of a history, one for each point. -/
theorem exists_blocks (samples : List LatencySample) :
    ∃ blocks : List (List LatencySample), blocks.flatten = samples ∧
      List.Forall₂ Represents blocks (downsample samples) := by
  rw [downsample]
  split
  · refine ⟨samples.map fun s => [s], List.flatMap_singleton' samples, ?_⟩
    exact List.forall₂_map_left_iff.mpr (List.forall₂_same.mpr fun s _ => represents_singleton s)
  · next hmany =>
    have hsize : 0 < blockSize samples.length := by
      rw [blockSize, maxPoints] at *
      omega
    refine ⟨samples.chunk (blockSize samples.length), List.flatten_chunk hsize samples, ?_⟩
    exact List.forall₂_map_right_iff.mpr (List.forall₂_same.mpr fun block hblock =>
      represents_point (List.ne_nil_of_mem_chunk hsize hblock))

theorem length_downsample_le (samples : List LatencySample) :
    (downsample samples).length ≤ maxPoints := by
  rw [downsample]
  split
  · assumption
  · next hmany =>
    have hceil := Nat.div_add_mod (samples.length + (maxPoints - 1)) maxPoints
    have hmod := Nat.mod_lt (samples.length + (maxPoints - 1)) (show 0 < maxPoints by decide)
    have hsize : samples.length ≤ maxPoints * blockSize samples.length := by
      rw [blockSize]
      omega
    have hpos : 0 < blockSize samples.length := by
      rw [blockSize, maxPoints] at *
      omega
    rw [List.length_map]
    exact List.length_chunk_le hpos hsize

/-- The times of the points are some of those of the samples. -/
theorem sampledAt_sublist {blocks : List (List LatencySample)} {points : List LatencySample}
    (h : List.Forall₂ Represents blocks points) :
    (points.map LatencySample.sampledAt).Sublist
      (blocks.flatten.map LatencySample.sampledAt) := by
  have hheads : points.map LatencySample.sampledAt =
      (blocks.filterMap List.head?).map LatencySample.sampledAt := by
    induction h with
    | nil => rfl
    | @cons block p blocks points hblock _ ih =>
      obtain ⟨first, rest, rfl⟩ := List.exists_cons_of_ne_nil hblock.ne_nil
      have htime : first.sampledAt = p.sampledAt := Option.some.inj hblock.sampledAt_eq
      rw [List.map_cons, ih, ← htime]
      rfl
  rw [hheads]
  exact (List.filterMap_head?_sublist blocks).map _

/-- **What a shortened history says about the whole one.** -/
theorem downsample_spec (h : samples.Pairwise fun a b => a.sampledAt ≤ b.sampledAt) :
    (downsample samples).length ≤ 288 ∧
      (downsample samples).Pairwise (fun a b => a.sampledAt ≤ b.sampledAt) ∧
      (∃ blocks : List (List LatencySample), blocks.flatten = samples ∧
        List.Forall₂ Represents blocks (downsample samples)) ∧
      (downsample samples).head?.map LatencySample.sampledAt =
        samples.head?.map LatencySample.sampledAt ∧
      (samples.length ≤ 288 → downsample samples = samples) := by
  obtain ⟨blocks, hflatten, hblocks⟩ := exists_blocks samples
  refine ⟨length_downsample_le samples, ?_, ⟨blocks, hflatten, hblocks⟩,
    head?_downsample samples, ?_⟩
  · have htimes := List.pairwise_map.mpr h
    rw [← hflatten] at htimes
    exact List.pairwise_map.mp (htimes.sublist (sampledAt_sublist hblocks))
  · intro hfew
    exact if_pos hfew

/-- A sample a minute, every other one failed. -/
def minutes (count : ℕ) : List LatencySample :=
  (List.range count).map fun i : ℕ =>
    ⟨(i : ℤ) * 600000000, if i % 2 = 0 then some (.finite i) else none⟩

theorem pairwise_minutes (count : ℕ) :
    (minutes count).Pairwise fun a b => a.sampledAt ≤ b.sampledAt := by
  refine List.pairwise_map.mpr (List.pairwise_lt_range.imp ?_)
  intro i j hlt
  exact Int.mul_le_mul_of_nonneg_right (Int.ofNat_le.mpr hlt.le) (by decide)

theorem downsample_spec_of_day :
    (downsample (minutes 1440)).length ≤ 288 ∧
      (downsample (minutes 1440)).Pairwise (fun a b => a.sampledAt ≤ b.sampledAt) ∧
      (∃ blocks : List (List LatencySample), blocks.flatten = minutes 1440 ∧
        List.Forall₂ Represents blocks (downsample (minutes 1440))) ∧
      (downsample (minutes 1440)).head?.map LatencySample.sampledAt =
        (minutes 1440).head?.map LatencySample.sampledAt ∧
      ((minutes 1440).length ≤ 288 → downsample (minutes 1440) = minutes 1440) :=
  downsample_spec (pairwise_minutes 1440)

end ConnectivityMonitor

end LookingGlass
