import Mathlib.Algebra.Order.Field.Basic
import Mathlib.Algebra.Order.Floor.Ring
import Mathlib.Tactic.Linarith
import Mathlib.Tactic.Ring

/-!
# Rounding on grids that get coarser

Large numbers are rounded more coarsely than small ones. Each level has a grid of its own, and ends
at a number on its grid that is on the next grid, too. The next level begins there or a little
before, but not by more than half of its grid.

Then nothing is inverted: what is below the end of a level is not rounded beyond it, and what is on
the next level is not rounded to less.

## Where this arises

Quantities are shown in units: seconds up to a minute, minutes up to an hour, and so on, each
rounded to a decimal of its own unit. A larger unit is a coarser grid. What could go wrong is at the
seams: a number just below the end of one unit could be rounded past it, and the first numbers of
the next unit could be rounded to less than this. The two conditions of a `Scale` exclude exactly
that, one for each side of a seam.

The end of a level and the number it is rounded to need not be the same. A program may go over to
the next unit a little before, where the text of the smaller one would read as a whole larger one;
`stop` is where it goes over and `bound` is the number at the seam.

Everything is over a linearly ordered field with a floor, so the same lemmas serve exact quotients
and those of a fixed format that is embedded in the rationals.

## Main results

* `Scale.exists_level` — every number has a level
* `Scale.toGrid_mono` — larger numbers are not rounded to less, whatever their levels
-/

variable {K : Type*} [Field K] [LinearOrder K]

/-- Grids that get coarser: level `k` has the grid `grid k` and ends at `stop k`, which stands for
`bound k` on both sides. The bound is on both grids, and the stop not further below it than half of
the coarser one. -/
structure Scale (K : Type*) [Field K] [LinearOrder K] where
  grid : ℕ → K
  stop : ℕ → K
  bound : ℕ → K
  grid_pos : ∀ k, 0 < grid k
  bound_mono : Monotone bound
  stop_le : ∀ k, stop k ≤ bound k
  le_stop : ∀ k, bound k - grid (k + 1) / 2 ≤ stop k
  below : ∀ k, ∃ n : ℤ, bound k = n * grid k
  above : ∀ k, ∃ n : ℤ, bound k = n * grid (k + 1)

namespace Scale

/-- A number is on level `k`, where `last` is the last one: it has passed the ends of all the levels
before, and not the end of this one. -/
structure Level (s : Scale K) (last : ℕ) (x : K) (k : ℕ) : Prop where
  le_last : k ≤ last
  stop_le : ∀ i < k, s.stop i ≤ x
  lt_stop : k < last → x < s.stop k

/-- **Every number has a level.** -/
theorem exists_level (s : Scale K) (last : ℕ) (x : K) : ∃ k, s.Level last x k := by
  classical
  have hend : ∃ k, k = last ∨ x < s.stop k := ⟨last, .inl rfl⟩
  refine ⟨Nat.find hend, Nat.find_min' hend (.inl rfl), fun i hi => ?_, fun hlast => ?_⟩
  · exact not_lt.mp fun hlt => Nat.find_min hend hi (.inr hlt)
  · exact (Nat.find_spec hend).resolve_left hlast.ne

end Scale

/-! ### Rounding

On one grid rounding is monotone, and it passes no number that is on the grid itself. -/

variable [IsStrictOrderedRing K] [FloorRing K] {g x y : K}

/-- The nearest number on the grid, of two the greater one: half a grid is added and the rest cut
off. -/
def toGrid (g x : K) : K := ⌊x / g + 1 / 2⌋ * g

theorem abs_toGrid_sub_le (hg : 0 < g) (x : K) : |toGrid g x - x| ≤ g / 2 := by
  have hlow := mul_le_mul_of_nonneg_right (Int.floor_le (x / g + 1 / 2)) hg.le
  have hhigh := mul_lt_mul_of_pos_right (Int.lt_floor_add_one (x / g + 1 / 2)) hg
  rw [add_mul, div_mul_cancel₀ x hg.ne'] at hlow hhigh
  rw [add_mul] at hhigh
  rw [abs_le, toGrid]
  constructor <;> linarith

theorem toGrid_le_toGrid (hg : 0 < g) (h : x ≤ y) : toGrid g x ≤ toGrid g y := by
  refine mul_le_mul_of_nonneg_right ?_ hg.le
  have hquotient := div_le_div_of_nonneg_right h hg.le
  exact_mod_cast Int.floor_le_floor (by linarith)

/-- What is on the grid is not passed from below. -/
theorem toGrid_le (hg : 0 < g) {n : ℤ} (h : x ≤ n * g) : toGrid g x ≤ n * g := by
  refine mul_le_mul_of_nonneg_right ?_ hg.le
  have hquotient : x / g ≤ n := by rwa [div_le_iff₀ hg]
  have hfloor : ⌊x / g + 1 / 2⌋ < n + 1 := by
    rw [Int.floor_lt]
    push_cast
    linarith
  exact_mod_cast Int.lt_add_one_iff.mp hfloor

/-- Nor is it missed by what is half a grid below it. -/
theorem le_toGrid (hg : 0 < g) {n : ℤ} (h : n * g - g / 2 ≤ x) : n * g ≤ toGrid g x := by
  refine mul_le_mul_of_nonneg_right ?_ hg.le
  have hquotient : (n : K) - 1 / 2 ≤ x / g := by
    rw [le_div_iff₀ hg, sub_mul]
    linarith
  exact_mod_cast Int.le_floor.mpr (by linarith)

namespace Scale

variable {s : Scale K} {last i j k : ℕ}

theorem Level.toGrid_le_bound (h : s.Level last x k) (hk : k < last) :
    toGrid (s.grid k) x ≤ s.bound k := by
  obtain ⟨n, hn⟩ := s.below k
  have hx : x ≤ s.bound k := (h.lt_stop hk).le.trans (s.stop_le k)
  rw [hn] at hx ⊢
  exact toGrid_le (s.grid_pos k) hx

theorem Level.bound_le_toGrid (h : s.Level last x (k + 1)) :
    s.bound k ≤ toGrid (s.grid (k + 1)) x := by
  obtain ⟨n, hn⟩ := s.above k
  have hx : s.bound k - s.grid (k + 1) / 2 ≤ x :=
    (s.le_stop k).trans (h.stop_le k (Nat.lt_succ_self k))
  rw [hn] at hx ⊢
  exact le_toGrid (s.grid_pos (k + 1)) hx

/-- **Larger numbers are not rounded to less**, whatever their levels. -/
theorem toGrid_mono (hx : s.Level last x i) (hy : s.Level last y j) (h : x ≤ y) :
    toGrid (s.grid i) x ≤ toGrid (s.grid j) y := by
  rcases lt_trichotomy i j with hij | rfl | hij
  · obtain ⟨j, rfl⟩ : ∃ k, j = k + 1 := Nat.exists_eq_succ_of_ne_zero (by omega)
    calc toGrid (s.grid i) x ≤ s.bound i := hx.toGrid_le_bound (hij.trans_le hy.le_last)
      _ ≤ s.bound j := s.bound_mono (Nat.lt_succ_iff.mp hij)
      _ ≤ toGrid (s.grid (j + 1)) y := hy.bound_le_toGrid
  · exact toGrid_le_toGrid (s.grid_pos i) h
  · exact absurd ((hx.stop_le j hij).trans h) (not_le.mpr (hy.lt_stop (hij.trans_le hx.le_last)))

end Scale
