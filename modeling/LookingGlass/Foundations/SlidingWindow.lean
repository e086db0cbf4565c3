import Mathlib.Data.List.Basic
import Mathlib.Order.Lattice
import Mathlib.Tactic.Common

/-!
# Lists limited by number and by age

A history is a list of entries with a time each, newest first. What is to be seen of it are its most
recent entries, at most `cap` of them and none from before a cutoff. A program that answers such
questions does not keep the history: it drops what is too old when it is asked, and what is too
much when something is added.

This is safe because the cutoff only moves forward. `Shows` says what is left of the history then: a
list that answers every later question as the history would.

## Why both limits can be applied early

A limit on the number keeps the newest entries, and so does a limit on the age, because the history
is ordered by time. So the one never keeps what the other would have had to drop before. This is
what `since_take` says, and without the order it is false.

Nothing is said about when a program drops anything. It may do so at every question, only when
something is added, or never: `Shows` holds in each of these cases.

## Main results

* `SlidingWindow.since_take` — in an ordered list both limits may be applied in either order
* `SlidingWindow.Shows.prune`, `SlidingWindow.Shows.add` — what may be dropped, and when
-/

namespace SlidingWindow

variable {α T : Type} [LinearOrder T] {time : α → T} {cap : ℕ} {cutoff later : T}
  {items history : List α} {x : α}

/-- No entry is from before one behind it. Entries of the same time may be in any order. -/
def NewestFirst (time : α → T) (history : List α) : Prop :=
  history.Pairwise fun x y => time y ≤ time x

/-- The entries that are not from before the cutoff. -/
def since (time : α → T) (cutoff : T) (items : List α) : List α :=
  items.filter fun x => decide (cutoff ≤ time x)

/-- The most recent entries that are not from before the cutoff, at most `cap` of them. -/
def recent (time : α → T) (cap : ℕ) (cutoff : T) (history : List α) : List α :=
  (since time cutoff history).take cap

/-! ### One limit after the other

The two limits commute, and a limit on the age is superfluous after a stricter one. -/

theorem since_cons_of_le (h : cutoff ≤ time x) :
    since time cutoff (x :: items) = x :: since time cutoff items :=
  List.filter_cons_of_pos (decide_eq_true h)

theorem since_cons_of_lt (h : time x < cutoff) :
    since time cutoff (x :: items) = since time cutoff items :=
  List.filter_cons_of_neg (by simpa using h)

theorem since_eq_nil (h : ∀ y ∈ items, time y < cutoff) : since time cutoff items = [] := by
  refine List.filter_eq_nil_iff.mpr fun y hy => ?_
  simpa using h y hy

/-- A later cutoff makes an earlier one superfluous. -/
theorem since_since (h : cutoff ≤ later) :
    since time later (since time cutoff items) = since time later items := by
  rw [since, since, List.filter_filter, since]
  congr 1
  funext x
  by_cases hx : later ≤ time x
  · simp [hx, h.trans hx]
  · simp [hx]

/-- **Both limits in either order**: the entries from before the cutoff are behind the others. -/
theorem since_take (h : NewestFirst time items) (n : ℕ) :
    since time cutoff (items.take n) = (since time cutoff items).take n := by
  induction items generalizing n with
  | nil => simp [since]
  | cons x items ih =>
    obtain ⟨hx, hrest⟩ := List.pairwise_cons.mp h
    cases n with
    | zero => simp [since]
    | succ n =>
      rw [List.take_succ_cons]
      rcases le_or_gt cutoff (time x) with hnew | hold
      · rw [since_cons_of_le hnew, since_cons_of_le hnew, List.take_succ_cons, ih hrest]
      · -- Nothing behind an old entry is newer, so neither side has anything.
        have hall : ∀ y ∈ items, time y < cutoff := by
          intro y hy
          exact lt_of_le_of_lt (hx y hy) hold
        rw [since_cons_of_lt hold, since_cons_of_lt hold, since_eq_nil hall, List.take_nil]
        exact since_eq_nil fun y hy => hall y (List.mem_of_mem_take hy)

/-! ### What is left of a history

`Shows` survives whatever is done with the items: time may pass, old entries may be dropped, and new
ones may be added with the last ones dropped. -/

/-- The items are what is left of the history, and they answer every question with this cutoff or a
later one. For an earlier cutoff nothing is promised, since what it would show may be gone. -/
structure Shows (time : α → T) (cap : ℕ) (cutoff : T) (items history : List α) : Prop where
  sublist : items.Sublist history
  reads : ∀ later, cutoff ≤ later → since time later items = recent time cap later history

namespace Shows

theorem nil (cutoff : T) : Shows time cap cutoff [] [] where
  sublist := List.Sublist.slnil
  reads later _ := by simp [since, recent]

theorem mono (h : Shows time cap cutoff items history) (hlater : cutoff ≤ later) :
    Shows time cap later items history where
  sublist := h.sublist
  reads later' hle := h.reads later' (hlater.trans hle)

/-- **What is too old may go** when nobody will ask for it again. -/
theorem prune (h : Shows time cap cutoff items history) :
    Shows time cap cutoff (since time cutoff items) history where
  sublist := List.filter_sublist.trans h.sublist
  reads later hle := by rw [since_since hle, h.reads later hle]

/-- **What is too much may go** when something newer has come in. -/
theorem add (h : Shows time cap cutoff items history)
    (hordered : NewestFirst time (x :: history)) :
    Shows time cap cutoff ((x :: items).take cap) (x :: history) where
  sublist := (List.take_sublist _ _).trans (h.sublist.cons_cons x)
  reads later hle := by
    have hitems : NewestFirst time (x :: items) :=
      List.Pairwise.sublist (h.sublist.cons_cons x) hordered
    rw [since_take hitems, recent]
    rcases le_or_gt later (time x) with hnew | hold
    · rw [since_cons_of_le hnew, since_cons_of_le hnew, h.reads later hle, recent]
      cases cap with
      | zero => rw [List.take_zero, List.take_zero]
      | succ room =>
        rw [List.take_succ_cons, List.take_succ_cons, List.take_take,
          Nat.min_eq_left (Nat.le_succ room)]
    · rw [since_cons_of_lt hold, since_cons_of_lt hold, h.reads later hle, recent, List.take_take,
        Nat.min_self]

end Shows

end SlidingWindow
