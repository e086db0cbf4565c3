import Mathlib.Tactic.Common

/-!
# How a computation may fail

Where some exceptions are handled and the others are not, the question about a computation is not
whether it fails but how. `Except.FailsOnly C` says that an exception, if it ends in one, is in `C`.
The rules below take it apart: a computation in two steps fails only in that way if the first one
does and, for the value it leaves, the second one; a loop, if each step does that is reached.

## Equivalences, not implications

A rule that only takes a goal apart would be enough to show that nothing else can happen. Here the
question has two sides: when a computation fails in a permitted way and when it does not. So each
rule is an equivalence, and what comes out at the end of taking a computation apart is a condition
on its input that is exact, because no step has lost anything.

That makes the rule for loops longer than usual. A step counts only if it is reached, which means
that all the steps before it have come to a value; the rule says so by splitting the list at the
step and asking what the part in front yields.

## Main results

* `Except.failsOnly_bind` — one step after the other
* `Except.failsOnly_foldlM`, `Except.failsOnly_mapM` — loops
-/

namespace Except

variable {ε α β : Type} {C : ε → Prop}

/-- The exception, if there is one, is in `C`. A computation that comes to a value satisfies this
for every `C`, so only failures have to be looked at. -/
def FailsOnly (C : ε → Prop) (r : Except ε α) : Prop := ∀ e, r = .error e → C e

@[simp] theorem failsOnly_ok (a : α) : FailsOnly C (.ok a : Except ε α) := fun _ h => nomatch h

@[simp] theorem failsOnly_pure (a : α) : FailsOnly C (pure a : Except ε α) := failsOnly_ok a

@[simp] theorem failsOnly_error {e : ε} : FailsOnly C (.error e : Except ε α) ↔ C e :=
  ⟨fun h => h e rfl, fun h _ he => Except.error.inj he ▸ h⟩

theorem failsOnly_bind {x : Except ε α} {f : α → Except ε β} :
    FailsOnly C (x >>= f) ↔ FailsOnly C x ∧ ∀ a, x = .ok a → FailsOnly C (f a) := by
  cases x with
  | error e => exact ⟨fun h => ⟨failsOnly_error.mpr (h e rfl), fun _ ha => nomatch ha⟩,
      fun h => failsOnly_error.mpr (failsOnly_error.mp h.1)⟩
  | ok a => exact ⟨fun h => ⟨failsOnly_ok a, fun _ ha => Except.ok.inj ha ▸ h⟩, fun h => h.2 a rfl⟩

theorem bind_eq_ok {x : Except ε α} {f : α → Except ε β} {b : β} :
    x >>= f = .ok b ↔ ∃ a, x = .ok a ∧ f a = .ok b := by
  cases x with
  | error e => exact iff_of_false (fun h => nomatch h) (by simp)
  | ok a => exact ⟨fun h => ⟨a, rfl, h⟩, fun ⟨_, ha, h⟩ => Except.ok.inj ha ▸ h⟩

theorem exists_bind_eq_ok_iff {x : Except ε α} {f : α → Except ε β} :
    (∃ b, x >>= f = .ok b) ↔ ∃ a, x = .ok a ∧ ∃ b, f a = .ok b := by
  simp only [bind_eq_ok]
  exact ⟨fun ⟨b, a, ha, hb⟩ => ⟨a, ha, b, hb⟩, fun ⟨a, ha, b, hb⟩ => ⟨b, a, ha, hb⟩⟩

/-! ### Loops

A loop fails at the first step that does, in the state that the steps before it have led to. -/

/-- A loop over a state: every step does that is reached, in whatever state the steps before it have
left. -/
theorem failsOnly_foldlM {f : β → α → Except ε β} {b : β} {xs : List α} :
    FailsOnly C (xs.foldlM f b) ↔
      ∀ before x after, xs = before ++ x :: after → ∀ b', before.foldlM f b = .ok b' →
        FailsOnly C (f b' x) := by
  induction xs generalizing b with
  | nil => exact iff_of_true (failsOnly_ok b) (by simp)
  | cons x xs ih =>
    rw [List.foldlM_cons, failsOnly_bind]
    constructor
    · rintro ⟨hx, hrest⟩ before y after hsplit b' hb'
      rcases List.cons_eq_append_iff.mp hsplit with ⟨rfl, hcons⟩ | ⟨before', rfl, rfl⟩
      · obtain ⟨rfl, -⟩ := List.cons.inj hcons
        obtain rfl := Except.ok.inj hb'
        exact hx
      · rw [List.foldlM_cons, bind_eq_ok] at hb'
        obtain ⟨b₁, hb₁, hb'⟩ := hb'
        exact ih.mp (hrest b₁ hb₁) before' y after rfl b' hb'
    · intro h
      refine ⟨h [] x xs rfl b rfl, fun b₁ hb₁ => ih.mpr ?_⟩
      rintro before y after rfl b' hb'
      exact h (x :: before) y after rfl b' (by rw [List.foldlM_cons, hb₁]; exact hb')

theorem exists_mapM_eq_ok_iff {f : α → Except ε β} {xs : List α} :
    (∃ ys, xs.mapM f = .ok ys) ↔ ∀ x ∈ xs, ∃ y, f x = .ok y := by
  induction xs with
  | nil => exact iff_of_true ⟨[], rfl⟩ (by simp)
  | cons x xs ih =>
    rw [List.forall_mem_cons, ← ih, List.mapM_cons]
    constructor
    · rintro ⟨ys, hys⟩
      obtain ⟨y, hy, hrest⟩ := bind_eq_ok.mp hys
      obtain ⟨rest, hrest, -⟩ := bind_eq_ok.mp hrest
      exact ⟨⟨y, hy⟩, rest, hrest⟩
    · rintro ⟨⟨y, hy⟩, rest, hrest⟩
      exact ⟨y :: rest, by rw [hy, hrest]; rfl⟩

/-- A loop that collects results: every step does, if those before it have results. What these are
does not matter, as no step sees them. -/
theorem failsOnly_mapM {f : α → Except ε β} {xs : List α} :
    FailsOnly C (xs.mapM f) ↔
      ∀ before x after, xs = before ++ x :: after → (∀ y ∈ before, ∃ b, f y = .ok b) →
        FailsOnly C (f x) := by
  induction xs with
  | nil => exact iff_of_true (failsOnly_ok []) (by simp)
  | cons x xs ih =>
    rw [List.mapM_cons, failsOnly_bind]
    constructor
    · rintro ⟨hx, hrest⟩ before y after hsplit hbefore
      rcases List.cons_eq_append_iff.mp hsplit with ⟨rfl, hcons⟩ | ⟨before', rfl, rfl⟩
      · obtain ⟨rfl, -⟩ := List.cons.inj hcons
        exact hx
      · obtain ⟨⟨b, hb⟩, hbefore⟩ := List.forall_mem_cons.mp hbefore
        exact ih.mp (failsOnly_bind.mp (hrest b hb)).1 before' y after rfl hbefore
    · intro h
      refine ⟨h [] x xs rfl (by simp), fun b hb => failsOnly_bind.mpr ⟨ih.mpr ?_, fun _ _ => ?_⟩⟩
      · rintro before y after rfl hbefore
        exact h (x :: before) y after rfl (List.forall_mem_cons.mpr ⟨⟨b, hb⟩, hbefore⟩)
      · exact failsOnly_pure _

end Except
