import LookingGlass.Foundations.Interaction

/-!
# Two runs of programs

That a program keeps something to itself is a statement about two of its runs: as long as the
answers it gets differ in nothing but the secret, the results do not differ at all. One run cannot
show this, so the statement is about a pair of programs that make the same calls.

`R` says which answers to an operation count as related, `post` which results do. The rules below
go through a program statement by statement; what they establish is that a run of one side becomes
a run of the other when its answers are replaced by related ones.

## The relation is on answers

Related answers are those that differ in what is to be kept secret, and nothing is said of how much
of it the program gets to see. It may look at the secret, compare it, take a branch by it and still
be related to itself, as long as both branches make the same calls and come to related results. A
program that stores the secret without looking is no easier to treat than that.

The calls are the same on both sides, arguments included. What is asked of the environment is
visible from outside, so a secret that is asked with is no secret.

## Main definitions

* `Prog.Related`, `Task.Related` — the same calls, whatever related answers arrive
* `Agree` — two outcomes: the same failure, or related values

## Main results

* `Prog.Related.run` — related answers turn a run of one side into one of the other
* `Task.related_bind`, `Task.related_call`, `Task.related_attempt`, `Task.related_tryCatch` — the
  rule of each construct
-/

namespace Interaction

variable {I : Interface} {α β γ δ ε : Type}

/-- The same call, with related answers. -/
inductive Event.Related (R : ∀ op, I.Ret op → I.Ret op → Prop) : Event I → Event I → Prop
  | intro {op : I.Op} {x y : I.Ret op} (h : R op x y) : Related R ⟨op, x⟩ ⟨op, y⟩

/-- The same failure, or related values. A run that fails and one that does not never agree. -/
inductive Agree (post : α → β → Prop) : Except ε α → Except ε β → Prop
  | ok {a : α} {b : β} (h : post a b) : Agree post (.ok a) (.ok b)
  | error (e : ε) : Agree post (.error e) (.error e)

theorem Agree.eq {x y : Except ε α} (h : Agree Eq x y) : x = y := by
  cases h with
  | ok h => rw [h]
  | error e => rfl

theorem Agree.refl (x : Except ε α) : Agree Eq x x := by
  cases x with
  | ok a => exact .ok rfl
  | error e => exact .error e

variable {R : ∀ op, I.Ret op → I.Ret op → Prop}

namespace Prog

/-- The same calls, whatever related answers arrive, and related results in the end. -/
inductive Related (R : ∀ op, I.Ret op → I.Ret op → Prop) (post : α → β → Prop) :
    Prog I α → Prog I β → Prop
  | done {a : α} {b : β} (h : post a b) : Related R post (.done a) (.done b)
  | call {op : I.Op} {next : I.Ret op → Prog I α} {next' : I.Ret op → Prog I β}
      (h : ∀ x y, R op x y → Related R post (next x) (next' y)) :
      Related R post (.call op next) (.call op next')

variable {mid : α → β → Prop} {post : γ → δ → Prop}

theorem Related.bind {p : Prog I α} {q : Prog I β} {f : α → Prog I γ} {g : β → Prog I δ}
    (h : Related R mid p q) (hnext : ∀ a b, mid a b → Related R post (f a) (g b)) :
    Related R post (p >>= f) (q >>= g) := by
  induction h with
  | done h => exact hnext _ _ h
  | call _ ih => exact .call fun x y hxy => ih x y hxy

/-- Replacing the answers of a run by related ones makes a run of the other side, with a related
result. -/
theorem Related.run {p : Prog I α} {q : Prog I β} {es es' : List (Event I)} {a : α}
    (h : Related R mid p q) (hp : Run p es a) (hes : List.Forall₂ (Event.Related R) es es') :
    ∃ b, Run q es' b ∧ mid a b := by
  induction h generalizing es es' with
  | done h =>
    obtain ⟨rfl, rfl⟩ := run_done.mp hp
    cases hes
    exact ⟨_, .done _, h⟩
  | call _ ih =>
    obtain ⟨x, tail, rfl, htail⟩ := run_call.mp hp
    cases hes with
    | cons hevent hrest =>
      cases hevent with
      | intro hxy =>
        obtain ⟨b, hq, hb⟩ := ih x _ hxy htail hrest
        exact ⟨b, .call _ hq, hb⟩

end Prog

namespace Task

/-- The same calls, and the same failure or related values in the end. -/
def Related (R : ∀ op, I.Ret op → I.Ret op → Prop) (post : α → β → Prop) (t : Task I ε α)
    (u : Task I ε β) : Prop :=
  Prog.Related R (Agree post) t.run u.run

variable {mid : α → β → Prop} {post : γ → δ → Prop}

theorem related_pure {a : α} {b : β} (h : mid a b) :
    Related R mid (pure a : Task I ε α) (pure b) :=
  .done (.ok h)

theorem related_throw (e : ε) :
    Related R mid (throw e : Task I ε α) (throw e) :=
  .done (.error e)

theorem related_ofExcept {x : Except ε α} {y : Except ε β} (h : Agree mid x y) :
    Related R mid (ofExcept x : Task I ε α) (ofExcept y) :=
  .done h

theorem related_call {op : I.Op} {f : I.Ret op → Except ε α} {g : I.Ret op → Except ε β}
    (h : ∀ x y, R op x y → Agree mid (f x) (g y)) :
    Related R mid (call op f) (call op g) :=
  .call fun x y hxy => .done (h x y hxy)

theorem related_bind {t : Task I ε α} {u : Task I ε β} {f : α → Task I ε γ} {g : β → Task I ε δ}
    (h : Related R mid t u) (hnext : ∀ a b, mid a b → Related R post (f a) (g b)) :
    Related R post (t >>= f) (u >>= g) := by
  rw [Related, run_bind, run_bind]
  refine Prog.Related.bind h fun x y hxy => ?_
  cases hxy with
  | ok hab => exact hnext _ _ hab
  | error e => exact .done (.error e)

theorem related_attempt {t : Task I ε α} {u : Task I ε β} (h : Related R mid t u) :
    Related R (Agree mid) (attempt t) (attempt u) := by
  rw [Related, attempt, attempt, ExceptT.run_lift, ExceptT.run_lift, map_eq_pure_bind,
    map_eq_pure_bind]
  exact Prog.Related.bind h fun x y hxy => .done (.ok hxy)

theorem related_tryCatch {t : Task I ε α} {u : Task I ε β} {handle : ε → Task I ε α}
    {handle' : ε → Task I ε β} (h : Related R mid t u)
    (hhandle : ∀ e, Related R mid (handle e) (handle' e)) :
    Related R mid (tryCatch t handle) (tryCatch u handle') := by
  rw [Related, run_tryCatch, run_tryCatch]
  refine Prog.Related.bind h fun x y hxy => ?_
  cases hxy with
  | ok hab => exact .done (.ok hab)
  | error e => exact hhandle e

/-- With related answers, what a task returns is decided by the answers up to the relation: the runs
on both sides return the same. -/
theorem Related.runs_iff {t : Task I ε α} {es es' : List (Event I)} {r : Except ε α}
    (h : Related R Eq t t) (ht : Runs t es r) (hes : List.Forall₂ (Event.Related R) es es')
    (r' : Except ε α) : Runs t es' r' ↔ r' = r := by
  obtain ⟨b, hb, hab⟩ := Prog.Related.run h ht hes
  obtain rfl := hab.eq
  constructor
  · intro h'
    exact h'.unique hb
  · rintro rfl
    exact hb

end Task

end Interaction
