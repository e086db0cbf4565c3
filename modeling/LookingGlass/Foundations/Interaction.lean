import Mathlib.Data.List.Forall2
import Mathlib.Tactic.Common

/-!
# Programs that call their environment

A program is a tree: it is done with a result, or it calls an operation and continues with the
answer. What the operations do is left to the environment, so a statement about every run is a
statement about every behaviour of the environment, including answers that change from one call to
the next.

Tasks are programs that may fail. They are Lean's `ExceptT` over programs, so the `do` notation
with `throw`, `try`/`catch` and `finally` is the usual one, and the lemmas below say what each of
these means for the runs of a task. They are stated as equivalences: rewriting with them turns a
run of a whole task into the runs of its parts.

## Why a tree

A list of calls would not do: which call comes next depends on the answers before. A monad over a
state of the world would, but then the world has to be modelled, and every statement is about that
model. With the tree the world is a list of answers, any list of the right types, and nothing is
assumed of it that is not written down as a hypothesis.

The tree is finite along every path, so every program comes to an end if its calls are answered. A
loop of a program must therefore have a bound that is known beforehand, a list that it goes through
or a number of attempts.

## Main definitions

* `Prog`, `Task` — programs over an `Interface`, and those that may fail
* `Prog.Run`, `Task.Runs` — a complete run: the calls made, with their answers, and the outcome
* `Task.attemptAll` — run all of a list of tasks to their ends

## Main results

* `Task.runs_bind`, `Task.runs_call_bind`, `Task.runs_tryCatch`, `Task.runs_tryFinally`,
  `Task.runs_attemptAll`
* `Task.runs_right` — a task over a part of the interface makes calls of that part only
-/

namespace Interaction

/-- A set of operations, with the type of the answer to each. An answer may be a failure; whether it
is one is for the program to say. -/
structure Interface where
  Op : Type
  Ret : Op → Type

namespace Interface

/-- The answers to the operations of both. -/
abbrev sumRet (I J : Interface) : I.Op ⊕ J.Op → Type
  | .inl op => I.Ret op
  | .inr op => J.Ret op

/-- The operations of both. -/
abbrev sum (I J : Interface) : Interface := ⟨I.Op ⊕ J.Op, sumRet I J⟩

end Interface

variable {I J : Interface} {α β ε : Type}

/-- An operation that was called, and its answer. What happens in a run is the list of these, and
nothing else. -/
structure Event (I : Interface) where
  op : I.Op
  answer : I.Ret op

/-- A program that calls operations and goes on with their answers. It is a tree: a node for a call,
with a branch for each answer. A loop of the program is unrolled in it, so that a program always
comes to its end. -/
inductive Prog (I : Interface) (α : Type) : Type
  | done (a : α)
  | call (op : I.Op) (next : I.Ret op → Prog I α)

namespace Prog

def bind : Prog I α → (α → Prog I β) → Prog I β
  | done a, f => f a
  | call op next, f => call op fun answer => (next answer).bind f

instance : Monad (Prog I) where
  pure := done
  bind := bind

/-- A program that does not raise exceptions runs the final part after the main part. -/
instance : MonadFinally (Prog I) where
  tryFinally' x f := do
    let a ← x
    let b ← f (some a)
    pure (a, b)

@[simp] theorem pure_eq (a : α) : (pure a : Prog I α) = done a := rfl

@[simp] theorem done_bind (a : α) (f : α → Prog I β) : done a >>= f = f a := rfl

@[simp] theorem call_bind (op : I.Op) (next : I.Ret op → Prog I α) (f : α → Prog I β) :
    call op next >>= f = call op fun answer => next answer >>= f := rfl

theorem bind_done (p : Prog I α) : p >>= done = p := by
  induction p with
  | done a => rfl
  | call op next ih => rw [call_bind]; exact congrArg _ (funext ih)

theorem bind_assoc {γ : Type} (p : Prog I α) (f : α → Prog I β) (g : β → Prog I γ) :
    p >>= f >>= g = p >>= fun a => f a >>= g := by
  induction p with
  | done a => rfl
  | call op next ih => simp only [call_bind]; exact congrArg _ (funext ih)

instance : LawfulMonad (Prog I) :=
  LawfulMonad.mk' _ bind_done (fun _ _ => rfl) bind_assoc

/-! ### Runs

A run is complete: the program is done at its end. The first calls of a program that is not done are
`Steps`. -/

/-- A complete run: the calls in order, with their answers, and the result. -/
inductive Run : Prog I α → List (Event I) → α → Prop
  | done (a : α) : Run (.done a) [] a
  | call {op : I.Op} {next : I.Ret op → Prog I α} {es : List (Event I)} {a : α}
      (answer : I.Ret op) (tail : Run (next answer) es a) :
      Run (.call op next) (⟨op, answer⟩ :: es) a

@[simp] theorem run_done {a b : α} {es : List (Event I)} :
    Run (.done a) es b ↔ es = [] ∧ b = a := by
  constructor
  · intro h
    cases h
    exact ⟨rfl, rfl⟩
  · rintro ⟨rfl, rfl⟩
    exact .done _

theorem run_call {op : I.Op} {next : I.Ret op → Prog I α} {es : List (Event I)} {a : α} :
    Run (.call op next) es a ↔
      ∃ answer tail, es = ⟨op, answer⟩ :: tail ∧ Run (next answer) tail a := by
  constructor
  · intro h
    cases h with
    | call answer tail => exact ⟨answer, _, rfl, tail⟩
  · rintro ⟨answer, tail, rfl, h⟩
    exact .call answer h

/-- A run of a sequence is a run of the first part and then one of the second. -/
theorem run_bind {p : Prog I α} {f : α → Prog I β} {es : List (Event I)} {b : β} :
    Run (p >>= f) es b ↔
      ∃ fst a snd, es = fst ++ snd ∧ Run p fst a ∧ Run (f a) snd b := by
  induction p generalizing es with
  | done a => simp
  | call op next ih =>
    simp only [call_bind, run_call, ih]
    constructor
    · rintro ⟨answer, tail, rfl, fst, a, snd, rfl, hp, hf⟩
      exact ⟨_, a, snd, (List.cons_append ..).symm, ⟨answer, fst, rfl, hp⟩, hf⟩
    · rintro ⟨fst, a, snd, rfl, ⟨answer, tail, rfl, hp⟩, hf⟩
      exact ⟨answer, tail ++ snd, List.cons_append .., tail, a, snd, rfl, hp, hf⟩

/-- The first calls of a program, with their answers, and what is left to do. A complete run is the
case in which nothing is left. -/
inductive Steps : Prog I α → List (Event I) → Prog I α → Prop
  | refl (p : Prog I α) : Steps p [] p
  | call {op : I.Op} {next : I.Ret op → Prog I α} {es : List (Event I)} {q : Prog I α}
      (answer : I.Ret op) (tail : Steps (next answer) es q) :
      Steps (.call op next) (⟨op, answer⟩ :: es) q

/-- One more call. -/
theorem Steps.snoc {p : Prog I α} {es : List (Event I)} {op : I.Op} {next : I.Ret op → Prog I α}
    (h : Steps p es (.call op next)) (answer : I.Ret op) :
    Steps p (es ++ [⟨op, answer⟩]) (next answer) := by
  generalize hq : Prog.call op next = q at h
  induction h with
  | refl => exact hq ▸ .call answer (.refl _)
  | call answer' _ ih => exact .call answer' (ih hq)

/-- The calls of a program that has nothing left to do are a run of it. -/
theorem Steps.run {p : Prog I α} {es : List (Event I)} {a : α} (h : Steps p es (.done a)) :
    Run p es a := by
  generalize hq : Prog.done a = q at h
  induction h with
  | refl => exact hq ▸ .done a
  | call answer _ ih => exact .call answer (ih hq)

/-- The result of a run is decided by the answers: a program has no choice of its own. -/
theorem Run.unique {p : Prog I α} {es : List (Event I)} {a b : α} (h : Run p es a)
    (h' : Run p es b) : a = b := by
  induction h with
  | done a => exact (run_done.mp h').2.symm
  | call answer _ ih =>
    obtain ⟨answer', _, heq, htail⟩ := run_call.mp h'
    obtain ⟨hevent, rfl⟩ := List.cons.inj heq
    obtain rfl := eq_of_heq (Event.mk.inj hevent).2
    exact ih htail

/-- The run of a program in an environment that always answers the same. -/
def simulate (answer : ∀ op, I.Ret op) : Prog I α → List (Event I) × α
  | done a => ([], a)
  | call op next =>
    let (es, a) := (next (answer op)).simulate answer
    (⟨op, answer op⟩ :: es, a)

/-- Every program runs to its end. -/
theorem run_simulate (answer : ∀ op, I.Ret op) (p : Prog I α) :
    Run p (p.simulate answer).1 (p.simulate answer).2 := by
  induction p with
  | done a => exact .done a
  | call op next ih => exact .call _ (ih _)

theorem eq_of_mem_simulate {answer : ∀ op, I.Ret op} {p : Prog I α} {e : Event I}
    (h : e ∈ (p.simulate answer).1) : e = ⟨e.op, answer e.op⟩ := by
  induction p with
  | done a => cases h
  | call op next ih =>
    rcases List.mem_cons.mp h with rfl | h
    · rfl
    · exact ih _ h

/-- Call the operations of the second interface through the sum. -/
def right : Prog J α → Prog (I.sum J) α
  | done a => done a
  | call op next => call (I := I.sum J) (.inr op) fun answer => (next answer).right

end Prog

namespace Event

def right (e : Event J) : Event (I.sum J) := ⟨.inr e.op, e.answer⟩

/-- The event, if it is one of the second interface. -/
def right? : Event (I.sum J) → Option (Event J)
  | ⟨.inl _, _⟩ => none
  | ⟨.inr op, answer⟩ => some ⟨op, answer⟩

theorem filterMap_right?_map_right (es : List (Event J)) :
    (es.map (right (I := I))).filterMap right? = es := by
  induction es with
  | nil => rfl
  | cons e es ih => exact congrArg (e :: ·) ih

end Event

/-- A run over the second interface, seen through the sum, is the same run. -/
theorem Prog.run_right {p : Prog J α} {es : List (Event (I.sum J))} {a : α} :
    Run p.right es a ↔ ∃ tail, es = tail.map Event.right ∧ Run p tail a := by
  induction p generalizing es with
  | done b => simp [right]
  | call op next ih =>
    rw [right, run_call]
    constructor
    · rintro ⟨answer, _, rfl, h⟩
      obtain ⟨tail, rfl, hnext⟩ := (ih answer).mp h
      exact ⟨⟨op, answer⟩ :: tail, rfl, run_call.mpr ⟨answer, tail, rfl, hnext⟩⟩
    · rintro ⟨_, rfl, h⟩
      obtain ⟨answer, tail, rfl, hnext⟩ := run_call.mp h
      exact ⟨answer, tail.map Event.right, rfl, (ih answer).mpr ⟨tail, rfl, hnext⟩⟩

/-! ### Tasks

Failure is a result like any other, so a failed run is a run, with all the calls that were made
before it failed. -/

/-- A program that may fail. -/
abbrev Task (I : Interface) (ε α : Type) := ExceptT ε (Prog I) α

namespace Task

/-- A complete run of a task: the calls and the outcome. -/
def Runs (t : Task I ε α) (es : List (Event I)) (r : Except ε α) : Prop := Prog.Run t.run es r

/-- Call an operation, and succeed or fail as `f` makes of its answer. -/
def call (op : I.Op) (f : I.Ret op → Except ε α) : Task I ε α :=
  ExceptT.mk (Prog.call op fun answer => .done (f answer))

/-- Call an operation that answers without failing. -/
def perform (op : I.Op) : Task I ε (I.Ret op) := call op .ok

def ofExcept (x : Except ε α) : Task I ε α := ExceptT.mk (pure x)

/-- Run a task and return its outcome as a value, so that what follows is run however the task has
ended. -/
def attempt (t : Task I ε α) : Task I ε (Except ε α) := ExceptT.lift t.run

/-- Run every task to its end and return the outcomes. -/
def attemptAll (tasks : List (Task I ε α)) : Task I ε (List (Except ε α)) := tasks.mapM attempt

/-- Call the operations of the second interface through the sum. -/
def right (t : Task J ε α) : Task (I.sum J) ε α := ExceptT.mk t.run.right

/-! The program behind each construct of the `do` notation. -/

theorem run_bind (t : Task I ε α) (f : α → Task I ε β) :
    ExceptT.run (t >>= f) = t.run >>= fun
      | .ok a => (f a).run
      | .error e => .done (.error e) := by
  rw [ExceptT.run_bind]
  refine congrArg _ (funext fun x => ?_)
  cases x <;> rfl

theorem run_tryCatch (t : Task I ε α) (handle : ε → Task I ε α) :
    ExceptT.run (tryCatch t handle) = t.run >>= fun
      | .ok a => .done (.ok a)
      | .error e => (handle e).run := by
  show t.run >>= _ = _
  refine congrArg _ (funext fun x => ?_)
  cases x <;> rfl

theorem run_tryFinally (t : Task I ε α) (finish : Task I ε Unit) :
    ExceptT.run (tryFinally t finish) = t.run >>= fun x =>
      finish.run >>= fun y => .done (y.bind fun _ => x) := by
  show ExceptT.run (Prod.fst <$> tryFinally' t fun _ => finish) = _
  rw [ExceptT.run_map, map_eq_pure_bind]
  show ((t.run >>= fun x => (ExceptT.run _ >>= fun y => Prog.done (x, y))) >>= _) >>= _ = _
  simp only [Prog.bind_assoc, Prog.done_bind]
  refine congrArg _ (funext fun x => ?_)
  cases x <;> refine congrArg _ (funext fun y => ?_) <;> cases y <;> rfl

/-! ### What the runs of each construct are

One equivalence for each construct. In most proofs they are the only thing that is known of a task:
a text is rewritten with them until nothing but calls and outcomes is left. -/

@[simp] theorem runs_pure {a : α} {es : List (Event I)} {r : Except ε α} :
    Runs (pure a) es r ↔ es = [] ∧ r = .ok a := by
  rw [Runs, ExceptT.run_pure, Prog.pure_eq, Prog.run_done]

@[simp] theorem runs_throw {e : ε} {es : List (Event I)} {r : Except ε α} :
    Runs (throw e) es r ↔ es = [] ∧ r = .error e := by
  rw [Runs, ExceptT.run_throw, Prog.pure_eq, Prog.run_done]

@[simp] theorem runs_ofExcept {x : Except ε α} {es : List (Event I)} {r : Except ε α} :
    Runs (ofExcept x) es r ↔ es = [] ∧ r = x :=
  Prog.run_done

/-- A task that is followed by another fails where the first fails, and otherwise goes on. -/
theorem runs_bind {t : Task I ε α} {f : α → Task I ε β} {es : List (Event I)} {r : Except ε β} :
    Runs (t >>= f) es r ↔
      (∃ e, Runs t es (.error e) ∧ r = .error e) ∨
        ∃ fst a snd, es = fst ++ snd ∧ Runs t fst (.ok a) ∧ Runs (f a) snd r := by
  rw [Runs, run_bind, Prog.run_bind]
  constructor
  · rintro ⟨fst, a | a, snd, rfl, ht, hf⟩
    · obtain ⟨rfl, rfl⟩ := Prog.run_done.mp hf
      exact .inl ⟨a, by rwa [List.append_nil], rfl⟩
    · exact .inr ⟨fst, a, snd, rfl, ht, hf⟩
  · rintro (⟨e, ht, rfl⟩ | ⟨fst, a, snd, rfl, ht, hf⟩)
    · exact ⟨es, .error e, [], (List.append_nil es).symm, ht, .done _⟩
    · exact ⟨fst, .ok a, snd, rfl, ht, hf⟩

/-- A task that is followed by another returns where both return. -/
theorem runs_bind_ok {t : Task I ε α} {f : α → Task I ε β} {es : List (Event I)} {b : β} :
    Runs (t >>= f) es (.ok b) ↔
      ∃ fst a snd, es = fst ++ snd ∧ Runs t fst (.ok a) ∧ Runs (f a) snd (.ok b) := by
  rw [runs_bind]
  simp

/-- Computing a result from the value of a task makes no call. -/
theorem runs_bind_pure {t : Task I ε α} {f : α → β} {es : List (Event I)} {r : Except ε β} :
    Runs (t >>= fun a => pure (f a)) es r ↔ ∃ x, Runs t es x ∧ r = x.map f := by
  simp only [runs_bind, runs_pure]
  constructor
  · rintro (⟨e, ht, rfl⟩ | ⟨fst, a, _, rfl, ht, rfl, rfl⟩)
    · exact ⟨.error e, ht, rfl⟩
    · exact ⟨.ok a, by rwa [List.append_nil], rfl⟩
  · rintro ⟨e | a, ht, rfl⟩
    · exact .inl ⟨e, ht, rfl⟩
    · exact .inr ⟨es, a, [], (List.append_nil es).symm, ht, rfl, rfl⟩

theorem runs_ofExcept_bind {x : Except ε α} {f : α → Task I ε β} {es : List (Event I)}
    {r : Except ε β} :
    Runs (ofExcept x >>= f) es r ↔
      (∃ e, x = .error e ∧ es = [] ∧ r = .error e) ∨ ∃ a, x = .ok a ∧ Runs (f a) es r := by
  simp only [runs_bind, runs_ofExcept]
  constructor
  · rintro (⟨e, ⟨rfl, rfl⟩, rfl⟩ | ⟨_, a, snd, rfl, ⟨rfl, rfl⟩, h⟩)
    · exact .inl ⟨e, rfl, rfl, rfl⟩
    · exact .inr ⟨a, rfl, h⟩
  · rintro (⟨e, rfl, rfl, rfl⟩ | ⟨a, rfl, h⟩)
    · exact .inl ⟨e, ⟨rfl, rfl⟩, rfl⟩
    · exact .inr ⟨[], a, es, rfl, ⟨rfl, rfl⟩, h⟩

theorem runs_lift {p : Prog I α} {es : List (Event I)} {r : Except ε α} :
    Runs (ExceptT.lift p) es r ↔ ∃ a, r = .ok a ∧ Prog.Run p es a := by
  rw [Runs, ExceptT.run_lift, map_eq_pure_bind, Prog.run_bind]
  constructor
  · rintro ⟨fst, a, snd, rfl, hp, hd⟩
    obtain ⟨rfl, rfl⟩ := Prog.run_done.mp hd
    exact ⟨a, rfl, by rwa [List.append_nil]⟩
  · rintro ⟨a, rfl, hp⟩
    exact ⟨es, a, [], (List.append_nil es).symm, hp, .done _⟩

theorem runs_call {op : I.Op} {f : I.Ret op → Except ε α} {es : List (Event I)} {r : Except ε α} :
    Runs (call op f) es r ↔ ∃ answer, es = [⟨op, answer⟩] ∧ r = f answer := by
  refine Prog.run_call.trans (exists_congr fun answer => ?_)
  simp only [Prog.run_done]
  constructor
  · rintro ⟨_, rfl, rfl, h⟩
    exact ⟨rfl, h⟩
  · rintro ⟨rfl, h⟩
    exact ⟨[], rfl, rfl, h⟩

theorem runs_attempt {t : Task I ε α} {es : List (Event I)} {r : Except ε (Except ε α)} :
    Runs (attempt t) es r ↔ ∃ x, r = .ok x ∧ Runs t es x :=
  runs_lift

/-! The first statement of a sequence, where it is a call or an attempt. -/

theorem runs_attempt_bind {t : Task I ε α} {f : Except ε α → Task I ε β} {es : List (Event I)}
    {r : Except ε β} :
    Runs (attempt t >>= f) es r ↔
      ∃ fst x snd, es = fst ++ snd ∧ Runs t fst x ∧ Runs (f x) snd r := by
  simp only [runs_bind, runs_attempt]
  constructor
  · rintro (⟨e, ⟨_, h, -⟩, -⟩ | ⟨fst, x, snd, rfl, ⟨_, hx, ht⟩, hf⟩)
    · exact absurd h (by simp)
    · obtain rfl := Except.ok.inj hx
      exact ⟨fst, x, snd, rfl, ht, hf⟩
  · rintro ⟨fst, x, snd, rfl, ht, hf⟩
    exact .inr ⟨fst, x, snd, rfl, ⟨x, rfl, ht⟩, hf⟩

theorem runs_call_bind {op : I.Op} {f : I.Ret op → Except ε α} {g : α → Task I ε β}
    {es : List (Event I)} {r : Except ε β} :
    Runs (call op f >>= g) es r ↔
      ∃ answer tail, es = ⟨op, answer⟩ :: tail ∧
        ((∃ e, f answer = .error e ∧ tail = [] ∧ r = .error e) ∨
          ∃ a, f answer = .ok a ∧ Runs (g a) tail r) := by
  simp only [runs_bind, runs_call]
  constructor
  · rintro (⟨e, ⟨answer, rfl, he⟩, rfl⟩ | ⟨_, a, snd, rfl, ⟨answer, rfl, ha⟩, hg⟩)
    · exact ⟨answer, [], rfl, .inl ⟨e, he.symm, rfl, rfl⟩⟩
    · exact ⟨answer, snd, rfl, .inr ⟨a, ha.symm, hg⟩⟩
  · rintro ⟨answer, tail, rfl, ⟨e, he, rfl, rfl⟩ | ⟨a, ha, hg⟩⟩
    · exact .inl ⟨e, ⟨answer, rfl, he.symm⟩, rfl⟩
    · exact .inr ⟨[⟨op, answer⟩], a, tail, rfl, ⟨answer, rfl, ha.symm⟩, hg⟩

theorem runs_perform_bind {op : I.Op} {g : I.Ret op → Task I ε β} {es : List (Event I)}
    {r : Except ε β} :
    Runs (perform op >>= g) es r ↔
      ∃ answer tail, es = ⟨op, answer⟩ :: tail ∧ Runs (g answer) tail r := by
  simp [perform, runs_call_bind]

/-- A handler runs where the task fails. -/
theorem runs_tryCatch {t : Task I ε α} {handle : ε → Task I ε α} {es : List (Event I)}
    {r : Except ε α} :
    Runs (tryCatch t handle) es r ↔
      (∃ a, Runs t es (.ok a) ∧ r = .ok a) ∨
        ∃ fst e snd, es = fst ++ snd ∧ Runs t fst (.error e) ∧ Runs (handle e) snd r := by
  rw [Runs, run_tryCatch, Prog.run_bind]
  constructor
  · rintro ⟨fst, a | a, snd, rfl, ht, hf⟩
    · exact .inr ⟨fst, a, snd, rfl, ht, hf⟩
    · obtain ⟨rfl, rfl⟩ := Prog.run_done.mp hf
      exact .inl ⟨a, by rwa [List.append_nil], rfl⟩
  · rintro (⟨a, ht, rfl⟩ | ⟨fst, e, snd, rfl, ht, hf⟩)
    · exact ⟨es, .ok a, [], (List.append_nil es).symm, ht, .done _⟩
    · exact ⟨fst, .error e, snd, rfl, ht, hf⟩

/-- Behind a handler that makes no calls, the calls are those of the task. -/
theorem exists_runs_of_tryCatch {t : Task I ε α} {handle : ε → Task I ε α} {es : List (Event I)}
    {r : Except ε α} (hhandle : ∀ e snd r, Runs (handle e) snd r → snd = [])
    (h : Runs (tryCatch t handle) es r) : ∃ x, Runs t es x := by
  rcases runs_tryCatch.mp h with ⟨a, ht, -⟩ | ⟨fst, e, snd, rfl, ht, hcatch⟩
  · exact ⟨.ok a, ht⟩
  · refine ⟨.error e, ?_⟩
    rwa [hhandle e snd r hcatch, List.append_nil]

/-- The final part runs however the task ends. Its own failure replaces the outcome. -/
theorem runs_tryFinally {t : Task I ε α} {finish : Task I ε Unit} {es : List (Event I)}
    {r : Except ε α} :
    Runs (tryFinally t finish) es r ↔
      ∃ fst x snd y, es = fst ++ snd ∧ Runs t fst x ∧ Runs finish snd y ∧
        r = y.bind fun _ => x := by
  rw [Runs, run_tryFinally, Prog.run_bind]
  constructor
  · rintro ⟨fst, x, snd, rfl, ht, h⟩
    obtain ⟨snd, y, rest, rfl, hf, hd⟩ := Prog.run_bind.mp h
    obtain ⟨rfl, rfl⟩ := Prog.run_done.mp hd
    exact ⟨fst, x, snd, y, by rw [List.append_nil], ht, hf, rfl⟩
  · rintro ⟨fst, x, snd, y, rfl, ht, hf, rfl⟩
    exact ⟨fst, x, snd, rfl, ht, Prog.run_bind.mpr
      ⟨snd, y, [], (List.append_nil snd).symm, hf, .done _⟩⟩

/-- The runs of all tasks, one after the other. -/
theorem runs_attemptAll {tasks : List (Task I ε α)} {es : List (Event I)}
    {r : Except ε (List (Except ε α))} :
    Runs (attemptAll tasks) es r ↔
      ∃ runs : List (List (Event I) × Except ε α),
        List.Forall₂ (fun t run => Runs t run.1 run.2) tasks runs ∧
          es = (runs.map Prod.fst).flatten ∧ r = .ok (runs.map Prod.snd) := by
  induction tasks generalizing es r with
  | nil => simp [attemptAll]
  | cons t tasks ih =>
    rw [attemptAll] at ih
    simp only [attemptAll, List.mapM_cons, runs_bind, runs_attempt, runs_pure, ih]
    constructor
    · rintro (⟨e, ⟨_, h, -⟩, -⟩ | ⟨fst, x, _, rfl, ⟨_, hx, ht⟩, hrest⟩)
      · exact absurd h (by simp)
      rcases hrest with ⟨e, ⟨_, -, -, h⟩, -⟩ | ⟨_, xs, _, rfl, ⟨runs, hruns, rfl, hxs⟩, rfl, rfl⟩
      · exact absurd h (by simp)
      · obtain rfl := Except.ok.inj hx
        obtain rfl := Except.ok.inj hxs
        exact ⟨(fst, x) :: runs, .cons ht hruns, by simp, rfl⟩
    · rintro ⟨_, h, rfl, rfl⟩
      cases h with
      | cons ht hruns =>
        exact .inr ⟨_, _, _, rfl, ⟨_, rfl, ht⟩, .inr ⟨_, _, [], (List.append_nil _).symm,
          ⟨_, hruns, rfl, rfl⟩, rfl, rfl⟩⟩

/-- A task over a part of the interface makes calls of that part only. -/
theorem runs_right {t : Task J ε α} {es : List (Event (I.sum J))} {r : Except ε α} :
    Runs t.right es r ↔ ∃ tail, es = tail.map Event.right ∧ Runs t tail r :=
  Prog.run_right

end Task

end Interaction
