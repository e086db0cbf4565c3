import LookingGlass.Foundations.Interaction
import Mathlib.Logic.Relation

/-!
# Interleaved programs over a shared state

Any number of threads, each running a program, take turns: one call at a time, in any order. A
call changes the shared state the way the environment's `effect` allows, and a thread can start at
any moment.

Threads are not given local states by hand. A thread keeps its past calls, and what matters of
them is read off by a `Protocol`, an automaton that runs over the calls and says which are allowed
in which phase. That a program keeps to a protocol (`Prog.Follows`) is a sequential fact, proved
from its text; `invariant_of_reachable` then reduces a property of every interleaving to what one
allowed call does to the shared state and to one phase.

## Why calls and not states

What a program promises is said about its calls: what it asked for, what it was answered, and in
which order. A phase is a summary of these that is convenient for a proof, and it is easy to write
one that says more than the calls do. So threads carry the calls themselves, `records_of_reachable`
leads from a phase back to them, and the statements that matter are about the calls.

Every call is one step, and there is no step that is not a call: what a thread computes between two
calls is invisible to the others. Whatever two threads can interfere in must therefore be a call,
down to the reading of a single field.

## Main results

* `Task.follows_bind`, `Task.follows_tryFinally`, … — the sequential rules
* `Task.post_of_runs` — the same rules for the runs of one task
* `follows_of_reachable`, `accepts_of_reachable` — in every reachable state each thread has kept to
  the protocol and goes on to keep to it
* `records_of_reachable` — what the phase of a thread says about its past calls
* `invariant_of_reachable` — the rule for invariants
-/

namespace Interaction

variable {I J : Interface} {α β ε : Type} {G : Type}

/-- An automaton over the calls of one thread. The next phase is defined for every call, allowed or
not; only the allowed ones count. -/
structure Protocol (I : Interface) (G : Type) where
  allowed : G → I.Op → Prop
  next : G → Event I → G

/-- Each of the calls is allowed in the phase the ones before it lead to. -/
def Protocol.Accepts (P : Protocol I G) : G → List (Event I) → Prop
  | _, [] => True
  | g, e :: es => P.allowed g e.op ∧ P.Accepts (P.next g e) es

theorem Protocol.accepts_append {P : Protocol I G} {g : G} {fst snd : List (Event I)} :
    P.Accepts g (fst ++ snd) ↔ P.Accepts g fst ∧ P.Accepts (fst.foldl P.next g) snd := by
  induction fst generalizing g with
  | nil => exact (true_and _).symm ▸ Iff.rfl
  | cons e fst ih => exact (and_congr_right fun _ => ih).trans and_assoc.symm

/-- What a phase says about the calls that lead to it: it is enough that every allowed call keeps
it. -/
theorem Protocol.records_of_accepts {P : Protocol I G} {R : G → List (Event I) → Prop}
    (hcall : ∀ g past e, P.allowed g e.op → R g past → R (P.next g e) (past ++ [e])) {g : G}
    {past es : List (Event I)} (h : P.Accepts g es) (hpast : R g past) :
    R (es.foldl P.next g) (past ++ es) := by
  induction es generalizing g past with
  | nil => rwa [List.append_nil]
  | cons e es ih =>
    have hnext := ih h.2 (hcall g past e h.1 hpast)
    rwa [List.append_assoc] at hnext

/-- From phase `g` on, every call of the program is allowed, and `post` holds of the phase and the
result at the end. -/
def Prog.Follows (P : Protocol I G) (post : G → α → Prop) : Prog I α → G → Prop
  | .done a, g => post g a
  | .call op next, g =>
    P.allowed g op ∧ ∀ answer, (next answer).Follows P post (P.next g ⟨op, answer⟩)

namespace Prog

variable {P : Protocol I G}

@[simp] theorem follows_done {post : G → α → Prop} {a : α} {g : G} :
    (done a).Follows P post g ↔ post g a := Iff.rfl

theorem follows_bind {p : Prog I α} {f : α → Prog I β} {post : G → β → Prop} {g : G} :
    (p >>= f).Follows P post g ↔ p.Follows P (fun g a => (f a).Follows P post g) g := by
  induction p generalizing g with
  | done a => rfl
  | call op next ih => exact and_congr_right fun _ => forall_congr' fun answer => ih answer

theorem Follows.mono {p : Prog I α} {post post' : G → α → Prop} {g : G}
    (h : p.Follows P post g) (hpost : ∀ g a, post g a → post' g a) : p.Follows P post' g := by
  induction p generalizing g with
  | done a => exact hpost g a h
  | call op next ih => exact ⟨h.1, fun answer => ih answer (h.2 answer)⟩

/-- A program whose calls are all allowed and never change the phase ends in the phase it started
in, with a result that it has on its own as well. -/
theorem follows_right_of {P : Protocol (I.sum J) G} {g : G}
    (h : ∀ op, P.allowed g (.inr op) ∧ ∀ answer, P.next g ⟨.inr op, answer⟩ = g)
    {result : α → Prop} {post : G → α → Prop} {p : Prog J α}
    (hp : p.Follows ⟨fun _ _ => True, fun (_ : Unit) _ => ()⟩ (fun _ => result) ())
    (hpost : ∀ a, result a → post g a) : p.right.Follows P post g := by
  induction p with
  | done a => exact hpost a hp
  | call op next ih =>
    refine ⟨(h op).1, fun answer => ?_⟩
    rw [(h op).2]
    exact ih answer (hp.2 answer)

theorem follows_right {P : Protocol (I.sum J) G} {g : G}
    (h : ∀ op, P.allowed g (.inr op) ∧ ∀ answer, P.next g ⟨.inr op, answer⟩ = g)
    {post : G → α → Prop} (p : Prog J α) (hpost : ∀ a, post g a) : p.right.Follows P post g := by
  induction p with
  | done a => exact hpost a
  | call op next ih =>
    refine ⟨(h op).1, fun answer => ?_⟩
    rw [(h op).2]
    exact ih answer

/-- A program that keeps to a protocol does so in every run: its calls are allowed, and `post` holds
in the phase they lead to. -/
theorem Follows.run {p : Prog I α} {post : G → α → Prop} {g : G} (h : p.Follows P post g)
    {es : List (Event I)} {a : α} (hrun : Run p es a) :
    post (es.foldl P.next g) a ∧ P.Accepts g es := by
  induction hrun generalizing g with
  | done a => exact ⟨h, trivial⟩
  | call answer tail ih =>
    obtain ⟨hpost, haccepts⟩ := ih (h.2 answer)
    exact ⟨hpost, h.1, haccepts⟩

end Prog

/-! ### Tasks

A task is a program with an outcome, and its rules follow the shape of its text: one after the
other, a handler, a final part. Each is stated as an equivalence, so that `simp` can take a whole
text apart. -/

namespace Task

variable {P : Protocol I G} {g : G}

/-- As for programs; `post` sees the outcome, a value or a failure. -/
def Follows (P : Protocol I G) (post : G → Except ε α → Prop) (t : Task I ε α) (g : G) : Prop :=
  Prog.Follows P post t.run g

/-- What has to hold after a task so that `f` can go on from its value. -/
def andThen (P : Protocol I G) (f : α → Task I ε β) (post : G → Except ε β → Prop) (g : G) :
    Except ε α → Prop
  | .ok a => Follows P post (f a) g
  | .error e => post g (.error e)

/-- What has to hold after a task so that `handle` can go on from its failure. -/
def orElse (P : Protocol I G) (handle : ε → Task I ε α) (post : G → Except ε α → Prop) (g : G) :
    Except ε α → Prop
  | .ok a => post g (.ok a)
  | .error e => Follows P post (handle e) g

@[simp] theorem andThen_ok {f : α → Task I ε β} {post : G → Except ε β → Prop} {a : α} :
    andThen P f post g (.ok a) ↔ Follows P post (f a) g := Iff.rfl

@[simp] theorem andThen_error {f : α → Task I ε β} {post : G → Except ε β → Prop} {e : ε} :
    andThen P f post g (.error e) ↔ post g (.error e) := Iff.rfl

@[simp] theorem orElse_ok {handle : ε → Task I ε α} {post : G → Except ε α → Prop} {a : α} :
    orElse P handle post g (.ok a) ↔ post g (.ok a) := Iff.rfl

@[simp] theorem orElse_error {handle : ε → Task I ε α} {post : G → Except ε α → Prop} {e : ε} :
    orElse P handle post g (.error e) ↔ Follows P post (handle e) g := Iff.rfl

@[simp] theorem follows_pure {post : G → Except ε α → Prop} {a : α} :
    Follows P post (pure a) g ↔ post g (.ok a) := Iff.rfl

@[simp] theorem follows_throw {post : G → Except ε α → Prop} {e : ε} :
    Follows P post (throw e) g ↔ post g (.error e) := Iff.rfl

@[simp] theorem follows_ite {post : G → Except ε α → Prop} {c : Prop} [Decidable c]
    {t e : Task I ε α} :
    Follows P post (if c then t else e) g ↔
      (c → Follows P post t g) ∧ (¬c → Follows P post e g) := by
  split <;> simp [*]

@[simp] theorem follows_ofExcept {post : G → Except ε α → Prop} {x : Except ε α} :
    Follows P post (ofExcept x) g ↔ post g x := Iff.rfl

@[simp] theorem follows_bind {t : Task I ε α} {f : α → Task I ε β} {post : G → Except ε β → Prop} :
    Follows P post (t >>= f) g ↔ Follows P (andThen P f post) t g := by
  rw [Follows, run_bind, Prog.follows_bind]
  have hpost : (fun g x => Prog.Follows P post (match x with
      | .ok a => (f a).run
      | .error e => .done (.error e)) g) = andThen P f post := by
    funext g x
    cases x <;> rfl
  rw [← hpost]
  rfl

/-- A value that is there already is gone on from in the same phase. -/
theorem follows_ofExcept_bind {x : Except ε α} {f : α → Task I ε β} {post : G → Except ε β → Prop}
    (hok : ∀ a, x = .ok a → Follows P post (f a) g)
    (herror : ∀ e, x = .error e → post g (.error e)) : Follows P post (ofExcept x >>= f) g := by
  rw [follows_bind, follows_ofExcept]
  cases x with
  | ok a => exact hok a rfl
  | error e => exact herror e rfl

@[simp] theorem follows_call {op : I.Op} {f : I.Ret op → Except ε α}
    {post : G → Except ε α → Prop} :
    Follows P post (call op f) g ↔
      P.allowed g op ∧ ∀ answer, post (P.next g ⟨op, answer⟩) (f answer) := Iff.rfl

@[simp] theorem follows_perform {op : I.Op} {post : G → Except ε (I.Ret op) → Prop} :
    Follows P post (perform op) g ↔
      P.allowed g op ∧ ∀ answer, post (P.next g ⟨op, answer⟩) (.ok answer) := Iff.rfl

@[simp] theorem follows_tryCatch {t : Task I ε α} {handle : ε → Task I ε α}
    {post : G → Except ε α → Prop} :
    Follows P post (tryCatch t handle) g ↔ Follows P (orElse P handle post) t g := by
  rw [Follows, run_tryCatch, Prog.follows_bind]
  have hpost : (fun g x => Prog.Follows P post (match x with
      | .ok a => .done (.ok a)
      | .error e => (handle e).run) g) = orElse P handle post := by
    funext g x
    cases x <;> rfl
  rw [← hpost]
  rfl

/-- An attempt goes on with the outcome as a value. -/
@[simp] theorem follows_attempt {t : Task I ε α} {post : G → Except ε (Except ε α) → Prop} :
    Follows P post (attempt t) g ↔ Follows P (fun g x => post g (.ok x)) t g := by
  rw [Follows, attempt, ExceptT.run_lift, map_eq_pure_bind, Prog.follows_bind]
  rfl

/-- The final part starts in whatever phase the main part ends in. -/
@[simp] theorem follows_tryFinally {t : Task I ε α} {finish : Task I ε Unit}
    {post : G → Except ε α → Prop} :
    Follows P post (tryFinally t finish) g ↔
      Follows P (fun g x => Follows P (fun g y => post g (y.bind fun _ => x)) finish g) t g := by
  rw [Follows, run_tryFinally, Prog.follows_bind]
  simp only [Prog.follows_bind, Prog.follows_done]
  rfl

theorem Follows.mono {t : Task I ε α} {post post' : G → Except ε α → Prop}
    (h : Follows P post t g) (hpost : ∀ g x, post g x → post' g x) : Follows P post' t g :=
  Prog.Follows.mono h hpost

/-- The phase is the calls made so far, and each is allowed. -/
def history (I : Interface) : Protocol I (List (Event I)) :=
  ⟨fun _ _ => True, fun past e => past ++ [e]⟩

theorem foldl_history (past es : List (Event I)) :
    es.foldl (history I).next past = past ++ es := by
  induction es generalizing past with
  | nil => exact (List.append_nil past).symm
  | cons e es ih => exact (ih _).trans (List.append_assoc ..)

/-- What holds of a task by its rules holds of the calls and the outcome of every run. -/
theorem post_of_runs {t : Task I ε α} {post : List (Event I) → Except ε α → Prop}
    (h : Follows (history I) post t []) {es : List (Event I)} {r : Except ε α}
    (hrun : Runs t es r) : post es r := by
  have hpost := (Prog.Follows.run h hrun).1
  rwa [foldl_history] at hpost

/-- The task makes calls of the first interface only. -/
def OnlyLeft (t : Task (I.sum J) ε α) : Prop :=
  Follows (I := I.sum J) (G := Unit) ⟨fun _ op => op.isLeft, fun g _ => g⟩ (fun _ _ => True) t ()

theorem OnlyLeft.filterMap_right? {t : Task (I.sum J) ε α} (h : OnlyLeft t)
    {es : List (Event (I.sum J))} {r : Except ε α} (hrun : Runs t es r) :
    es.filterMap Event.right? = [] := by
  obtain ⟨-, haccepts⟩ := Prog.Follows.run h hrun
  rw [List.filterMap_eq_nil_iff]
  intro e he
  obtain ⟨before, after, rfl⟩ := List.append_of_mem he
  have hleft := (Protocol.accepts_append.mp haccepts).2.1
  match e, hleft with
  | ⟨.inl _, _⟩, _ => rfl

end Task

/-! ### Interleavings

Threads are a list, and a step splits it around the thread that moves. Those that have come to an
end stay, with their past, so that one can speak about them. -/

/-- One thread apart from the others. -/
theorem countP_middle {γ : Type*} (p : γ → Bool) (before after : List γ) (x : γ) :
    (before ++ x :: after).countP p = before.countP p + after.countP p + (p x).toNat := by
  rw [List.countP_append, List.countP_cons]
  cases p x <;> simp [Nat.add_assoc]

/-- What is counted in the calls of all threads, if it is known of those of each. -/
theorem countP_flatMap_le {γ δ : Type*} {f : γ → List δ} {p q : δ → Bool} {r : γ → Bool}
    {xs : List γ} (h : ∀ x ∈ xs, (f x).countP p ≤ (f x).countP q + (r x).toNat) :
    (xs.flatMap f).countP p ≤ (xs.flatMap f).countP q + xs.countP r := by
  induction xs with
  | nil => simp
  | cons x xs ih =>
    have hhead := h x (List.mem_cons_self ..)
    have htail := ih fun y hy => h y (List.mem_cons_of_mem _ hy)
    rw [List.flatMap_cons, List.countP_append, List.countP_append, List.countP_cons]
    cases hx : r x <;> rw [hx] at hhead <;> simp at hhead ⊢ <;> omega

theorem exists_mem_middle {γ : Type*} {p : γ → Prop} {before after : List γ} {x : γ} :
    (∃ y ∈ before ++ x :: after, p y) ↔ p x ∨ ∃ y ∈ before ++ after, p y := by
  simp only [List.mem_append, List.mem_cons, or_and_right, exists_or, exists_eq_left]
  exact or_left_comm

/-- A thread: the request it was started for, its calls so far, and what it has yet to do. What a
thread has done is never forgotten, so everything about it can be said in terms of its past. -/
structure Thread (I : Interface) (ι : Type*) where
  request : ι
  past : List (Event I)
  rest : Prog I Unit

/-- The shared state, and the threads in the order of their start. Threads are never removed; one
that is done has nothing left to do. -/
structure Config (I : Interface) (ι σ : Type*) where
  shared : σ
  threads : List (Thread I ι)

/-- What the requests run, and what a call does to the shared state. The effect is a relation: it
says which answers are possible and not which one is given. -/
structure System (I : Interface) (ι σ : Type*) where
  start : σ
  program : ι → Prog I Unit
  effect : σ → Event I → σ → Prop

/-- The phase a thread is in. -/
def Thread.phase {ι : Type*} (P : Protocol I G) (init : ι → G) (t : Thread I ι) : G :=
  t.past.foldl P.next (init t.request)

namespace System

variable {ι σ : Type*} (S : System I ι σ)

/-- A thread is started, or some thread makes its next call. The two are all that can happen, and
which of them does is left open, as is the answer among those that are possible. -/
inductive Step : Config I ι σ → Config I ι σ → Prop
  | spawn (c : Config I ι σ) (request : ι) :
      Step c ⟨c.shared, c.threads ++ [⟨request, [], S.program request⟩]⟩
  | call {s s' : σ} {before after : List (Thread I ι)} {request : ι} {past : List (Event I)}
      {op : I.Op} {next : I.Ret op → Prog I Unit} (answer : I.Ret op)
      (h : S.effect s ⟨op, answer⟩ s') :
      Step ⟨s, before ++ ⟨request, past, .call op next⟩ :: after⟩
        ⟨s', before ++ ⟨request, past ++ [⟨op, answer⟩], next answer⟩ :: after⟩

/-- Reached by some interleaving, from no threads at all. Threads may be started at any moment, for
any request, and any number of them. -/
def Reachable (c : Config I ι σ) : Prop := Relation.ReflTransGen S.Step ⟨S.start, []⟩ c

/-- The effects of calls that are made one right after the other. -/
inductive Effects : σ → List (Event I) → σ → Prop
  | nil (s : σ) : Effects s [] s
  | cons {s s' s'' : σ} {e : Event I} {es : List (Event I)} (h : S.effect s e s')
      (tail : Effects s' es s'') : Effects s (e :: es) s''

variable {S} {P : Protocol I G} {init : ι → G} {post : G → Unit → Prop}

/-- A thread may run for a while without being interrupted. -/
theorem Reachable.steps {s s' : σ} {before after : List (Thread I ι)} {request : ι}
    {past es : List (Event I)} {p q : Prog I Unit}
    (h : S.Reachable ⟨s, before ++ ⟨request, past, p⟩ :: after⟩) (hsteps : p.Steps es q)
    (heffects : S.Effects s es s') :
    S.Reachable ⟨s', before ++ ⟨request, past ++ es, q⟩ :: after⟩ := by
  induction hsteps generalizing s past with
  | refl p =>
    cases heffects
    rwa [List.append_nil]
  | call answer tail ih =>
    cases heffects with
    | cons heffect heffects =>
      have hnext := ih (h.tail (.call answer heffect)) heffects
      rwa [List.append_assoc] at hnext

/-- What a thread has called are steps of what its request runs. -/
theorem steps_of_reachable {c : Config I ι σ} (h : S.Reachable c) :
    ∀ t ∈ c.threads, (S.program t.request).Steps t.past t.rest := by
  induction h with
  | refl => simp
  | tail _ hstep ih =>
    cases hstep with
    | spawn c request =>
      intro t ht
      rcases List.mem_append.mp ht with ht | ht
      · exact ih t ht
      · obtain rfl := List.mem_singleton.mp ht
        exact .refl _
    | call answer heffect =>
      intro t ht
      simp only [List.mem_append, List.mem_cons] at ih ht
      rcases ht with ht | rfl | ht
      · exact ih t (.inl ht)
      · exact (ih _ (.inr (.inl rfl))).snoc answer
      · exact ih t (.inr (.inr ht))

/-- What holds of every call that can be made in a reachable state holds of all calls that were
made. -/
theorem forall_past_of_reachable {p : Event I → Prop}
    (hcall : ∀ s s' before t after op next answer, t.rest = .call op next →
      S.Reachable ⟨s, before ++ t :: after⟩ → S.effect s ⟨op, answer⟩ s' → p ⟨op, answer⟩)
    {c : Config I ι σ} (h : S.Reachable c) : ∀ t ∈ c.threads, ∀ e ∈ t.past, p e := by
  induction h with
  | refl => simp
  | tail hreach hstep ih =>
    cases hstep with
    | spawn c request =>
      intro t ht
      rcases List.mem_append.mp ht with ht | ht
      · exact ih t ht
      · obtain rfl := List.mem_singleton.mp ht
        simp
    | call answer heffect =>
      intro t ht e he
      simp only [List.mem_append, List.mem_cons] at ih ht
      rcases ht with ht | rfl | ht
      · exact ih t (.inl ht) e he
      · rcases List.mem_append.mp he with he | he
        · exact ih _ (.inr (.inl rfl)) e he
        · obtain rfl := List.mem_singleton.mp he
          exact hcall _ _ _ _ _ _ _ answer rfl hreach heffect
      · exact ih t (.inr (.inr ht)) e he

/-- **Every thread keeps to the protocol**, in every reachable state. -/
theorem follows_of_reachable (hprogram : ∀ i, (S.program i).Follows P post (init i))
    {c : Config I ι σ} (h : S.Reachable c) :
    ∀ t ∈ c.threads, t.rest.Follows P post (t.phase P init) := by
  induction h with
  | refl => simp
  | tail _ hstep ih =>
    cases hstep with
    | spawn c request =>
      intro t ht
      rcases List.mem_append.mp ht with ht | ht
      · exact ih t ht
      · obtain rfl := List.mem_singleton.mp ht
        exact hprogram request
    | call answer heffect =>
      intro t ht
      simp only [List.mem_append, List.mem_cons] at ih ht
      rcases ht with ht | rfl | ht
      · exact ih t (.inl ht)
      · have hself := (ih _ (.inr (.inl rfl))).2 answer
        simpa only [Thread.phase, List.foldl_append, List.foldl_cons, List.foldl_nil] using hself
      · exact ih t (.inr (.inr ht))

/-- The past calls of every thread were allowed when they were made. -/
theorem accepts_of_reachable (hprogram : ∀ i, (S.program i).Follows P post (init i))
    {c : Config I ι σ} (h : S.Reachable c) :
    ∀ t ∈ c.threads, P.Accepts (init t.request) t.past := by
  induction h with
  | refl => simp
  | tail hreach hstep ih =>
    have hfollows := follows_of_reachable hprogram hreach
    cases hstep with
    | spawn c request =>
      intro t ht
      rcases List.mem_append.mp ht with ht | ht
      · exact ih t ht
      · obtain rfl := List.mem_singleton.mp ht
        trivial
    | call answer heffect =>
      intro t ht
      simp only [List.mem_append, List.mem_cons] at ih hfollows ht
      rcases ht with ht | rfl | ht
      · exact ih t (.inl ht)
      · exact Protocol.accepts_append.mpr ⟨ih _ (.inr (.inl rfl)),
          (hfollows _ (.inr (.inl rfl))).1, trivial⟩
      · exact ih t (.inr (.inr ht))

/-- What the phase of a thread says about its past calls, in every reachable state. -/
theorem records_of_reachable (hprogram : ∀ i, (S.program i).Follows P post (init i))
    {R : G → List (Event I) → Prop} (hstart : ∀ i, R (init i) [])
    (hcall : ∀ g past e, P.allowed g e.op → R g past → R (P.next g e) (past ++ [e]))
    {c : Config I ι σ} (h : S.Reachable c) : ∀ t ∈ c.threads, R (t.phase P init) t.past :=
  fun t ht => Protocol.records_of_accepts hcall (accepts_of_reachable hprogram h t ht)
    (hstart t.request)

/-- **The rule for invariants.** A relation between the shared state and the phases of the threads
holds in every reachable state if it holds without threads, if a new thread keeps it, and if every
call that the protocol allows keeps it. -/
theorem invariant_of_reachable (hprogram : ∀ i, (S.program i).Follows P post (init i))
    {Inv : σ → List G → Prop} (hstart : Inv S.start [])
    (hspawn : ∀ s gs i, Inv s gs → Inv s (gs ++ [init i]))
    (hcall : ∀ s s' before g after op answer, P.allowed g op → S.effect s ⟨op, answer⟩ s' →
      Inv s (before ++ g :: after) → Inv s' (before ++ P.next g ⟨op, answer⟩ :: after))
    {c : Config I ι σ} (h : S.Reachable c) :
    Inv c.shared (c.threads.map (Thread.phase P init)) := by
  induction h with
  | refl => exact hstart
  | tail hreach hstep ih =>
    have hfollows := follows_of_reachable hprogram hreach
    cases hstep with
    | spawn c request =>
      rw [List.map_append]
      exact hspawn _ _ request ih
    | call answer heffect =>
      rw [List.map_append, List.map_cons] at ih ⊢
      have hallowed := (hfollows _ (List.mem_append_right _ (List.mem_cons_self ..))).1
      have hnext := hcall _ _ _ _ _ _ answer hallowed heffect ih
      simpa only [Thread.phase, List.foldl_append, List.foldl_cons, List.foldl_nil] using hnext

end System

end Interaction
