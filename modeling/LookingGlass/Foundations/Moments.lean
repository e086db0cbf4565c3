import LookingGlass.Foundations.Interleaving

/-!
# The moments of a run

A reachable state says what every thread has called, but not what the others were doing when it did.
A trace remembers it: for each call that was made, in their order, the whole state right before it.
What is claimed about the moment of a call is claimed about a member of the trace, and whatever
holds in every reachable state holds at every moment.

Threads are appended and never leave, so the position of a thread names it all through a run.

## Two ways to speak of the order of calls

Within one thread the order is in its past, and `exists_earlier` is about that. Between threads it
is not: two pasts do not say which of their calls came first. The trace does, and since the trace is
a list of possible moments, an invariant of reachable states can be used for each of its members.

The state after a moment is that of the next one, or that which the trace leads to. It is not part
of the moment, because what is claimed about a call is mostly about what the caller could know.

## Main results

* `System.exists_earlier` — a call that is only made after another
* `System.Trace.reachable` — traces lead to reachable states
* `System.Trace.exists_moment` — every call of every thread was made at a moment
-/

namespace Interaction

variable {I : Interface} {ι σ : Type*}

/-- A call, and the state in which it is made: the caller with its past, and the threads around it.
A property of a run that mentions a former state is one of its moments, as states by themselves have
no past. -/
structure Moment (I : Interface) (ι σ : Type*) where
  shared : σ
  before : List (Thread I ι)
  caller : Thread I ι
  after : List (Thread I ι)
  event : Event I

namespace Moment

variable (m : Moment I ι σ)

def config : Config I ι σ := ⟨m.shared, m.before ++ m.caller :: m.after⟩

def others : List (Thread I ι) := m.before ++ m.after

/-- The position of the caller. -/
def position : ℕ := m.before.length

theorem caller_mem : m.caller ∈ m.config.threads := List.mem_append_right _ (List.mem_cons_self ..)

end Moment

/-! ### Calls that come after others

The protocol has two phases, before the event and after it. -/

/-- Calls of one kind are made only after an event of another. -/
def Protocol.onlyAfter (p : Event I → Bool) (q : I.Op → Prop) : Protocol I Bool where
  allowed seen op := q op → seen = true
  next seen e := seen || p e

theorem Protocol.foldl_onlyAfter (p : Event I → Bool) (q : I.Op → Prop) (seen : Bool)
    (es : List (Event I)) : es.foldl (onlyAfter p q).next seen = (seen || es.any p) := by
  induction es generalizing seen with
  | nil => exact (Bool.or_false _).symm
  | cons e es ih => exact (ih _).trans (Bool.or_assoc ..)

namespace System

variable (S : System I ι σ)

/-! ### Traces

A trace is built along with the run, and every member of it is a call that was possible when it was
made. -/

/-- The moments of a run, and the state it leads to. Starting a thread is no moment, for nobody is
asked anything. Whatever is reachable has a trace, and so a claim about all moments of all runs is
one about traces. -/
inductive Trace : List (Moment I ι σ) → Config I ι σ → Prop
  | start : Trace [] ⟨S.start, []⟩
  | spawn {ms : List (Moment I ι σ)} {c : Config I ι σ} (h : Trace ms c) (request : ι) :
      Trace ms ⟨c.shared, c.threads ++ [⟨request, [], S.program request⟩]⟩
  | call {ms : List (Moment I ι σ)} {s s' : σ} {before after : List (Thread I ι)} {request : ι}
      {past : List (Event I)} {op : I.Op} {next : I.Ret op → Prog I Unit}
      (h : Trace ms ⟨s, before ++ ⟨request, past, .call op next⟩ :: after⟩) (answer : I.Ret op)
      (heffect : S.effect s ⟨op, answer⟩ s') :
      Trace (ms ++ [⟨s, before, ⟨request, past, .call op next⟩, after, ⟨op, answer⟩⟩])
        ⟨s', before ++ ⟨request, past ++ [⟨op, answer⟩], next answer⟩ :: after⟩

variable {S} {ms : List (Moment I ι σ)} {c : Config I ι σ}

theorem Trace.reachable (h : S.Trace ms c) : S.Reachable c := by
  induction h with
  | start => exact .refl
  | spawn _ request ih => exact ih.tail (.spawn _ request)
  | call _ answer heffect ih => exact ih.tail (.call answer heffect)

theorem exists_earlier {p : Event I → Bool} {q : I.Op → Prop} {post : Bool → Unit → Prop}
    (hprogram : ∀ i, (S.program i).Follows (.onlyAfter p q) post false) (h : S.Reachable c)
    {t : Thread I ι} (ht : t ∈ c.threads) {e : Event I} (he : e ∈ t.past) (hq : q e.op) :
    ∃ e' ∈ t.past, p e' = true := by
  have haccepts := accepts_of_reachable hprogram h t ht
  obtain ⟨before, after, hpast⟩ := List.append_of_mem he
  rw [hpast] at haccepts
  have hseen := (Protocol.accepts_append.mp haccepts).2.1 hq
  rw [Protocol.foldl_onlyAfter, Bool.false_or, List.any_eq_true] at hseen
  obtain ⟨e', he', hp⟩ := hseen
  exact ⟨e', hpast ▸ List.mem_append_left _ he', hp⟩

/-- A call that can be made in a reachable state: the caller is about to make it, and the shared
state has that answer for it. Each moment of a trace is one, so what holds of these holds at each
moment. -/
structure Possible (S : System I ι σ) (m : Moment I ι σ) : Prop where
  reachable : S.Reachable m.config
  rest : ∃ next, m.caller.rest = .call m.event.op next
  effect : ∃ s', S.effect m.shared m.event s'

/-- What holds of every possible moment holds of the moments of a trace, so invariants can be used
at each of them. -/
theorem Trace.possible (h : S.Trace ms c) : ∀ m ∈ ms, S.Possible m := by
  induction h with
  | start => exact fun m hm => absurd hm List.not_mem_nil
  | spawn _ _ ih => exact ih
  | call htrace answer heffect ih =>
    intro m hm
    rcases List.mem_append.mp hm with hm | hm
    · exact ih m hm
    · obtain rfl := List.mem_singleton.mp hm
      exact ⟨htrace.reachable, ⟨_, rfl⟩, ⟨_, heffect⟩⟩

/-- Replacing one element leaves the others at their positions. -/
theorem getElem?_middle {γ : Type*} {before after : List γ} {x y z : γ} {i : ℕ}
    (h : (before ++ x :: after)[i]? = some z) :
    (i = before.length ∧ z = x) ∨ (before ++ y :: after)[i]? = some z := by
  rcases Nat.lt_trichotomy i before.length with hlt | rfl | hgt
  · rw [List.getElem?_append_left hlt] at h ⊢
    exact .inr h
  · rw [List.getElem?_append_right (Nat.le_refl _), Nat.sub_self, List.getElem?_cons_zero] at h
    exact .inl ⟨rfl, (Option.some.inj h).symm⟩
  · rw [List.getElem?_append_right (Nat.le_of_lt hgt)] at h ⊢
    obtain ⟨k, hk⟩ := Nat.exists_eq_succ_of_ne_zero (Nat.sub_ne_zero_of_lt hgt)
    rw [hk, List.getElem?_cons_succ] at h ⊢
    exact .inr h

/-- **Every call of every thread was made at a moment**, when the thread was where it is now. -/
theorem Trace.exists_moment (h : S.Trace ms c) {i : ℕ} {t : Thread I ι}
    (ht : c.threads[i]? = some t) {e : Event I} (he : e ∈ t.past) :
    ∃ m ∈ ms, m.position = i ∧ m.caller.request = t.request ∧ m.event = e := by
  induction h generalizing t with
  | start => exact absurd ht (by simp)
  | @spawn ms c _ request ih =>
    by_cases hold : i < c.threads.length
    · rw [List.getElem?_append_left hold] at ht
      exact ih ht he
    · have hmem := List.mem_of_getElem? ht
      rw [List.getElem?_append_right (Nat.not_lt.mp hold)] at ht
      obtain rfl := List.mem_singleton.mp (List.mem_of_getElem? ht)
      exact absurd he List.not_mem_nil
  | @call ms s s' before after request past op next htrace answer heffect ih =>
    rcases getElem?_middle (y := ⟨request, past, .call op next⟩) ht with ⟨rfl, rfl⟩ | hi
    · rcases List.mem_append.mp he with he | he
      · have hi :
          (before ++ (⟨request, past, .call op next⟩ : Thread I ι) :: after)[before.length]? =
            some ⟨request, past, .call op next⟩ := by
          rw [List.getElem?_append_right (Nat.le_refl _), Nat.sub_self, List.getElem?_cons_zero]
        obtain ⟨m, hm, hmoment⟩ := ih hi he
        exact ⟨m, List.mem_append_left _ hm, hmoment⟩
      · obtain rfl := List.mem_singleton.mp he
        exact ⟨_, List.mem_append_right _ (List.mem_singleton_self _), rfl, rfl, rfl⟩
    · obtain ⟨m, hm, hmoment⟩ := ih hi he
      exact ⟨m, List.mem_append_left _ hm, hmoment⟩

/-- The moments of a thread that runs for a while without being interrupted. -/
theorem Trace.steps {s s' : σ} {before after : List (Thread I ι)} {request : ι}
    {past es : List (Event I)} {p q : Prog I Unit}
    (h : S.Trace ms ⟨s, before ++ ⟨request, past, p⟩ :: after⟩) (hsteps : p.Steps es q)
    (heffects : S.Effects s es s') :
    ∃ ms', S.Trace (ms ++ ms') ⟨s', before ++ ⟨request, past ++ es, q⟩ :: after⟩ ∧
      ∀ m ∈ ms', m.before = before ∧ m.after = after := by
  induction hsteps generalizing s past ms with
  | refl p =>
    cases heffects
    refine ⟨[], ?_, fun m hm => absurd hm List.not_mem_nil⟩
    rwa [List.append_nil, List.append_nil]
  | call answer tail ih =>
    cases heffects with
    | cons heffect heffects =>
      obtain ⟨ms', htrace, hms'⟩ := ih (h.call answer heffect) heffects
      rw [List.append_assoc, List.append_assoc] at htrace
      refine ⟨_, htrace, fun m hm => ?_⟩
      rcases List.mem_cons.mp hm with rfl | hm
      · exact ⟨rfl, rfl⟩
      · exact hms' m hm

end System

end Interaction
