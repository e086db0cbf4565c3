import LookingGlass.Foundations.Interleaving
import Mathlib.Logic.Hydra
import Mathlib.Tactic.Abel

/-!
# Interleavings that come to an end

A program is a finite tree, so threads that take turns without new ones being started come to an
end: every call leaves one of them with a part of its program, and the others where they were. What
may be missing is a thread that can go on. A system in which there always is one can be run down
from every state it reaches, and if the calls that are needed for this are all of some kind, it can
be run down by calls of that kind alone.

Which kind is the point. That a waiting thread can give up is rarely worth saying; that everybody
gets through without anybody giving up is.

## Fairness is not assumed

Nothing is said about a scheduler. From every reachable state there is some order of calls in which
everybody gets to an end, and no order in which calls are made forever. Together they say more than
either one: whoever schedules the threads cannot avoid the end, except by not making a call that can
be made.

## How waiting is taken apart

In most systems all calls but one kind can be made at any time, and those of this kind wait for
something that another thread has. `exists_continues_of_waits` is the argument that is always made:
either somebody has another call to make, or everybody waits, and then what they wait for must be
free. The second half is a fact about the shared state, and comes from an invariant.

## Main results

* `exists_end` — steps that come to an end, in general
* `System.exists_continues_of_waits` — a system in which calls wait for each other is not stuck
* `System.wellFounded_continues` — threads do not take turns forever
* `System.exists_done` — a system that is never stuck can be run down
* `System.Progresses.exists_past` — what every thread has done in the meantime
-/

namespace Interaction

variable {I : Interface} {α : Type} {ι σ : Type*}

/-- Steps of which there are not infinitely many in a row lead to an end, if it is the only state
from which there is none. -/
theorem exists_end {step : σ → σ → Prop} {inv done : σ → Prop}
    (hwf : WellFounded fun s' s => step s s') (hinv : ∀ s s', inv s → step s s' → inv s')
    (hprogress : ∀ s, inv s → ¬ done s → ∃ s', step s s') {s : σ} (h : inv s) :
    ∃ s', Relation.ReflTransGen step s s' ∧ inv s' ∧ done s' := by
  induction s using hwf.induction with
  | _ s ih =>
    by_cases hdone : done s
    · exact ⟨s, .refl, h, hdone⟩
    · obtain ⟨next, hnext⟩ := hprogress s h hdone
      obtain ⟨last, hlast, hlast', hend⟩ := ih next hnext (hinv s next h hnext)
      exact ⟨last, .head hnext hlast, hlast', hend⟩

/-- What is left of a program after its next call, with some answer to it. There is no longest
sequence of such steps in general, as an answer may be a number, but none is infinite. -/
def Prog.After (q p : Prog I α) : Prop := ∃ op next answer, p = .call op next ∧ q = next answer

theorem Prog.wellFounded_after : WellFounded (Prog.After (I := I) (α := α)) := by
  refine ⟨fun p => ?_⟩
  induction p with
  | done a =>
    refine ⟨_, ?_⟩
    rintro _ ⟨op, next, answer, hcall, -⟩
    exact nomatch hcall
  | call op next ih =>
    refine ⟨_, ?_⟩
    rintro _ ⟨op', next', answer, hcall, rfl⟩
    cases hcall
    exact ih answer

/-- Nobody has anything left to do. It says nothing of how anybody has ended. -/
def Config.Done (c : Config I ι σ) : Prop := ∀ t ∈ c.threads, t.rest = .done ()

namespace System

variable (S : System I ι σ) (ok : Event I → Prop)

/-- A call of a thread that is there already, of a kind that is permitted. No thread is started, so
what remains to be done can only become less. -/
inductive Continues : Config I ι σ → Config I ι σ → Prop
  | call {s s' : σ} {before after : List (Thread I ι)} {request : ι} {past : List (Event I)}
      {op : I.Op} {next : I.Ret op → Prog I Unit} (answer : I.Ret op)
      (heffect : S.effect s ⟨op, answer⟩ s') (hok : ok ⟨op, answer⟩) :
      Continues ⟨s, before ++ ⟨request, past, .call op next⟩ :: after⟩
        ⟨s', before ++ ⟨request, past ++ [⟨op, answer⟩], next answer⟩ :: after⟩

/-- Any number of such calls. -/
abbrev Progresses : Config I ι σ → Config I ι σ → Prop := Relation.ReflTransGen (S.Continues ok)

variable {S ok} {c c' : Config I ι σ}

theorem Continues.step (h : S.Continues ok c c') : S.Step c c' := by
  cases h with
  | call answer heffect hok => exact .call answer heffect

theorem Progresses.reachable (h : S.Progresses ok c c') (hc : S.Reachable c) : S.Reachable c' :=
  hc.trans (Relation.ReflTransGen.mono (fun _ _ => Continues.step) _ _ h)

/-- A thread can go on with a call that the shared state lets it make, wherever it stands among the
others. -/
theorem exists_continues_of_mem {t : Thread I ι} (ht : t ∈ c.threads) {op : I.Op}
    {next : I.Ret op → Prog I Unit} (hrest : t.rest = .call op next) (answer : I.Ret op) {s' : σ}
    (heffect : S.effect c.shared ⟨op, answer⟩ s') (hok : ok ⟨op, answer⟩) :
    ∃ c', S.Continues ok c c' := by
  obtain ⟨shared, threads⟩ := c
  obtain ⟨before, after, rfl⟩ := List.append_of_mem ht
  obtain ⟨request, past, rest⟩ := t
  obtain rfl : rest = .call op next := hrest
  exact ⟨_, .call answer heffect hok⟩

/-- Somebody has something left to do. -/
theorem exists_call_of_not_done (h : ¬ c.Done) :
    ∃ t ∈ c.threads, ∃ op next, t.rest = .call op next := by
  obtain ⟨t, ht, hrest⟩ : ∃ t ∈ c.threads, t.rest ≠ .done () := by
    by_contra hall
    exact h fun t ht => not_not.mp fun hrest => hall ⟨t, ht, hrest⟩
  cases hcall : t.rest with
  | done a => exact absurd hcall hrest
  | call op next => exact ⟨t, ht, op, next, hcall⟩

/-- **A system in which calls wait** is not stuck if the others can always be made, and if those
that wait can be made once everybody waits. -/
theorem exists_continues_of_waits (waits : I.Op → Prop)
    (hcalls : ∀ t ∈ c.threads, ∀ op next, t.rest = .call op next → ¬ waits op →
      ∃ answer s', S.effect c.shared ⟨op, answer⟩ s' ∧ ok ⟨op, answer⟩)
    (hwaits : (∀ t ∈ c.threads, ∀ op next, t.rest = .call op next → waits op) →
      ∀ t ∈ c.threads, ∀ op next, t.rest = .call op next →
        ∃ answer s', S.effect c.shared ⟨op, answer⟩ s' ∧ ok ⟨op, answer⟩)
    (hdone : ¬ c.Done) : ∃ c', S.Continues ok c c' := by
  obtain ⟨t, ht, op, next, hrest, answer, s', heffect, hok⟩ :
      ∃ t ∈ c.threads, ∃ op next, t.rest = .call op next ∧
        ∃ answer s', S.effect c.shared ⟨op, answer⟩ s' ∧ ok ⟨op, answer⟩ := by
    by_cases hall : ∀ t ∈ c.threads, ∀ op next, t.rest = .call op next → waits op
    · obtain ⟨t, ht, op, next, hrest⟩ := exists_call_of_not_done hdone
      exact ⟨t, ht, op, next, hrest, hwaits hall t ht op next hrest⟩
    · simp only [not_forall] at hall
      obtain ⟨t, ht, op, next, hrest, hop⟩ := hall
      exact ⟨t, ht, op, next, hrest, hcalls t ht op next hrest hop⟩
  exact exists_continues_of_mem ht hrest answer heffect hok

/-- The programs that are left, in no order: one of them is replaced by a part of itself at every
call, which is a step of `Relation.CutExpand`. -/
def rests (c : Config I ι σ) : Multiset (Prog I Unit) := (c.threads.map Thread.rest : List _)

theorem Continues.cutExpand (h : S.Continues ok c c') :
    Relation.CutExpand Prog.After (rests c') (rests c) := by
  cases h with
  | @call s s' before after request past op next answer heffect hok =>
    refine ⟨{next answer}, .call op next, ?_, ?_⟩
    · intro q hq
      obtain rfl := Multiset.mem_singleton.mp hq
      exact ⟨op, next, answer, rfl, rfl⟩
    · simp only [rests, List.map_append, List.map_cons, ← Multiset.coe_add, ← Multiset.cons_coe,
        ← Multiset.singleton_add]
      abel

/-- **Threads do not take turns forever**, unless new ones are started. A multiset of programs of
which one is replaced at a time by a part of it shrinks in a well-founded order. -/
theorem wellFounded_continues : WellFounded fun c' c => S.Continues ok c c' :=
  Subrelation.wf Continues.cutExpand (InvImage.wf rests Prog.wellFounded_after.cutExpand)

/-- **A system that is never stuck can be run down**, from every state it reaches. -/
theorem exists_done (hprogress : ∀ c, S.Reachable c → ¬ c.Done → ∃ c', S.Continues ok c c')
    (h : S.Reachable c) : ∃ c', S.Progresses ok c c' ∧ c'.Done := by
  obtain ⟨c', hprogresses, -, hdone⟩ := exists_end wellFounded_continues
    (fun _ _ hreachable hstep => hreachable.tail hstep.step) hprogress h
  exact ⟨c', hprogresses, hdone⟩

/-- What a thread has done in the meantime: some more calls, all permitted, for the request that it
was started for. -/
def Extends (ok : Event I → Prop) (t t' : Thread I ι) : Prop :=
  t'.request = t.request ∧ ∃ es, t'.past = t.past ++ es ∧ ∀ e ∈ es, ok e

theorem Extends.refl (t : Thread I ι) : Extends ok t t :=
  ⟨rfl, [], (List.append_nil _).symm, by simp⟩

theorem Extends.trans {t t' t'' : Thread I ι} (h : Extends ok t t') (h' : Extends ok t' t'') :
    Extends ok t t'' := by
  obtain ⟨hrequest, es, hpast, hes⟩ := h
  obtain ⟨hrequest', es', hpast', hes'⟩ := h'
  refine ⟨hrequest'.trans hrequest, es ++ es', ?_, List.forall_mem_append.mpr ⟨hes, hes'⟩⟩
  rw [hpast', hpast, List.append_assoc]

theorem forall₂_extends_refl (ts : List (Thread I ι)) : List.Forall₂ (Extends ok) ts ts :=
  List.forall₂_same.mpr fun t _ => .refl t

theorem forall₂_extends_trans {ts ts' ts'' : List (Thread I ι)}
    (h : List.Forall₂ (Extends ok) ts ts') (h' : List.Forall₂ (Extends ok) ts' ts'') :
    List.Forall₂ (Extends ok) ts ts'' := by
  induction h generalizing ts'' with
  | nil => exact h'
  | cons hhead _ ih =>
    cases h' with
    | cons hhead' htail' => exact .cons (hhead.trans hhead') (ih htail')

/-- **Every thread is still there**, at its place, with what it has done in the meantime appended to
its past. -/
theorem Progresses.exists_past (h : S.Progresses ok c c') :
    List.Forall₂ (Extends ok) c.threads c'.threads := by
  induction h with
  | refl => exact forall₂_extends_refl c.threads
  | @tail d d' _ hstep ih =>
    have hnext : List.Forall₂ (Extends ok) d.threads d'.threads := by
      cases hstep with
      | @call s s' before after request past op next answer heffect hok =>
        refine List.rel_append (forall₂_extends_refl before)
          (.cons ⟨rfl, [⟨op, answer⟩], rfl, ?_⟩ (forall₂_extends_refl after))
        intro e he
        exact List.mem_singleton.mp he ▸ hok
    exact forall₂_extends_trans ih hnext

end System

end Interaction
