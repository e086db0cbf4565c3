import LookingGlass.Diagnostics.ExecutorCapacity
import LookingGlass.Foundations.Completion

/-!
# Everybody gets through the executor

A call that waits for a slot can time out or be cancelled, so that it ends says little. What is
shown here is that nobody has to: from whatever the calls have come to, they can all be brought to
their ends without another wait that times out or is cancelled, and whoever is in the queue gets to
its work.

The only call that may have to wait is the one for a slot. If every call that is left waits, none of
them holds one, and so all of them are free.

## Why this needs no fairness

A semaphore may serve its waiters in any order, and nothing here depends on which. What is shown is
that some order brings everybody to an end, and that no order goes on forever. A scheduler that lets
one call wait while others come and go is possible in a system to which calls are added; with the
calls that are there, it runs out of others.

That the work answers is a hypothesis: for every call of the work there is some answer. A work that
hangs holds its slot, in the model and in the code, until its time is up.

## Main results

* `DiagnosticsExecutor.exists_continues` — the executor is never stuck
* `DiagnosticsExecutor.completes_of_reachable` — everybody gets through, and all slots are free then
-/

namespace LookingGlass

open Utf16 Interaction

namespace DiagnosticsExecutor

variable {W : Interface} {settings : DiagnosticsOptions}

/-- No wait is cancelled, and none times out in the queue. -/
def Served : Event (Exec.sum W) → Prop
  | ⟨.inl .tryEnter, .cancelled⟩ => False
  | ⟨.inl .awaitSlot, .timedOut⟩ => False
  | ⟨.inl .awaitSlot, .cancelled⟩ => False
  | _ => True

/-! ### Never stuck

Every call can be made at any time, except for the wait in the queue. -/

/-- Every call but the wait in the queue can be made at any time. -/
theorem exists_effect (hanswers : ∀ op, Nonempty (W.Ret op)) {s : Shared} {phase : Phase}
    {op : (Exec.sum W).Op} (hallowed : isAllowed phase op) (hop : op ≠ .inl .awaitSlot)
    (hfree : phase.holdsSlot = true → s.free < settings.maxConcurrent) :
    ∃ answer s', effect settings s ⟨op, answer⟩ s' ∧ Served ⟨op, answer⟩ := by
  match op with
  | .inl .tryEnter => exact ⟨WaitOutcome.timedOut, s, rfl, trivial⟩
  | .inl .awaitSlot => exact absurd rfl hop
  | .inl .incrementWaiting => exact ⟨(s.waiting + 1 : ℤ), _, ⟨rfl, rfl⟩, trivial⟩
  | .inl .decrementWaiting => exact ⟨(), _, rfl, trivial⟩
  | .inl .release =>
    obtain rfl : phase = .working := hallowed
    exact ⟨true, _, ⟨hfree rfl, rfl⟩, trivial⟩
  | .inl .isCancellationRequested => exact ⟨false, s, rfl, trivial⟩
  | .inl (.inc _ _) | .inl (.observeDuration _) | .inl .activeInc | .inl .activeDec
  | .inl (.enqueue _) | .inl (.cancelAfter _) | .inl .startWork =>
    exact ⟨(), s, rfl, trivial⟩
  | .inr op =>
    obtain ⟨answer⟩ := hanswers op
    exact ⟨answer, s, rfl, trivial⟩

/-- Where everybody who is left waits in the queue, all slots are free. -/
theorem free_of_all_queued {c : State W} (h : (system settings W).Reachable c)
    (hqueued : ∀ t ∈ c.threads, ∀ op next, t.rest = .call op next → op = .inl .awaitSlot) :
    c.shared.free = settings.maxConcurrent := by
  have hfollows := System.follows_of_reachable follows_program h
  have hslots := (inv_of_reachable h).slots
  have hnone : (phases settings c).countP Phase.holdsSlot = 0 := by
    rw [List.countP_eq_zero]
    intro phase hphase
    obtain ⟨t, ht, rfl⟩ := List.mem_map.mp hphase
    have hthread := hfollows t ht
    cases hrest : t.rest with
    | done a =>
      rw [hrest] at hthread
      have hleft : t.phase (protocol settings) (fun _ => .arrived) = .left := hthread
      rw [hleft]
      decide
    | call op next =>
      obtain rfl := hqueued t ht op next hrest
      rw [hrest] at hthread
      have hwaits : t.phase (protocol settings) (fun _ => .arrived) = .queued := hthread.1
      rw [hwaits]
      decide
  omega

/-- **The executor is never stuck**, and nobody has to give up for it to go on. -/
theorem exists_continues (hslots : 0 < settings.maxConcurrent)
    (hanswers : ∀ op, Nonempty (W.Ret op)) {c : State W} (h : (system settings W).Reachable c)
    (hdone : ¬ c.Done) : ∃ c', (system settings W).Continues Served c c' := by
  have hfollows := System.follows_of_reachable follows_program h
  refine System.exists_continues_of_waits (· = .inl .awaitSlot) (fun t ht op next hrest hop => ?_)
    (fun hqueued t ht op next hrest => ?_) hdone
  · have hthread := hfollows t ht
    rw [hrest] at hthread
    refine exists_effect hanswers hthread.1 hop fun hholds => ?_
    -- Whoever is to release a slot holds one, so that it is not free.
    have hcount := (inv_of_reachable h).slots
    have hpos : 0 < (phases settings c).countP Phase.holdsSlot :=
      List.countP_pos_iff.mpr ⟨_, List.mem_map_of_mem ht, hholds⟩
    omega
  · obtain rfl : op = .inl .awaitSlot := hqueued t ht op next hrest
    have hpos : 0 < c.shared.free := free_of_all_queued h hqueued ▸ hslots
    exact ⟨WaitOutcome.granted, _, ⟨hpos, rfl⟩, trivial⟩

/-! ### Who is in the queue gets to its work

From the queue the way leads to the work, unless a wait fails, and none does. -/

/-- The call will work, unless a wait of it fails. -/
def Phase.isBound : Phase → Bool
  | admitted | queued | served | holding => true
  | _ => false

theorem isBound_nextPhase {phase : Phase} {e : Event (Exec.sum W)}
    (hallowed : isAllowed phase e.op) (hserved : Served e) (hbound : phase.isBound = true) :
    isStart e = true ∨ (nextPhase settings phase e).isBound = true := by
  match e, hallowed, hserved with
  | ⟨.inl .tryEnter, _⟩, hphase, _ =>
    obtain rfl : phase = .arrived := hphase
    exact absurd hbound (by decide)
  | ⟨.inl .awaitSlot, .granted⟩, hphase, _ =>
    obtain rfl : phase = .queued := hphase
    exact .inr rfl
  | ⟨.inl .incrementWaiting, _⟩, hphase, _ =>
    obtain rfl : phase = .arrived := hphase
    exact absurd hbound (by decide)
  | ⟨.inl .decrementWaiting, _⟩, hphase, _ =>
    rcases hphase with rfl | rfl | rfl
    · exact absurd hbound (by decide)
    · exact absurd hbound (by decide)
    · exact .inr rfl
  | ⟨.inl .release, _⟩, hphase, _ =>
    obtain rfl : phase = .working := hphase
    exact absurd hbound (by decide)
  | ⟨.inl (.enqueue _), _⟩, hphase, _ =>
    obtain rfl : phase = .admitted := hphase
    exact .inr rfl
  | ⟨.inl .startWork, _⟩, _, _ => exact .inl rfl
  | ⟨.inr _, _⟩, hphase, _ =>
    obtain rfl : phase = .working := hphase
    exact absurd hbound (by decide)
  | ⟨.inl (.inc _ _), _⟩, _, _ | ⟨.inl (.observeDuration _), _⟩, _, _
  | ⟨.inl .activeInc, _⟩, _, _ | ⟨.inl .activeDec, _⟩, _, _ | ⟨.inl (.cancelAfter _), _⟩, _, _
  | ⟨.inl .isCancellationRequested, _⟩, _, _ =>
    refine .inr ?_
    cases phase <;> exact hbound

theorem exists_isStart {phase : Phase} {es : List (Event (Exec.sum W))}
    (haccepts : (protocol settings).Accepts phase es) (hserved : ∀ e ∈ es, Served e)
    (hbound : phase.isBound = true) (hleft : es.foldl (nextPhase settings) phase = .left) :
    ∃ e ∈ es, isStart e = true := by
  induction es generalizing phase with
  | nil =>
    obtain rfl : phase = .left := hleft
    exact absurd hbound (by decide)
  | cons e es ih =>
    obtain ⟨he, hes⟩ := List.forall_mem_cons.mp hserved
    have hmove : isStart e = true ∨ (nextPhase settings phase e).isBound = true :=
      isBound_nextPhase haccepts.1 he hbound
    rcases hmove with hstart | hnext
    · exact ⟨e, List.mem_cons_self .., hstart⟩
    · obtain ⟨e', hmem, hstart⟩ := ih haccepts.2 hes hnext hleft
      exact ⟨e', List.mem_cons_of_mem _ hmem, hstart⟩

/-- How a call ends without another wait that fails: with its work, if it was in the queue. -/
def GetsThrough (settings : DiagnosticsOptions) (t t' : Thread (Exec.sum W) (Call W)) : Prop :=
  t'.request = t.request ∧ ∃ es, t'.past = t.past ++ es ∧ (∀ e ∈ es, Served e) ∧
    (t.phase (protocol settings) (fun _ => .arrived) = .queued → ∃ e ∈ es, isStart e = true)

theorem getsThrough_of_extends {c' : State W} (hreach : (system settings W).Reachable c')
    (hdone : c'.Done) {t t' : Thread (Exec.sum W) (Call W)} (ht' : t' ∈ c'.threads)
    (h : System.Extends Served t t') : GetsThrough settings t t' := by
  obtain ⟨hrequest, es, hpast, hserved⟩ := h
  refine ⟨hrequest, es, hpast, hserved, fun hqueued => ?_⟩
  have haccepts := System.accepts_of_reachable follows_program hreach t' ht'
  have hleft := System.follows_of_reachable follows_program hreach t' ht'
  rw [hdone t' ht'] at hleft
  replace hleft : t'.past.foldl (nextPhase settings) .arrived = .left := hleft
  rw [hpast] at haccepts hleft
  rw [List.foldl_append] at hleft
  have hrest := (Protocol.accepts_append.mp haccepts).2
  have hphase : t.past.foldl (nextPhase settings) .arrived = .queued := hqueued
  exact exists_isStart hrest hserved (congrArg Phase.isBound hphase) hleft

/-- **Everybody gets through** without another wait that fails, whatever has happened before: who is
in the queue gets to its work, and in the end all slots are free and nobody is counted. However else
the calls go on, they come to an end. -/
theorem completes_of_reachable (hslots : 0 < settings.maxConcurrent)
    (hanswers : ∀ op, Nonempty (W.Ret op)) {c : State W} (h : (system settings W).Reachable c) :
    (∃ c', (system settings W).Progresses Served c c' ∧ c'.Done ∧
      c'.shared = ⟨settings.maxConcurrent, 0⟩ ∧
      List.Forall₂ (GetsThrough settings) c.threads c'.threads) ∧
    Acc (fun d' d => (system settings W).Continues (fun _ => True) d d') c := by
  obtain ⟨c', hprogress, hdone⟩ :=
    System.exists_done (fun _ hd hundone => exists_continues hslots hanswers hd hundone) h
  have hreachable := hprogress.reachable h
  refine ⟨⟨c', hprogress, hdone, shared_of_done hreachable hdone, ?_⟩,
    System.wellFounded_continues.apply c⟩
  obtain ⟨hlength, hzip⟩ := List.forall₂_iff_zip.mp hprogress.exists_past
  refine List.forall₂_iff_zip.mpr ⟨hlength, fun {t t'} hmem => ?_⟩
  exact getsThrough_of_extends hreachable hdone (List.of_mem_zip hmem).2 (hzip hmem)

/-- One call holds the only slot, and another one that waits for it gets to its work. -/
theorem completes_of_two_calls :
    let settings : DiagnosticsOptions := { maxConcurrent := 1, maxQueued := 1 }
    ∃ c : State Work, phases settings c = [.holding, .queued] ∧
      (∃ c', (system settings Work).Progresses Served c c' ∧ c'.Done ∧ c'.shared = ⟨1, 0⟩ ∧
        List.Forall₂ (GetsThrough settings) c.threads c'.threads) ∧
      Acc (fun d' d => (system settings Work).Continues (fun _ => True) d d') c := by
  intro settings
  let call : Call Work := ⟨"mtr", Unit, pure ()⟩
  let program := (system settings Work).program call
  let holds : List (Event (Exec.sum Work)) :=
    [⟨.inl (.inc .requests ["mtr"]), ()⟩, ⟨.inl .tryEnter, WaitOutcome.granted⟩]
  let waits : List (Event (Exec.sum Work)) :=
    [⟨.inl (.inc .requests ["mtr"]), ()⟩, ⟨.inl .tryEnter, WaitOutcome.timedOut⟩,
      ⟨.inl .incrementWaiting, (1 : ℤ)⟩, ⟨.inl (.enqueue 10), ()⟩]
  obtain ⟨p, hp⟩ : ∃ p, program.Steps holds p := ⟨_, .call _ (.call _ (.refl _))⟩
  obtain ⟨q, hq⟩ : ∃ q, program.Steps waits q :=
    ⟨_, .call _ (.call _ (.call _ (.call _ (.refl _))))⟩
  have hholds : (system settings Work).Effects ⟨1, 0⟩ holds ⟨0, 0⟩ :=
    .cons rfl (.cons ⟨Nat.one_pos, rfl⟩ (.nil _))
  have hwaits : (system settings Work).Effects ⟨0, 0⟩ waits ⟨0, 1⟩ :=
    .cons rfl (.cons rfl (.cons ⟨rfl, rfl⟩ (.cons rfl (.nil _))))
  have hspawned : (system settings Work).Reachable
      ⟨⟨1, 0⟩, [] ++ ⟨call, [], program⟩ :: [⟨call, [], program⟩]⟩ :=
    (Relation.ReflTransGen.refl.tail (.spawn _ call)).tail (.spawn _ call)
  have hfirst : (system settings Work).Reachable
      ⟨⟨0, 0⟩, [⟨call, [] ++ holds, p⟩] ++ ⟨call, [], program⟩ :: []⟩ := hspawned.steps hp hholds
  have hanswers : ∀ op : WorkOp, Nonempty (WorkOp.Ret op) := by
    intro op
    cases op with
    | getUtcNow => exact ⟨(0 : ℤ)⟩
    | stopwatchElapsed => exact ⟨(0 : ℤ)⟩
    | isCancellationRequested => exact ⟨false⟩
    | dnsQuery _ _ => exact ⟨.error .other⟩
    | runProcess _ _ _ => exact ⟨.error .other⟩
  exact ⟨_, rfl, completes_of_reachable Nat.one_pos hanswers (hfirst.steps hq hwaits)⟩

end DiagnosticsExecutor

end LookingGlass
