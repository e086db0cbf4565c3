import LookingGlass.Diagnostics.DiagnosticsExecutor

/-!
# The capacity of the executor

Any number of calls of `executeAsync` share one semaphore and one counter, and their steps
interleave in any order. The semaphore is the usual counting one: a wait that is granted takes a
free slot, one that times out or is cancelled takes none, and a release beyond the maximum fails.

The bound on the queue is enforced by the counter, not by the semaphore, and the counter overshoots
it: it is incremented before it is tested. What bounds the queue is that a call which may queue was
answered a small count, and stays counted for as long as it may queue.

## What is read off the calls

How many calls are queued is not a matter of phases: a call is in the queue if it has made `enqueue`
and its wait has not ended, and it is counted if it has incremented the counter and not yet
decremented it. `Account` is a summary of these facts, and each phase knows it exactly. So what is
promised of the queue would fail if the code let a call in that was answered too large a count,
whatever the protocol says about phases.

## Integers

The counter is a number without a largest value where the code has an `int`. It is never more than
the number of calls in progress, so it does not wrap around as long as there are fewer of these than
an `int` can count.

## Main results

* `DiagnosticsExecutor.follows_executeAsync` — the phases of one call
* `DiagnosticsExecutor.inv_of_reachable` — how the phases of all calls relate to the shared state
* `DiagnosticsExecutor.capacity_of_reachable` — no slot is lost and no bound is exceeded
-/

namespace LookingGlass

open Utf16 Interaction

namespace DiagnosticsExecutor

variable {W : Interface} {settings : DiagnosticsOptions}

/-! ### The phases of a call

A call is counted before it queues and until it has a slot or none. Whoever holds a slot is counted
no more. -/

/-- How far a call has come, as far as the semaphore and the counter are concerned. It is a function
of the calls that were made, so no state has to be kept for it; the code has no such variable. -/
inductive Phase
  | arrived
  /-- Counted, but as one too many. -/
  | overflowed
  /-- Counted, and let into the queue. -/
  | admitted
  | queued
  /-- Out of the queue without a slot, still counted. -/
  | unserved
  /-- Out of the queue with a slot, still counted. -/
  | served
  | holding
  | working
  | left
  deriving DecidableEq

namespace Phase

def holdsSlot : Phase → Bool
  | served | holding | working => true
  | _ => false

def isCounted : Phase → Bool
  | overflowed | admitted | queued | unserved | served => true
  | _ => false

/-- Counted, by an increment that was answered a count within the bound. -/
def isAdmitted : Phase → Bool
  | admitted | queued | unserved | served => true
  | _ => false

end Phase

def nextPhase (settings : DiagnosticsOptions) : Phase → Event (Exec.sum W) → Phase
  | .arrived, ⟨.inl .tryEnter, .granted⟩ => .holding
  | .arrived, ⟨.inl .tryEnter, .timedOut⟩ => .arrived
  | .arrived, ⟨.inl .tryEnter, .cancelled⟩ => .left
  | .arrived, ⟨.inl .incrementWaiting, waiting⟩ =>
    if (waiting : ℤ) > settings.maxQueued then .overflowed else .admitted
  | .admitted, ⟨.inl (.enqueue _), _⟩ => .queued
  | .queued, ⟨.inl .awaitSlot, .granted⟩ => .served
  | .queued, ⟨.inl .awaitSlot, .timedOut⟩ => .unserved
  | .queued, ⟨.inl .awaitSlot, .cancelled⟩ => .unserved
  | .overflowed, ⟨.inl .decrementWaiting, _⟩ => .left
  | .unserved, ⟨.inl .decrementWaiting, _⟩ => .left
  | .served, ⟨.inl .decrementWaiting, _⟩ => .holding
  | .holding, ⟨.inl .startWork, _⟩ => .working
  | .working, ⟨.inl .release, _⟩ => .left
  | phase, _ => phase

/-- The phase in which a call of the executor may be made. -/
def isAllowed : Phase → (Exec.sum W).Op → Prop
  | phase, .inl .tryEnter => phase = .arrived
  | phase, .inl .incrementWaiting => phase = .arrived
  | phase, .inl (.enqueue _) => phase = .admitted
  | phase, .inl .awaitSlot => phase = .queued
  | phase, .inl .decrementWaiting =>
    phase = .overflowed ∨ phase = .unserved ∨ phase = .served
  | phase, .inl .startWork => phase = .holding
  | phase, .inl .release => phase = .working
  | phase, .inr _ => phase = .working
  | _, _ => True

def protocol (settings : DiagnosticsOptions) : Protocol (Exec.sum W) Phase :=
  ⟨isAllowed, nextPhase settings⟩

theorem nextPhase_incrementWaiting (waiting : ℤ) :
    nextPhase (W := W) settings .arrived ⟨.inl .incrementWaiting, waiting⟩ =
      if waiting > settings.maxQueued then .overflowed else .admitted := rfl

/-- Whoever acquires holds a slot, and whoever does not is counted no more. -/
theorem follows_acquireAsync {type : Str} {post : Phase → Except Exn Unit → Prop}
    (hok : post .holding (.ok ())) (herror : ∀ ex, post .left (.error ex)) :
    Task.Follows (protocol (W := W) settings) post (acquireAsync type settings) .arrived := by
  refine Task.follows_bind.mpr ⟨rfl, WaitOutcome.forall.mpr ⟨hok, ?_, herror _⟩⟩
  -- No slot is free: increment, and test what the increment was answered.
  refine Task.follows_bind.mpr ⟨rfl, fun (waiting : ℤ) => ?_⟩
  show Task.andThen _ _ _ (nextPhase settings .arrived ⟨.inl .incrementWaiting, waiting⟩)
    (.ok waiting)
  rw [nextPhase_incrementWaiting, Task.andThen_ok]
  by_cases hfull : waiting > settings.maxQueued
  · simp [hfull, herror, exec, inc, protocol, isAllowed, nextPhase, Interface.sumRet]
  · simp [hfull, hok, herror, exec, inc, entered, protocol, isAllowed, nextPhase, Except.bind,
      Interface.sumRet]

/-- The work of a call runs in its working phase, whatever it does. -/
theorem follows_work {α : Type} {work : Task W Exn α} {post : Phase → Except Exn α → Prop}
    (hpost : ∀ x, post .working x) :
    Task.Follows (protocol settings) post work.right .working :=
  Prog.follows_right (fun _ => ⟨rfl, fun _ => rfl⟩) _ hpost

theorem follows_handle {α : Type} {type : Str} {ex : Exn} {post : Phase → Except Exn α → Prop}
    (hpost : ∀ ex, post .working (.error ex)) :
    Task.Follows (protocol (W := W) settings) post (handle type ex) .working := by
  cases ex <;> simp [handle, hpost, exec, inc, protocol, isAllowed, nextPhase, Interface.sumRet]

/-- **The phases of one call**: however it ends, it has given back what it took. -/
theorem follows_executeAsync {α : Type} {type : Str} {work : Task W Exn α} :
    Task.Follows (protocol settings) (fun phase _ => phase = .left)
      (executeAsync settings type work) .arrived := by
  refine Task.follows_bind.mpr ⟨trivial, fun _ => ?_⟩
  refine Task.follows_bind.mpr (follows_acquireAsync ?_ fun _ => rfl)
  refine Task.follows_bind.mpr ⟨trivial, fun _ => Task.follows_bind.mpr ⟨trivial, fun _ => ?_⟩⟩
  refine Task.follows_tryFinally.mpr (Task.follows_tryCatch.mpr (Task.follows_bind.mpr
    ⟨rfl, fun _ => follows_work fun x => ?_⟩))
  -- The final part releases the slot of a working call.
  have hfinish : ∀ x : Except Exn α, Task.Follows (protocol (W := W) settings)
      (fun phase _ => phase = .left) (do
        exec (.observeDuration type) .ok
        exec .activeDec .ok
        exec .release released) .working := by
    intro x
    simp [exec, protocol, isAllowed, nextPhase, Interface.sumRet]
  cases x with
  | ok a => exact hfinish (.ok a)
  | error ex => exact follows_handle fun ex => hfinish (.error ex)

/-! ### All calls together

Slots and the counter are the whole of the shared state. -/

/-- A call of `executeAsync`, with a result of any type. -/
structure Call (W : Interface) where
  type : Str
  Result : Type
  work : Task W Exn Result

/-- `_slots` and `_waiting`; the latter is a number without a largest value. With fewer calls than
an `int` can count this makes no difference, which is one of the things that are shown. -/
structure Shared where
  free : ℕ
  waiting : ℤ

/-- What a call does to the semaphore and the counter; the metrics, the tokens and the work touch
neither. -/
def effect (settings : DiagnosticsOptions) : Shared → Event (Exec.sum W) → Shared → Prop
  | s, ⟨.inl .tryEnter, .granted⟩, s' => 0 < s.free ∧ s' = { s with free := s.free - 1 }
  | s, ⟨.inl .awaitSlot, .granted⟩, s' => 0 < s.free ∧ s' = { s with free := s.free - 1 }
  | s, ⟨.inl .release, true⟩, s' =>
    s.free < settings.maxConcurrent ∧ s' = { s with free := s.free + 1 }
  | s, ⟨.inl .release, false⟩, s' => s.free = settings.maxConcurrent ∧ s' = s
  | s, ⟨.inl .incrementWaiting, waiting⟩, s' =>
    waiting = s.waiting + 1 ∧ s' = { s with waiting := s.waiting + 1 }
  | s, ⟨.inl .decrementWaiting, _⟩, s' => s' = { s with waiting := s.waiting - 1 }
  | s, _, s' => s' = s

def system (settings : DiagnosticsOptions) (W : Interface) :
    System (Exec.sum W) (Call W) Shared where
  start := ⟨settings.maxConcurrent, 0⟩
  program call := (executeAsync settings call.type call.work).run >>= fun _ => pure ()
  effect := effect settings

theorem follows_program (call : Call W) :
    ((system settings W).program call).Follows (protocol settings) (fun phase _ => phase = .left)
      .arrived :=
  Prog.follows_bind.mpr follows_executeAsync

/-- How the phases of the calls account for the shared state. Slots are not created and not lost:
those that are free and those that are held are as many as there were. The counter has counted
whoever is counted. -/
structure Inv (settings : DiagnosticsOptions) (s : Shared) (phases : List Phase) : Prop where
  slots : phases.countP Phase.holdsSlot + s.free = settings.maxConcurrent
  waiting : s.waiting = phases.countP Phase.isCounted
  admitted : phases.countP Phase.isAdmitted ≤ settings.maxQueued

/-- Only admitted calls are in the queue, and only counted calls are admitted. -/
theorem countP_isAdmitted_le (phases : List Phase) :
    phases.countP Phase.isAdmitted ≤ phases.countP Phase.isCounted :=
  List.countP_mono_left fun phase _ => by cases phase <;> simp [Phase.isAdmitted, Phase.isCounted]

theorem count_queued_le (phases : List Phase) :
    phases.count .queued ≤ phases.countP Phase.isAdmitted :=
  List.countP_mono_left fun phase _ => by cases phase <;> simp [Phase.isAdmitted]

/-- What an allowed call does to its own account: slots move between the call and the semaphore,
the counter follows the phase, and a call is admitted by an increment answered within the bound. -/
structure Moves (settings : DiagnosticsOptions) (s s' : Shared) (phase phase' : Phase) : Prop where
  slots : phase'.holdsSlot.toNat + s'.free = phase.holdsSlot.toNat + s.free
  waiting : s'.waiting - phase'.isCounted.toNat = s.waiting - phase.isCounted.toNat
  admitted : phase'.isAdmitted.toNat ≤ phase.isAdmitted.toNat ∨ s'.waiting ≤ settings.maxQueued

theorem Moves.refl (s : Shared) (phase : Phase) : Moves settings s s phase phase :=
  ⟨rfl, rfl, .inl le_rfl⟩

theorem moves_of_effect {s s' : Shared} {phase : Phase} {op : (Exec.sum W).Op}
    {answer : (Exec.sum W).Ret op} (hallowed : isAllowed phase op)
    (heffect : effect settings s ⟨op, answer⟩ s')
    (hfree : phase.holdsSlot = true → s.free < settings.maxConcurrent) :
    Moves settings s s' phase (nextPhase settings phase ⟨op, answer⟩) := by
  match op, answer with
  | .inl .tryEnter, .granted =>
    obtain rfl : phase = .arrived := hallowed
    obtain ⟨hpos, rfl⟩ := heffect
    exact ⟨by simp [nextPhase, Phase.holdsSlot]; omega, rfl, .inl le_rfl⟩
  | .inl .tryEnter, .timedOut =>
    obtain rfl : phase = .arrived := hallowed
    obtain rfl := heffect
    exact .refl _ _
  | .inl .tryEnter, .cancelled =>
    obtain rfl : phase = .arrived := hallowed
    obtain rfl := heffect
    exact ⟨rfl, rfl, .inl le_rfl⟩
  | .inl .awaitSlot, .granted =>
    obtain rfl : phase = .queued := hallowed
    obtain ⟨hpos, rfl⟩ := heffect
    exact ⟨by simp [nextPhase, Phase.holdsSlot]; omega, rfl, .inl le_rfl⟩
  | .inl .awaitSlot, .timedOut =>
    obtain rfl : phase = .queued := hallowed
    obtain rfl := heffect
    exact ⟨rfl, rfl, .inl le_rfl⟩
  | .inl .awaitSlot, .cancelled =>
    obtain rfl : phase = .queued := hallowed
    obtain rfl := heffect
    exact ⟨rfl, rfl, .inl le_rfl⟩
  | .inl .incrementWaiting, waiting =>
    obtain rfl : phase = .arrived := hallowed
    obtain ⟨rfl, rfl⟩ := heffect
    by_cases hfull : s.waiting + 1 > settings.maxQueued
    · rw [nextPhase_incrementWaiting, if_pos hfull]
      exact ⟨rfl, by simp [Phase.isCounted], .inl le_rfl⟩
    · rw [nextPhase_incrementWaiting, if_neg hfull]
      exact ⟨rfl, by simp [Phase.isCounted], .inr (not_lt.mp hfull)⟩
  | .inl .decrementWaiting, _ =>
    obtain rfl := heffect
    rcases hallowed with rfl | rfl | rfl <;>
      exact ⟨rfl, by simp [nextPhase, Phase.isCounted], .inl (Nat.zero_le _)⟩
  | .inl .release, true =>
    obtain rfl : phase = .working := hallowed
    obtain ⟨-, rfl⟩ := heffect
    exact ⟨by simp [nextPhase, Phase.holdsSlot]; omega, rfl, .inl le_rfl⟩
  | .inl .release, false =>
    -- A release fails only if no slot is taken.
    obtain rfl : phase = .working := hallowed
    exact absurd heffect.1 (hfree rfl).ne
  | .inl (.enqueue _), _ =>
    obtain rfl : phase = .admitted := hallowed
    obtain rfl := heffect
    exact ⟨rfl, rfl, .inl le_rfl⟩
  | .inl .startWork, _ =>
    obtain rfl : phase = .holding := hallowed
    obtain rfl := heffect
    exact ⟨rfl, rfl, .inl le_rfl⟩
  | .inr _, _ =>
    obtain rfl : phase = .working := hallowed
    obtain rfl := heffect
    exact .refl _ _
  | .inl (.inc _ _), _ | .inl (.observeDuration _), _ | .inl .activeInc, _ | .inl .activeDec, _
  | .inl (.cancelAfter _), _ | .inl .isCancellationRequested, _ =>
    obtain rfl := heffect
    cases phase <;> exact .refl _ _

/-- The step lemma: an allowed call keeps the accounts of all calls. -/
theorem Inv.step {s s' : Shared} {before after : List Phase} {phase : Phase}
    {op : (Exec.sum W).Op} {answer : (Exec.sum W).Ret op} (hallowed : isAllowed phase op)
    (heffect : effect settings s ⟨op, answer⟩ s')
    (h : Inv settings s (before ++ phase :: after)) :
    Inv settings s' (before ++ nextPhase settings phase ⟨op, answer⟩ :: after) := by
  obtain ⟨hslots, hwaiting, hadmitted⟩ := h
  have hmoves : Moves settings s s' phase (nextPhase settings phase ⟨op, answer⟩) := by
    refine moves_of_effect hallowed heffect fun hholds => ?_
    rw [countP_middle, hholds] at hslots
    simp only [Bool.toNat_true] at hslots
    omega
  generalize nextPhase settings phase ⟨op, answer⟩ = phase' at hmoves ⊢
  have hle := countP_isAdmitted_le (before ++ phase' :: after)
  have hcounted : s'.waiting = (before ++ phase' :: after).countP Phase.isCounted := by
    rw [countP_middle, Nat.cast_add] at hwaiting ⊢
    have := hmoves.waiting
    omega
  refine ⟨?_, hcounted, ?_⟩
  · rw [countP_middle] at hslots ⊢
    have := hmoves.slots
    omega
  · rcases hmoves.admitted with hkept | hbound
    · rw [countP_middle] at hadmitted ⊢
      omega
    · omega

abbrev State (W : Interface) := Config (Exec.sum W) (Call W) Shared

def phases (settings : DiagnosticsOptions) (c : State W) : List Phase :=
  c.threads.map (Thread.phase (protocol settings) fun _ => .arrived)

/-- A call that has just arrived is on nobody's account. -/
theorem Inv.spawn {s : Shared} {phases : List Phase} (h : Inv settings s phases) :
    Inv settings s (phases ++ [.arrived]) := by
  have hsame : ∀ p : Phase → Bool, p Phase.arrived = false →
      (phases ++ [Phase.arrived]).countP p = phases.countP p := by
    intro p hp
    rw [countP_middle, hp]
    rfl
  exact ⟨by rw [hsame _ rfl, h.slots], by rw [hsame _ rfl, h.waiting],
    by rw [hsame _ rfl]; exact h.admitted⟩

/-- The run lemma: the accounts are right in every reachable state. -/
theorem inv_of_reachable {c : State W} (h : (system settings W).Reachable c) :
    Inv settings c.shared (phases settings c) := by
  have hstart : Inv settings (system settings W).start [] :=
    ⟨Nat.zero_add _, rfl, Nat.zero_le _⟩
  exact System.invariant_of_reachable (P := protocol settings) follows_program hstart
    (fun _ _ _ hinv => hinv.spawn)
    (fun _ _ _ _ _ _ _ hallowed heffect hinv => hinv.step hallowed heffect) h

/-! ### The work

The work starts once, if at all, and all of its calls are made while its caller holds a slot. -/

def isStart : Event (Exec.sum W) → Bool
  | ⟨.inl .startWork, _⟩ => true
  | _ => false

def Phase.isPastStart : Phase → Bool
  | working | left => true
  | _ => false

theorem isPastStart_nextPhase {phase : Phase} (h : phase.isPastStart = true)
    (e : Event (Exec.sum W)) : (nextPhase settings phase e).isPastStart = true := by
  obtain ⟨op, answer⟩ := e
  cases phase with
  | working =>
    rcases op with op | op
    · cases op <;> rfl
    · rfl
  | left => rfl
  | _ => exact absurd h (by decide)

/-- Once started, the work is not started again. -/
theorem countP_isStart_le {phase : Phase} {es : List (Event (Exec.sum W))}
    (h : (protocol settings).Accepts phase es) :
    es.countP isStart ≤ (!phase.isPastStart).toNat := by
  induction es generalizing phase with
  | nil => exact Nat.zero_le _
  | cons e es ih =>
    obtain ⟨hallowed, hrest⟩ := h
    have hle := ih hrest
    cases hstart : isStart e with
    | true =>
      match e, hstart, hallowed, hle with
      | ⟨.inl .startWork, _⟩, _, hholding, hle =>
        obtain rfl : phase = .holding := hholding
        rw [List.countP_cons_of_pos rfl]
        exact Nat.succ_le_succ hle
    | false =>
      rw [List.countP_cons_of_neg (by simp [hstart])]
      refine hle.trans ?_
      cases hphase : phase.isPastStart with
      | true =>
        have hnext : (nextPhase settings phase e).isPastStart = true :=
          isPastStart_nextPhase hphase e
        exact (congrArg (fun b => (!b).toNat) hnext).le
      | false => exact Bool.toNat_le _

/-- The start of the work, and every call the work makes. -/
def isWork : Event (Exec.sum W) → Bool
  | ⟨.inl .startWork, _⟩ => true
  | ⟨.inr _, _⟩ => true
  | _ => false

theorem holdsSlot_of_isWork {phase : Phase} {e : Event (Exec.sum W)}
    (hallowed : isAllowed phase e.op) (h : isWork e = true) : phase.holdsSlot = true := by
  match e, h, hallowed with
  | ⟨.inl .startWork, _⟩, _, hholding => exact hholding ▸ rfl
  | ⟨.inr _, _⟩, _, hworking => exact hworking ▸ rfl

/-! ### What the phases say about the calls

The account of a call has five entries, and each phase but the last ones fixes all of them. -/

def isIncrement : Event (Exec.sum W) → Bool
  | ⟨.inl .incrementWaiting, _⟩ => true
  | _ => false

def isDecrement : Event (Exec.sum W) → Bool
  | ⟨.inl .decrementWaiting, _⟩ => true
  | _ => false

/-- An increment that was answered more than the bound. -/
def isRefusal (settings : DiagnosticsOptions) : Event (Exec.sum W) → Bool
  | ⟨.inl .incrementWaiting, waiting⟩ => decide ((waiting : ℤ) > settings.maxQueued)
  | _ => false

def isEnqueue : Event (Exec.sum W) → Bool
  | ⟨.inl (.enqueue _), _⟩ => true
  | _ => false

/-- The end of a wait in the queue, with a slot or without one. -/
def isWaitEnd : Event (Exec.sum W) → Bool
  | ⟨.inl .awaitSlot, _⟩ => true
  | _ => false

/-- What a call has done so far to the counter and in the queue. Each entry is read off the calls,
so that the phases can be compared with something that does not depend on them. -/
@[ext] structure Account where
  incremented : Bool
  decremented : Bool
  refused : Bool
  enqueued : Bool
  waited : Bool

def account (settings : DiagnosticsOptions) (past : List (Event (Exec.sum W))) : Account :=
  ⟨past.any isIncrement, past.any isDecrement, past.any (isRefusal settings), past.any isEnqueue,
    past.any isWaitEnd⟩

def Account.add (settings : DiagnosticsOptions) (a : Account) (e : Event (Exec.sum W)) : Account :=
  ⟨a.incremented || isIncrement e, a.decremented || isDecrement e,
    a.refused || isRefusal settings e, a.enqueued || isEnqueue e, a.waited || isWaitEnd e⟩

theorem account_append (settings : DiagnosticsOptions) (past : List (Event (Exec.sum W)))
    (e : Event (Exec.sum W)) :
    account settings (past ++ [e]) = (account settings past).add settings e := by
  simp [account, Account.add, List.any_append]

/-- A call that has come to a slot or to its end has taken back what it added, and has waited to the
end if it was in the queue. -/
def Phase.Knows : Phase → Account → Prop
  | arrived, a => a = ⟨false, false, false, false, false⟩
  | overflowed, a => a = ⟨true, false, true, false, false⟩
  | admitted, a => a = ⟨true, false, false, false, false⟩
  | queued, a => a = ⟨true, false, false, true, false⟩
  | unserved, a | served, a => a = ⟨true, false, false, true, true⟩
  | holding, a | working, a | left, a => a.incremented = a.decremented ∧ a.enqueued = a.waited

/-- A call of none of these kinds changes nothing. -/
theorem Account.add_eq_self {a : Account} {e : Event (Exec.sum W)}
    (hincrement : isIncrement e = false) (hdecrement : isDecrement e = false)
    (hrefusal : isRefusal settings e = false) (henqueue : isEnqueue e = false)
    (hwaitEnd : isWaitEnd e = false) : a.add settings e = a := by
  simp [Account.add, *]

theorem knows_next {phase : Phase} {e : Event (Exec.sum W)} {a : Account}
    (hallowed : isAllowed phase e.op) (h : phase.Knows a) :
    (nextPhase settings phase e).Knows (a.add settings e) := by
  match e, hallowed with
  | ⟨.inl .tryEnter, outcome⟩, hphase =>
    obtain rfl : phase = .arrived := hphase
    obtain rfl : a = _ := h
    cases outcome with
    | timedOut => rfl
    | granted | cancelled => exact ⟨rfl, rfl⟩
  | ⟨.inl .incrementWaiting, waiting⟩, hphase =>
    obtain rfl : phase = .arrived := hphase
    obtain rfl : a = _ := h
    rw [nextPhase_incrementWaiting]
    by_cases hfull : waiting > settings.maxQueued
    · rw [if_pos hfull]
      exact Account.ext rfl rfl (decide_eq_true hfull) rfl rfl
    · rw [if_neg hfull]
      exact Account.ext rfl rfl (decide_eq_false hfull) rfl rfl
  | ⟨.inl (.enqueue _), _⟩, hphase =>
    obtain rfl : phase = .admitted := hphase
    obtain rfl : a = _ := h
    rfl
  | ⟨.inl .awaitSlot, outcome⟩, hphase =>
    obtain rfl : phase = .queued := hphase
    obtain rfl : a = _ := h
    cases outcome <;> rfl
  | ⟨.inl .decrementWaiting, _⟩, hphase =>
    rcases hphase with rfl | rfl | rfl <;> obtain rfl : a = _ := h <;> exact ⟨rfl, rfl⟩
  | ⟨.inl .startWork, _⟩, hphase =>
    obtain rfl : phase = .holding := hphase
    rwa [Account.add_eq_self rfl rfl rfl rfl rfl]
  | ⟨.inl .release, _⟩, hphase =>
    obtain rfl : phase = .working := hphase
    rwa [Account.add_eq_self rfl rfl rfl rfl rfl]
  | ⟨.inr _, _⟩, hphase =>
    obtain rfl : phase = .working := hphase
    rwa [Account.add_eq_self rfl rfl rfl rfl rfl]
  | ⟨.inl (.inc _ _), _⟩, _ | ⟨.inl (.observeDuration _), _⟩, _ | ⟨.inl .activeInc, _⟩, _
  | ⟨.inl .activeDec, _⟩, _ | ⟨.inl (.cancelAfter _), _⟩, _
  | ⟨.inl .isCancellationRequested, _⟩, _ =>
    rw [Account.add_eq_self rfl rfl rfl rfl rfl]
    cases phase <;> exact h

theorem knows_of_reachable {c : State W} (h : (system settings W).Reachable c) : ∀ t ∈ c.threads,
    (t.phase (protocol settings) fun _ => .arrived).Knows (account settings t.past) :=
  System.records_of_reachable (P := protocol settings)
    (R := fun phase past => phase.Knows (account settings past)) follows_program (fun _ => rfl)
    (fun _ past e hallowed hknows => account_append settings past e ▸ knows_next hallowed hknows) h

/-- The call has incremented the counter and not yet decremented it. -/
def isCounted (past : List (Event (Exec.sum W))) : Bool :=
  past.any isIncrement && !past.any isDecrement

/-- The call has joined the queue, and its wait has not ended. -/
def isQueued (past : List (Event (Exec.sum W))) : Bool :=
  past.any isEnqueue && !past.any isWaitEnd

theorem Phase.Knows.isCounted_eq {phase : Phase} {past : List (Event (Exec.sum W))}
    (h : phase.Knows (account settings past)) :
    DiagnosticsExecutor.isCounted past = phase.isCounted := by
  show ((account settings past).incremented && !(account settings past).decremented) = _
  cases phase with
  | holding | working | left =>
    rw [h.1, Bool.and_not_self]
    rfl
  | _ =>
    rw [show account settings past = _ from h]
    rfl

theorem Phase.Knows.isQueued_eq {phase : Phase} {past : List (Event (Exec.sum W))}
    (h : phase.Knows (account settings past)) : isQueued past = (phase == .queued) := by
  show ((account settings past).enqueued && !(account settings past).waited) = _
  cases phase with
  | holding | working | left =>
    rw [h.2, Bool.and_not_self]
    rfl
  | _ =>
    rw [show account settings past = _ from h]
    rfl

/-- The counter shows the calls that have incremented it and not yet decremented it. -/
theorem waiting_eq_countP {c : State W} (h : (system settings W).Reachable c) :
    c.shared.waiting = c.threads.countP fun t => isCounted t.past := by
  rw [(inv_of_reachable h).waiting, phases, List.countP_map]
  refine congrArg Nat.cast (List.countP_congr fun t ht => ?_)
  rw [(knows_of_reachable h t ht).isCounted_eq]
  rfl

/-! ### Capacity

The promises, in every reachable state and for any number of calls. -/

/-- What is promised of the executor, in a state of any number of calls. Nothing is assumed about
the order in which they have come to it, about the work, or about how any of them ends. -/
structure Capacity (settings : DiagnosticsOptions) (c : State W) : Prop where
  held_le : (phases settings c).countP Phase.holdsSlot ≤ settings.maxConcurrent
  /-- The slots that are not free are held by calls, and by no more than one each. -/
  held_add_free : (phases settings c).countP Phase.holdsSlot + c.shared.free =
    settings.maxConcurrent
  queued_le : (phases settings c).count .queued ≤ settings.maxQueued
  /-- The same of the calls that have joined the queue and whose wait has not ended. -/
  enqueued_le : c.threads.countP (fun t => isQueued t.past) ≤ settings.maxQueued
  waiting_nonneg : 0 ≤ c.shared.waiting
  /-- With fewer calls than an `int` can count, the counter does not wrap around. -/
  waiting_le : c.shared.waiting ≤ c.threads.length
  started_once : ∀ t ∈ c.threads, t.past.countP isStart ≤ 1
  /-- The work starts, and does whatever it does, while its call holds a slot. -/
  work_holds : ∀ t ∈ c.threads, ∀ before e after, t.past = before ++ e :: after →
    isWork e = true → (before.foldl (nextPhase settings) .arrived).holdsSlot = true
  idle : (∀ t ∈ c.threads, t.rest = .done ()) →
    c.shared.free = settings.maxConcurrent ∧ c.shared.waiting = 0

/-- Calls that are done are on nobody's account. -/
theorem countP_phases_of_done {c : State W} (h : (system settings W).Reachable c)
    (hdone : ∀ t ∈ c.threads, t.rest = .done ()) {p : Phase → Bool} (hp : p .left = false) :
    (phases settings c).countP p = 0 := by
  have hfollows := System.follows_of_reachable follows_program h
  rw [List.countP_eq_zero]
  intro phase hphase
  obtain ⟨t, ht, rfl⟩ := List.mem_map.mp hphase
  have hleft := hfollows t ht
  rw [hdone t ht] at hleft
  have hphase : t.phase (protocol settings) (fun _ => .arrived) = .left := hleft
  rw [hphase, hp]
  simp

/-- When all calls are done, everything is as it was in the beginning. -/
theorem shared_of_done {c : State W} (h : (system settings W).Reachable c)
    (hdone : ∀ t ∈ c.threads, t.rest = .done ()) : c.shared = ⟨settings.maxConcurrent, 0⟩ := by
  have hslots := (inv_of_reachable h).slots
  have hwaiting := (inv_of_reachable h).waiting
  rw [countP_phases_of_done h hdone rfl, Nat.zero_add] at hslots
  rw [countP_phases_of_done h hdone rfl] at hwaiting
  exact congrArg₂ Shared.mk hslots hwaiting

/-- **No slot is lost and no bound is exceeded**, however the calls interleave and however they
end. -/
theorem capacity_of_reachable {c : State W} (h : (system settings W).Reachable c) :
    Capacity settings c := by
  have hinv := inv_of_reachable h
  have haccepts := System.accepts_of_reachable follows_program h
  have hknows := knows_of_reachable h
  exact {
    held_le := by have := hinv.slots; omega
    held_add_free := hinv.slots
    queued_le := (count_queued_le _).trans hinv.admitted
    enqueued_le := by
      refine le_trans (le_of_eq ?_) ((count_queued_le _).trans hinv.admitted)
      rw [List.count, phases, List.countP_map]
      refine List.countP_congr fun t ht => ?_
      rw [(hknows t ht).isQueued_eq]
      rfl
    waiting_nonneg := by rw [hinv.waiting]; exact Int.natCast_nonneg _
    waiting_le := by
      rw [waiting_eq_countP h]
      exact Int.ofNat_le.mpr List.countP_le_length
    started_once := fun t ht => countP_isStart_le (haccepts t ht)
    work_holds := by
      intro t ht before e after hpast hwork
      have hall := haccepts t ht
      rw [hpast] at hall
      exact holdsSlot_of_isWork (Protocol.accepts_append.mp hall).2.1 hwork
    idle := fun hdone => by
      rw [shared_of_done h hdone]
      exact ⟨rfl, rfl⟩ }

/-- With one slot and room for one in the queue, one call holds the slot and another is queued. -/
theorem capacity_of_two_calls :
    let settings : DiagnosticsOptions := { maxConcurrent := 1, maxQueued := 1 }
    ∃ c : State Work, phases settings c = [.holding, .queued] ∧ Capacity settings c := by
  intro settings
  let call : Call Work := ⟨"ping", Unit, pure ()⟩
  let program := (system settings Work).program call
  let fst : List (Event (Exec.sum Work)) :=
    [⟨.inl (.inc .requests ["ping"]), ()⟩, ⟨.inl .tryEnter, WaitOutcome.granted⟩]
  let snd : List (Event (Exec.sum Work)) :=
    [⟨.inl (.inc .requests ["ping"]), ()⟩, ⟨.inl .tryEnter, WaitOutcome.timedOut⟩,
      ⟨.inl .incrementWaiting, (1 : ℤ)⟩, ⟨.inl (.enqueue 10), ()⟩]
  obtain ⟨p, hp⟩ : ∃ p, program.Steps fst p := ⟨_, .call _ (.call _ (.refl _))⟩
  obtain ⟨q, hq⟩ : ∃ q, program.Steps snd q := ⟨_, .call _ (.call _ (.call _ (.call _ (.refl _))))⟩
  have heffects₁ : (system settings Work).Effects ⟨1, 0⟩ fst ⟨0, 0⟩ :=
    .cons rfl (.cons ⟨Nat.one_pos, rfl⟩ (.nil _))
  have heffects₂ : (system settings Work).Effects ⟨0, 0⟩ snd ⟨0, 1⟩ :=
    .cons rfl (.cons rfl (.cons ⟨rfl, rfl⟩ (.cons rfl (.nil _))))
  have hspawned : (system settings Work).Reachable
      ⟨⟨1, 0⟩, [] ++ ⟨call, [], program⟩ :: [⟨call, [], program⟩]⟩ :=
    (Relation.ReflTransGen.refl.tail (.spawn _ call)).tail (.spawn _ call)
  have hfirst : (system settings Work).Reachable
      ⟨⟨0, 0⟩, [⟨call, [] ++ fst, p⟩] ++ ⟨call, [], program⟩ :: []⟩ := hspawned.steps hp heffects₁
  exact ⟨_, rfl, capacity_of_reachable (hfirst.steps hq heffects₂)⟩

end DiagnosticsExecutor

end LookingGlass
