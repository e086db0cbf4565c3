import LookingGlass.Diagnostics.ExecutorCapacity
import LookingGlass.Foundations.Moments

/-!
# Who is told that the queue is full

A call is refused when its increment of the counter is answered more than `MaxQueued`. The counter
counts more than those who wait: a refused call is counted until it has taken its increment back,
and so is a call whose wait has ended, with a slot or without one. A call that increments in between
is refused although there is room in the queue.

The moment of the increment is a state with all other calls in it, each with the calls that it has
made so far, and what it is to the counter is read off these. It is stale if it is on the counter
and does not wait. Where no stale call is around when an increment is answered too large a count,
whoever is on the counter waits, and the queue is really full.

## Which condition, and why not a weaker one

The condition is that nobody is stale when an increment is answered too large a count. It could be
weakened: stale calls may be around as long as enough others wait. But whether enough others wait is
what the statement is about, and a condition that said so would be the statement itself. Staleness
is read off the calls that others have made, at that moment and without looking at the counter.

It is about runs and not about states, because a refusal is noticed by its caller only later, when
the state has changed. The moment of the increment is found in the trace of the run.

## Main results

* `DiagnosticsExecutor.waiting_eq_of_possible` — whom the counter counts, at any increment
* `DiagnosticsExecutor.fullWhenRefused_of_trace` — runs in which whoever is refused met a full queue
-/

namespace LookingGlass

open Utf16 Interaction

namespace DiagnosticsExecutor

variable {W : Interface} {settings : DiagnosticsOptions}

/-- Past the test, and the wait has not ended. -/
def isWaiting (settings : DiagnosticsOptions) (past : List (Event (Exec.sum W))) : Bool :=
  isCounted past && !(past.any (isRefusal settings) || past.any isWaitEnd)

/-- Still counted, but refused, or no longer waiting. -/
def isStale (settings : DiagnosticsOptions) (past : List (Event (Exec.sum W))) : Bool :=
  isCounted past && (past.any (isRefusal settings) || past.any isWaitEnd)

abbrev ExecMoment (W : Interface) := Moment (Exec.sum W) (Call W) Shared

/-- The others that are admitted to the queue. -/
def waitingOthers (settings : DiagnosticsOptions) (m : ExecMoment W) : ℕ :=
  m.others.countP fun t => isWaiting settings t.past

/-- An increment is answered too large a count only where nobody else is counted without waiting.
Who is counted and who is waiting is read off the calls of the others, up to the moment of the
increment. -/
def NoneStale (settings : DiagnosticsOptions) (m : ExecMoment W) : Prop :=
  isRefusal settings m.event = true → ∀ t ∈ m.others, isStale settings t.past = false

/-- Whoever has been counted as rejected by a full queue incremented the counter at a moment at
which at least `MaxQueued` others were admitted to the queue. Those others need not be in the queue
any more when the rejection is counted. -/
def FullWhenRefused (settings : DiagnosticsOptions) (ms : List (ExecMoment W))
    (c : State W) : Prop :=
  ∀ (i : ℕ) t, c.threads[i]? = some t → ⟨.inl (.inc .rejected ["queue_full"]), ()⟩ ∈ t.past →
    ∃ m ∈ ms, m.position = i ∧ m.event.op = .inl .incrementWaiting ∧
      settings.maxQueued ≤ waitingOthers settings m

/-! ### At the moment of an increment

The counter is exact at any time, by the invariant; what is new is whom it counts at the moment of
an increment. -/

theorem countP_isCounted (settings : DiagnosticsOptions)
    (ts : List (Thread (Exec.sum W) (Call W))) :
    ts.countP (fun t => isCounted t.past) =
      ts.countP (fun t => isWaiting settings t.past) +
        ts.countP fun t => isStale settings t.past := by
  induction ts with
  | nil => rfl
  | cons t ts ih =>
    rw [List.countP_cons, List.countP_cons, List.countP_cons, ih, isWaiting, isStale]
    cases isCounted t.past <;>
      cases t.past.any (isRefusal settings) || t.past.any isWaitEnd <;> simp <;> omega

/-- The counter shows the others that wait and the stale ones. -/
theorem waiting_eq_of_possible {m : ExecMoment W} (h : (system settings W).Possible m)
    (hincrement : m.event.op = .inl .incrementWaiting) :
    m.shared.waiting =
      waitingOthers settings m + m.others.countP fun t => isStale settings t.past := by
  obtain ⟨next, hrest⟩ := h.rest
  have hallowed := (System.follows_of_reachable follows_program h.reachable _ m.caller_mem)
  rw [hrest] at hallowed
  have harrived : m.caller.phase (protocol settings) (fun _ => .arrived) = .arrived := by
    have hop := hallowed.1
    rw [hincrement] at hop
    exact hop
  have hself := (knows_of_reachable h.reachable _ m.caller_mem).isCounted_eq
  rw [harrived] at hself
  rw [waitingOthers, ← Nat.cast_add, ← countP_isCounted]
  refine (waiting_eq_countP h.reachable).trans (congrArg Nat.cast ?_)
  rw [Moment.config, Moment.others, countP_middle, List.countP_append, hself]
  rfl

/-! ### Who is refused

A call reports a full queue only after its own increment was answered too large a count. -/

/-- Only a call that has been refused counts itself as rejected by a full queue. -/
abbrev refusing (settings : DiagnosticsOptions) : Protocol (Exec.sum W) Bool :=
  .onlyAfter (isRefusal settings) (· = .inl (.inc .rejected ["queue_full"]))

theorem eq_of_rejected {label label' : Str}
    (h : (.inl (.inc .rejected [label]) : (Exec.sum W).Op) = .inl (.inc .rejected [label'])) :
    label = label' := by
  injection h with h
  injection h with _ h
  exact (List.cons.inj h).1

/-- The code of a rejection is no `queue_full`. -/
theorem follows_refusing_handle {α : Type} {type : Str} {ex : Exn} {refused : Bool} :
    Task.Follows (refusing settings) (fun _ _ => True)
      (handle type ex : Task (Exec.sum W) Exn α) refused := by
  cases ex with
  | operationCanceled =>
    refine Task.follows_bind.mpr ⟨fun h => (nomatch h), fun (requested : Bool) => ?_⟩
    refine Task.follows_ite.mpr ⟨fun _ => ?_, fun _ => ?_⟩
    · exact Task.follows_bind.mpr ⟨fun h => (nomatch h), fun _ => trivial⟩
    · exact Task.follows_bind.mpr ⟨fun h => (nomatch h), fun _ => trivial⟩
  | lookingGlass ex =>
    refine Task.follows_bind.mpr ⟨fun h => (nomatch h), fun _ => ?_⟩
    refine Task.follows_ite.mpr ⟨fun hcode => ?_, fun _ => trivial⟩
    refine Task.follows_bind.mpr ⟨fun h => ?_, fun _ => trivial⟩
    rw [eq_of_rejected h] at hcode
    exact absurd hcode (by decide)
  | _ => exact Task.follows_bind.mpr ⟨fun h => (nomatch h), fun _ => trivial⟩

theorem follows_refusing_acquireAsync {type : Str} :
    Task.Follows (refusing (W := W) settings) (fun _ _ => True) (acquireAsync type settings)
      false := by
  refine Task.follows_bind.mpr ⟨fun h => (nomatch h), WaitOutcome.forall.mpr ⟨trivial, ?_, trivial⟩⟩
  refine Task.follows_bind.mpr ⟨fun h => (nomatch h), fun (waiting : ℤ) => ?_⟩
  refine Task.follows_ite.mpr ⟨fun hfull => ?_, fun _ => ?_⟩
  · refine Task.follows_bind.mpr ⟨fun h => (nomatch h), fun _ => ?_⟩
    refine Task.follows_bind.mpr ⟨fun _ => ?_, fun _ => ?_⟩
    · show (decide (waiting > settings.maxQueued) || false) = true
      rw [decide_eq_true hfull]
      rfl
    · exact Task.follows_bind.mpr ⟨fun h => (nomatch h), fun _ => trivial⟩
  · refine Task.follows_tryFinally.mpr (Task.follows_bind.mpr ⟨fun h => (nomatch h), fun _ => ?_⟩)
    have hdecrement : ∀ refused (x : Except Exn Unit), Task.Follows (refusing (W := W) settings)
        (fun _ _ => True) (exec .decrementWaiting .ok : Task (Exec.sum W) Exn Unit) refused :=
      fun _ _ => ⟨fun h => (nomatch h), fun _ => trivial⟩
    refine Task.follows_bind.mpr ⟨fun h => (nomatch h), WaitOutcome.forall.mpr
      ⟨hdecrement _ (.ok ()), ?_, hdecrement _ (.ok ())⟩⟩
    refine Task.follows_bind.mpr ⟨fun h => absurd (eq_of_rejected h) (by decide),
      fun _ => ?_⟩
    exact Task.follows_bind.mpr ⟨fun h => (nomatch h), fun _ => hdecrement _ (.ok ())⟩

theorem follows_refusing (call : Call W) :
    ((system settings W).program call).Follows (refusing settings) (fun _ _ => True) false := by
  refine Prog.follows_bind.mpr ?_
  refine Task.follows_bind.mpr ⟨fun h => (nomatch h), fun _ => ?_⟩
  refine Task.follows_bind.mpr (follows_refusing_acquireAsync.mono fun refused x _ => ?_)
  cases x with
  | error ex => exact trivial
  | ok _ =>
  refine Task.follows_bind.mpr ⟨fun h => (nomatch h), fun _ => ?_⟩
  refine Task.follows_bind.mpr ⟨fun h => (nomatch h), fun _ => ?_⟩
  refine Task.follows_tryFinally.mpr (Task.follows_tryCatch.mpr (Task.follows_bind.mpr
    ⟨fun h => (nomatch h), fun _ => ?_⟩))
  have hfinish : ∀ refused (post : Bool → Except Exn Unit → Prop), (∀ refused x, post refused x) →
      Task.Follows (refusing (W := W) settings) post (do
        exec (.observeDuration call.type) .ok
        exec .activeDec .ok
        exec .release released) refused := fun _ _ hpost =>
    Task.follows_bind.mpr ⟨fun h => (nomatch h), fun _ => Task.follows_bind.mpr
      ⟨fun h => (nomatch h), fun _ => ⟨fun h => (nomatch h), fun _ => hpost _ _⟩⟩⟩
  refine Prog.follows_right (fun _ => ⟨fun h => (nomatch h), fun _ => Bool.or_false _⟩) _
    fun x => ?_
  cases x with
  | ok a => exact hfinish _ _ fun _ _ => trivial
  | error ex =>
    exact follows_refusing_handle.mono fun _ _ _ => hfinish _ _ fun _ _ => trivial

/-- **Refused by a full queue only**: in every run in which nobody is stale when an increment is
answered too large a count, whoever is rejected by a full queue met `MaxQueued` others in it. -/
theorem fullWhenRefused_of_trace {ms : List (ExecMoment W)} {c : State W}
    (h : (system settings W).Trace ms c) (hnone : ∀ m ∈ ms, NoneStale settings m) :
    FullWhenRefused settings ms c := by
  intro i t ht hrejected
  obtain ⟨e, he, hrefusal⟩ :=
    System.exists_earlier follows_refusing h.reachable (List.mem_of_getElem? ht) hrejected rfl
  obtain ⟨m, hm, hposition, -, rfl⟩ := h.exists_moment ht he
  have hpossible := h.possible m hm
  obtain ⟨s', heffect⟩ := hpossible.effect
  obtain ⟨hincrement, hfull⟩ : m.event.op = .inl .incrementWaiting ∧
      m.shared.waiting + 1 > settings.maxQueued := by
    obtain ⟨s, before, caller, after, op, answer⟩ := m
    match op, answer, hrefusal, heffect with
    | .inl .incrementWaiting, waiting, hrefusal, heffect =>
      have hmore : (waiting : ℤ) > settings.maxQueued := of_decide_eq_true hrefusal
      obtain ⟨hwaiting, -⟩ : waiting = s.waiting + 1 ∧ _ := heffect
      exact ⟨rfl, hwaiting ▸ hmore⟩
  have hstale : m.others.countP (fun t => isStale settings t.past) = 0 :=
    List.countP_eq_zero.mpr fun t ht => Bool.eq_false_iff.mp (hnone m hm hrefusal t ht)
  have hwaiting := waiting_eq_of_possible hpossible hincrement
  refine ⟨m, hm, hposition, hincrement, ?_⟩
  omega

/-! One slot and room for one in the queue. -/

section Example

def tight : DiagnosticsOptions := { maxConcurrent := 1, maxQueued := 1 }

def pinging : Call Work := ⟨"ping", Unit, pure ()⟩

def takesSlot : List (Event (Exec.sum Work)) :=
  [⟨.inl (.inc .requests ["ping"]), ()⟩, ⟨.inl .tryEnter, WaitOutcome.granted⟩]

def enqueues : List (Event (Exec.sum Work)) :=
  [⟨.inl (.inc .requests ["ping"]), ()⟩, ⟨.inl .tryEnter, WaitOutcome.timedOut⟩,
    ⟨.inl .incrementWaiting, (1 : ℤ)⟩, ⟨.inl (.enqueue 10), ()⟩]

def overflows : List (Event (Exec.sum Work)) :=
  [⟨.inl (.inc .requests ["ping"]), ()⟩, ⟨.inl .tryEnter, WaitOutcome.timedOut⟩,
    ⟨.inl .incrementWaiting, (2 : ℤ)⟩]

def takesBack : List (Event (Exec.sum Work)) :=
  [⟨.inl .decrementWaiting, ()⟩, ⟨.inl (.inc .rejected ["queue_full"]), ()⟩]

def works : List (Event (Exec.sum Work)) :=
  [⟨.inl .activeInc, ()⟩, ⟨.inl (.cancelAfter 45), ()⟩, ⟨.inl .startWork, ()⟩,
    ⟨.inl (.observeDuration "ping"), ()⟩, ⟨.inl .activeDec, ()⟩, ⟨.inl .release, true⟩]

def leavesQueue : List (Event (Exec.sum Work)) :=
  [⟨.inl .awaitSlot, WaitOutcome.granted⟩, ⟨.inl .decrementWaiting, ()⟩]

/-- A call is rejected while another one is in the queue. -/
theorem fullWhenRefused_of_three :
    ∃ ms, ∃ c : State Work, (system tight Work).Trace ms c ∧
      phases tight c = [.holding, .queued, .left] ∧ FullWhenRefused tight ms c := by
  let program := (system tight Work).program pinging
  obtain ⟨p, hp⟩ : ∃ p, program.Steps takesSlot p := ⟨_, .call _ (.call _ (.refl _))⟩
  obtain ⟨q, hq⟩ : ∃ q, program.Steps enqueues q :=
    ⟨_, .call _ (.call _ (.call _ (.call _ (.refl _))))⟩
  obtain ⟨r, hr⟩ : ∃ r, program.Steps (overflows ++ takesBack) r :=
    ⟨_, .call _ (.call _ (.call _ (.call _ (.call _ (.refl _)))))⟩
  have htake : (system tight Work).Effects ⟨1, 0⟩ takesSlot ⟨0, 0⟩ :=
    .cons rfl (.cons ⟨Nat.one_pos, rfl⟩ (.nil _))
  have henqueue : (system tight Work).Effects ⟨0, 0⟩ enqueues ⟨0, 1⟩ :=
    .cons rfl (.cons rfl (.cons ⟨rfl, rfl⟩ (.cons rfl (.nil _))))
  have hreject : (system tight Work).Effects ⟨0, 1⟩ (overflows ++ takesBack) ⟨0, 1⟩ :=
    .cons rfl (.cons rfl (.cons ⟨rfl, rfl⟩ (.cons rfl (.cons rfl (.nil _)))))
  have h₀ : (system tight Work).Trace [] ⟨⟨1, 0⟩, [] ++ ⟨pinging, [], program⟩ ::
      [⟨pinging, [], program⟩, ⟨pinging, [], program⟩]⟩ :=
    ((System.Trace.start.spawn pinging).spawn pinging).spawn pinging
  obtain ⟨ms₁, h₁, hms₁⟩ := h₀.steps hp htake
  obtain ⟨ms₂, h₂, hms₂⟩ := System.Trace.steps
    (show (system tight Work).Trace _ ⟨_, [⟨pinging, takesSlot, p⟩] ++
      ⟨pinging, [], program⟩ :: [⟨pinging, [], program⟩]⟩ from h₁) hq henqueue
  obtain ⟨ms₃, h₃, hms₃⟩ := System.Trace.steps
    (show (system tight Work).Trace _ ⟨_, [⟨pinging, takesSlot, p⟩, ⟨pinging, enqueues, q⟩] ++
      ⟨pinging, [], program⟩ :: []⟩ from h₂) hr hreject
  refine ⟨_, _, h₃, rfl, fullWhenRefused_of_trace h₃ fun m hm _ => ?_⟩
  rw [Moment.others]
  simp only [List.mem_append] at hm
  rcases hm with ((hm | hm) | hm) | hm
  · exact absurd hm List.not_mem_nil
  · rw [(hms₁ m hm).1, (hms₁ m hm).2]
    exact List.forall_mem_cons.mpr ⟨rfl, List.forall_mem_singleton.mpr rfl⟩
  · rw [(hms₂ m hm).1, (hms₂ m hm).2]
    exact List.forall_mem_cons.mpr ⟨rfl, List.forall_mem_singleton.mpr rfl⟩
  · rw [(hms₃ m hm).1, (hms₃ m hm).2]
    exact List.forall_mem_cons.mpr ⟨rfl, List.forall_mem_singleton.mpr rfl⟩

/-- The third call is refused, as it should be. Before it takes its increment back the first one
ends and the second one gets its slot, so that nobody is in the queue; and the fourth one is
refused. -/
theorem not_fullWhenRefused_of_four :
    ∃ ms, ∃ c : State Work, (system tight Work).Trace ms c ∧
      phases tight c = [.left, .holding, .overflowed, .left] ∧ ¬ FullWhenRefused tight ms c := by
  let program := (system tight Work).program pinging
  obtain ⟨p, p', hp, hp'⟩ : ∃ p p', program.Steps takesSlot p ∧ p.Steps works p' :=
    ⟨_, _, .call _ (.call _ (.refl _)),
      .call _ (.call _ (.call _ (.call _ (.call _ (.call _ (.refl _))))))⟩
  obtain ⟨q, q', hq, hq'⟩ : ∃ q q', program.Steps enqueues q ∧ q.Steps leavesQueue q' :=
    ⟨_, _, .call _ (.call _ (.call _ (.call _ (.refl _)))), .call _ (.call _ (.refl _))⟩
  obtain ⟨r, hr⟩ : ∃ r, program.Steps overflows r := ⟨_, .call _ (.call _ (.call _ (.refl _)))⟩
  obtain ⟨o, ho⟩ : ∃ o, program.Steps (overflows ++ takesBack) o :=
    ⟨_, .call _ (.call _ (.call _ (.call _ (.call _ (.refl _)))))⟩
  have htake : (system tight Work).Effects ⟨1, 0⟩ takesSlot ⟨0, 0⟩ :=
    .cons rfl (.cons ⟨Nat.one_pos, rfl⟩ (.nil _))
  have henqueue : (system tight Work).Effects ⟨0, 0⟩ enqueues ⟨0, 1⟩ :=
    .cons rfl (.cons rfl (.cons ⟨rfl, rfl⟩ (.cons rfl (.nil _))))
  have hoverflow : (system tight Work).Effects ⟨0, 1⟩ overflows ⟨0, 2⟩ :=
    .cons rfl (.cons rfl (.cons ⟨rfl, rfl⟩ (.nil _)))
  have hwork : (system tight Work).Effects ⟨0, 2⟩ works ⟨1, 2⟩ :=
    .cons rfl (.cons rfl (.cons rfl (.cons rfl (.cons rfl (.cons ⟨by decide, rfl⟩ (.nil _))))))
  have hleave : (system tight Work).Effects ⟨1, 2⟩ leavesQueue ⟨0, 1⟩ :=
    .cons ⟨Nat.one_pos, rfl⟩ (.cons rfl (.nil _))
  have hreject : (system tight Work).Effects ⟨0, 1⟩ (overflows ++ takesBack) ⟨0, 1⟩ :=
    .cons rfl (.cons rfl (.cons ⟨rfl, rfl⟩ (.cons rfl (.cons rfl (.nil _)))))
  have h₀ : (system tight Work).Trace [] ⟨⟨1, 0⟩, [] ++ ⟨pinging, [], program⟩ ::
      [⟨pinging, [], program⟩, ⟨pinging, [], program⟩, ⟨pinging, [], program⟩]⟩ :=
    (((System.Trace.start.spawn pinging).spawn pinging).spawn pinging).spawn pinging
  obtain ⟨ms₁, h₁, hms₁⟩ := h₀.steps hp htake
  obtain ⟨ms₂, h₂, hms₂⟩ := System.Trace.steps
    (show (system tight Work).Trace _ ⟨_, [⟨pinging, takesSlot, p⟩] ++
      ⟨pinging, [], program⟩ :: [⟨pinging, [], program⟩, ⟨pinging, [], program⟩]⟩ from h₁) hq
      henqueue
  obtain ⟨ms₃, h₃, hms₃⟩ := System.Trace.steps
    (show (system tight Work).Trace _ ⟨_, [⟨pinging, takesSlot, p⟩, ⟨pinging, enqueues, q⟩] ++
      ⟨pinging, [], program⟩ :: [⟨pinging, [], program⟩]⟩ from h₂) hr hoverflow
  obtain ⟨ms₄, h₄, hms₄⟩ := System.Trace.steps
    (show (system tight Work).Trace _ ⟨_, [] ++ ⟨pinging, takesSlot, p⟩ ::
      [⟨pinging, enqueues, q⟩, ⟨pinging, overflows, r⟩, ⟨pinging, [], program⟩]⟩ from h₃) hp' hwork
  obtain ⟨ms₅, h₅, hms₅⟩ := System.Trace.steps
    (show (system tight Work).Trace _ ⟨_, [⟨pinging, takesSlot ++ works, p'⟩] ++
      ⟨pinging, enqueues, q⟩ :: [⟨pinging, overflows, r⟩, ⟨pinging, [], program⟩]⟩ from h₄) hq'
      hleave
  obtain ⟨ms₆, h₆, hms₆⟩ := System.Trace.steps
    (show (system tight Work).Trace _ ⟨_, [⟨pinging, takesSlot ++ works, p'⟩,
      ⟨pinging, enqueues ++ leavesQueue, q'⟩, ⟨pinging, overflows, r⟩] ++
      ⟨pinging, [], program⟩ :: []⟩ from h₅) ho hreject
  refine ⟨_, _, h₆, rfl, fun hfull => ?_⟩
  obtain ⟨m, hm, hposition, -, hwaiting⟩ := hfull 3 _ rfl (by simp [overflows, takesBack])
  -- only the last stretch is one of the fourth call
  simp only [List.mem_append] at hm
  rcases hm with (((((hm | hm) | hm) | hm) | hm) | hm) | hm
  · exact absurd hm List.not_mem_nil
  · exact absurd hposition (by simp [Moment.position, hms₁ m hm])
  · exact absurd hposition (by simp [Moment.position, hms₂ m hm])
  · exact absurd hposition (by simp [Moment.position, hms₃ m hm])
  · exact absurd hposition (by simp [Moment.position, hms₄ m hm])
  · exact absurd hposition (by simp [Moment.position, hms₅ m hm])
  · rw [waitingOthers, Moment.others, (hms₆ m hm).1, (hms₆ m hm).2] at hwaiting
    exact absurd (show 1 ≤ 0 from hwaiting) (by decide)

end Example

end DiagnosticsExecutor

end LookingGlass
