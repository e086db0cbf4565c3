import LookingGlass.Diagnostics.Environment
import LookingGlass.Foundations.Interleaving

/-!
# The executor

`executeAsync` runs a piece of work in one of `MaxConcurrent` slots. A call that finds no free slot
queues for one, unless `MaxQueued` others are counted as waiting already; the count is a number of
its own next to the semaphore, incremented before it is tested.

The calls of the executor are those on the semaphore, the counter and the metrics; those of the
work are a parameter `W`, reached through the sum of the two interfaces. `startWork` makes no call
of the source: it marks the moment the work function is invoked.

## The slot and the `finally`

The slot is taken before the `try` and given back in the `finally` after it. In between there are
two statements that cannot fail, so whoever holds a slot gives it back. The wait for a slot is
outside of the `try`: what ends it is not counted as a failure there, and is counted by the wait
itself if it timed out, but not if it was cancelled.

## Main results

* `DiagnosticsExecutor.executeAsync_spec` — what one call does with its work
-/

namespace LookingGlass

open Utf16 Interaction

inductive Counter
  | requests
  | requestsFailed
  | rejected
  deriving DecidableEq

/-- How a wait on a semaphore ends. -/
inductive WaitOutcome
  | granted
  | timedOut
  | cancelled
  deriving DecidableEq

@[simp] theorem WaitOutcome.forall {p : WaitOutcome → Prop} :
    (∀ outcome, p outcome) ↔ p granted ∧ p timedOut ∧ p cancelled :=
  ⟨fun h => ⟨h _, h _, h _⟩, fun ⟨hg, ht, hc⟩ outcome => by cases outcome <;> assumption⟩

inductive ExecOp
  | inc (counter : Counter) (labels : List Str)
  | observeDuration (type : Str)
  | activeInc
  | activeDec
  /-- `_slots.WaitAsync(0, cancellationToken)` -/
  | tryEnter
  /-- `_slots.WaitAsync(timeout, cancellationToken)`, until it is pending -/
  | enqueue (timeoutSeconds : ℤ)
  /-- The end of the pending wait. -/
  | awaitSlot
  /-- `_slots.Release()`, which throws where no slot is taken. -/
  | release
  | incrementWaiting
  | decrementWaiting
  | cancelAfter (seconds : ℤ)
  | isCancellationRequested
  | startWork

abbrev ExecOp.Ret : ExecOp → Type
  | tryEnter => WaitOutcome
  | awaitSlot => WaitOutcome
  | release => Bool
  | incrementWaiting => ℤ
  | isCancellationRequested => Bool
  | _ => Unit

abbrev Exec : Interface := ⟨ExecOp, ExecOp.Ret⟩

namespace DiagnosticsExecutor

variable {W : Interface} {α : Type}

/-- Make a call of the executor's own. -/
def exec (op : ExecOp) (f : ExecOp.Ret op → Except Exn α) : Task (Exec.sum W) Exn α :=
  Task.call (I := Exec.sum W) (.inl op) f

def inc (counter : Counter) (labels : List Str) : Task (Exec.sum W) Exn Unit :=
  exec (.inc counter labels) .ok

/-- What awaiting a wait returns or throws. -/
def entered : WaitOutcome → Except Exn Bool
  | .granted => .ok true
  | .timedOut => .ok false
  | .cancelled => .error .operationCanceled

/-- What a release returns or throws: a semaphore that is full already throws. -/
def released : Bool → Except Exn Unit
  | true => .ok ()
  | false => .error .other

def acquireAsync (type : Str) (settings : DiagnosticsOptions) : Task (Exec.sum W) Exn Unit := do
  let hasSlot ← exec .tryEnter entered
  if hasSlot then pure ()
  else
    let waiting : ℤ ← exec .incrementWaiting .ok
    if waiting > settings.maxQueued then
      exec .decrementWaiting .ok
      inc .rejected ["queue_full"]
      inc .requestsFailed [type, ProblemCodes.busy]
      throw LookingGlassException.busyError
    else
      try
        exec (.enqueue settings.queueWaitSeconds) .ok
        let hasSlot ← exec .awaitSlot entered
        if !hasSlot then
          inc .rejected ["queue_timeout"]
          inc .requestsFailed [type, ProblemCodes.busy]
          throw LookingGlassException.busyError
      finally
        exec .decrementWaiting .ok

/-- The `catch` clauses around the work. -/
def handle (type : Str) (ex : Exn) : Task (Exec.sum W) Exn α :=
  match ex with
  | .operationCanceled => do
    let requested : Bool ← exec .isCancellationRequested .ok
    if !requested then
      inc .requestsFailed [type, ProblemCodes.timeout]
      throw LookingGlassException.timeoutError
    else
      inc .requestsFailed [type, ProblemCodes.cancelled]
      throw Exn.operationCanceled
  | .lookingGlass ex => do
    inc .requestsFailed [type, ex.code]
    if ex.code = ProblemCodes.validationFailed ∨ ex.code = ProblemCodes.destinationBlocked then
      inc .rejected [ex.code]
    throw (Exn.lookingGlass ex)
  | ex => do
    inc .requestsFailed [type, ProblemCodes.internal]
    throw ex

def executeAsync (settings : DiagnosticsOptions) (type : Str) (work : Task W Exn α) :
    Task (Exec.sum W) Exn α := do
  inc .requests [type]
  acquireAsync type settings
  exec .activeInc .ok
  exec (.cancelAfter settings.timeoutSeconds) .ok
  try
    exec .startWork .ok
    work.right
  catch ex => handle type ex
  finally
    exec (.observeDuration type) .ok
    exec .activeDec .ok
    exec .release released

/-! ### One call of the executor

The calls of the executor itself are on the left of the sum. A part without calls of the work can be
passed over. -/

/-- The calls of the work in a run of the executor. -/
def workEvents (es : List (Event (Exec.sum W))) : List (Event W) := es.filterMap Event.right?

theorem onlyLeft_acquireAsync (type : Str) (settings : DiagnosticsOptions) :
    (acquireAsync (W := W) type settings).OnlyLeft := by
  simp [Task.OnlyLeft, acquireAsync, exec, inc, entered, Interface.sumRet]

theorem onlyLeft_handle (type : Str) (ex : Exn) : (handle (W := W) (α := α) type ex).OnlyLeft := by
  cases ex <;> simp [Task.OnlyLeft, handle, exec, inc, Interface.sumRet]

theorem onlyLeft_exec (op : ExecOp) (f : ExecOp.Ret op → Except Exn α) :
    (exec (W := W) op f).OnlyLeft := ⟨rfl, fun _ => trivial⟩

/-- After a part without calls of the work, the calls of the work are those of the rest. -/
theorem workEvents_of_runs_bind {β : Type} {t : Task (Exec.sum W) Exn α}
    {f : α → Task (Exec.sum W) Exn β} (ht : t.OnlyLeft) {es : List (Event (Exec.sum W))}
    {r : Except Exn β} (h : Task.Runs (t >>= f) es r) :
    (workEvents es = [] ∧ ∃ ex, r = .error ex) ∨
      ∃ a snd, workEvents es = workEvents snd ∧ Task.Runs (f a) snd r := by
  rcases Task.runs_bind.mp h with ⟨ex, hrun, rfl⟩ | ⟨fst, a, snd, rfl, hrun, hrest⟩
  · exact .inl ⟨ht.filterMap_right? hrun, ex, rfl⟩
  · refine .inr ⟨a, snd, ?_, hrest⟩
    rw [workEvents, List.filterMap_append, ht.filterMap_right? hrun, List.nil_append, workEvents]

theorem workEvents_of_runs_tryFinally {t : Task (Exec.sum W) Exn α}
    {finish : Task (Exec.sum W) Exn Unit} (hfinish : finish.OnlyLeft)
    {es : List (Event (Exec.sum W))} {r : Except Exn α}
    (h : Task.Runs (tryFinally t finish) es r) :
    ∃ x fst, workEvents es = workEvents fst ∧ Task.Runs t fst x ∧ ∀ a, r = .ok a → x = .ok a := by
  obtain ⟨fst, x, snd, y, rfl, ht, hf, rfl⟩ := Task.runs_tryFinally.mp h
  refine ⟨x, fst, ?_, ht, fun a ha => ?_⟩
  · rw [workEvents, List.filterMap_append, hfinish.filterMap_right? hf, List.append_nil, workEvents]
  · cases y with
    | error e => exact absurd ha (by simp [Except.bind])
    | ok _ => exact ha

theorem workEvents_of_runs_tryCatch {t : Task (Exec.sum W) Exn α}
    {handle : Exn → Task (Exec.sum W) Exn α} (hhandle : ∀ ex, (handle ex).OnlyLeft)
    (hfail : ∀ ex es r, Task.Runs (handle ex) es r → ∃ ex', r = .error ex')
    {es : List (Event (Exec.sum W))} {r : Except Exn α}
    (h : Task.Runs (tryCatch t handle) es r) :
    ∃ x fst, workEvents es = workEvents fst ∧ Task.Runs t fst x ∧ ∀ a, r = .ok a → x = .ok a := by
  rcases Task.runs_tryCatch.mp h with ⟨a, ht, rfl⟩ | ⟨fst, ex, snd, rfl, ht, hh⟩
  · exact ⟨.ok a, es, rfl, ht, fun _ ha => ha⟩
  · refine ⟨.error ex, fst, ?_, ht, fun a ha => ?_⟩
    · rw [workEvents, List.filterMap_append, (hhandle ex).filterMap_right? hh, List.append_nil,
        workEvents]
    · obtain ⟨ex', rfl⟩ := hfail ex snd r hh
      exact absurd ha (by simp)

/-- A handler never returns a value. -/
theorem handle_fails {type : Str} {ex : Exn} {es : List (Event (Exec.sum W))} {r : Except Exn α}
    (h : Task.Runs (handle type ex) es r) : ∃ ex', r = .error ex' := by
  have hfollows : Task.Follows (G := Unit) ⟨fun _ _ => True, fun g _ => g⟩
      (fun _ x => ∃ ex', x = .error ex') (handle (W := W) (α := α) type ex) () := by
    cases ex <;> simp [handle, exec, inc, Interface.sumRet]
  exact (Prog.Follows.run hfollows h).1

/-- **What one call of the executor does with its work**: nothing, or run it once, to its end; a
value that is returned is the work's own. -/
theorem executeAsync_spec {settings : DiagnosticsOptions} {type : Str} {work : Task W Exn α}
    {es : List (Event (Exec.sum W))} {r : Except Exn α}
    (h : Task.Runs (executeAsync settings type work) es r) :
    (workEvents es = [] ∧ ∃ ex, r = .error ex) ∨
      ∃ x, Task.Runs work (workEvents es) x ∧ ∀ a, r = .ok a → x = .ok a := by
  rcases workEvents_of_runs_bind (onlyLeft_exec _ _) h with hnone | ⟨_, es₁, he₁, h₁⟩
  · exact .inl hnone
  rw [he₁]
  rcases workEvents_of_runs_bind (onlyLeft_acquireAsync _ _) h₁ with hnone | ⟨_, es₂, he₂, h₂⟩
  · exact .inl hnone
  rw [he₂]
  rcases workEvents_of_runs_bind (onlyLeft_exec _ _) h₂ with hnone | ⟨_, es₃, he₃, h₃⟩
  · exact .inl hnone
  rw [he₃]
  rcases workEvents_of_runs_bind (onlyLeft_exec _ _) h₃ with hnone | ⟨_, es₄, he₄, h₄⟩
  · exact .inl hnone
  rw [he₄]
  have hfinish : Task.OnlyLeft (I := Exec) (J := W) (ε := Exn) (do
      exec (.observeDuration type) .ok
      exec .activeDec .ok
      exec .release released) := by
    simp [Task.OnlyLeft, exec, Interface.sumRet]
  obtain ⟨x, es₅, he₅, h₅, hx⟩ := workEvents_of_runs_tryFinally hfinish h₄
  obtain ⟨y, es₆, he₆, h₆, hy⟩ := workEvents_of_runs_tryCatch (onlyLeft_handle type)
    (fun _ _ _ => handle_fails) h₅
  rw [he₅, he₆]
  rcases workEvents_of_runs_bind (onlyLeft_exec _ _) h₆ with ⟨hnil, ex, rfl⟩ | ⟨_, es₇, he₇, h₇⟩
  · refine .inl ⟨hnil, ?_⟩
    cases r with
    | error ex => exact ⟨ex, rfl⟩
    | ok a => exact absurd (hy a (hx a rfl)) (by simp)
  · obtain ⟨tail, rfl, hwork⟩ := Task.runs_right.mp h₇
    refine .inr ⟨y, ?_, fun a ha => hy a (hx a ha)⟩
    rwa [he₇, workEvents, Event.filterMap_right?_map_right]

end DiagnosticsExecutor

end LookingGlass
