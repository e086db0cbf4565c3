import LookingGlass.Diagnostics.ExecutorCapacity

/-!
# The counters of the executor

The alert on failures divides one counter by another, so every call should be counted as a request,
and every call that fails as a failure. Failures are counted where they are noticed, and one place
does not notice: a wait for a slot that is cancelled ends the call before the `try` that counts
cancelled work.

A tally keeps what the calls of one `executeAsync` do to the two counters, next to whether a wait
was cancelled and whether a release was refused. The last does not happen in reachable states: only
working calls release, and they hold a slot.

## One sum over all calls

Once every call is done, each of them is a success, or counted as a failure, or had a cancelled
wait, and no call is two of these. So the requests are the sum of the three, and the two counters
and the successes add up if and only if the third kind is empty. The condition for one call is the
same as the condition for the totals, which is why one theorem states both.

A call is a success by what it returned, and this is not decidable from the counters. It is decided
classically, and only for counting.

## Main results

* `DiagnosticsExecutor.follows_tally` — the tally of one call
* `DiagnosticsExecutor.accounted_iff` — which calls are counted right, in every reachable state, and
  when the counters add up
-/

namespace LookingGlass

open Utf16 Interaction

namespace DiagnosticsExecutor

variable {W : Interface} {settings : DiagnosticsOptions} {α : Type}

/-! ### The tally of a call

The labels are part of the tally: a failure must be counted once, and under the type of its request.
-/

/-- The labels that an event increments a counter with. -/
def labels (counter : Counter) : Event (Exec.sum W) → List (List Str)
  | ⟨.inl (.inc other names), _⟩ => if other = counter then [names] else []
  | _ => []

/-- A wait for a slot, the first look or the one in the queue, that ends by cancellation. -/
def isCancelledWait : Event (Exec.sum W) → Bool
  | ⟨.inl .tryEnter, .cancelled⟩ => true
  | ⟨.inl .awaitSlot, .cancelled⟩ => true
  | _ => false

def isRefusedRelease : Event (Exec.sum W) → Bool
  | ⟨.inl .release, false⟩ => true
  | _ => false

/-- What a call has counted, by the labels of the counters, and two things that may have happened to
it. Increments of other counters are not in it. -/
structure Tally where
  requests : List (List Str) := []
  failures : List (List Str) := []
  cancelledWait : Bool := false
  refusedRelease : Bool := false

def Tally.next (tally : Tally) (e : Event (Exec.sum W)) : Tally where
  requests := tally.requests ++ labels .requests e
  failures := tally.failures ++ labels .requestsFailed e
  cancelledWait := tally.cancelledWait || isCancelledWait e
  refusedRelease := tally.refusedRelease || isRefusedRelease e

def tally (es : List (Event (Exec.sum W))) : Tally := es.foldl Tally.next {}

theorem foldl_tally (start : Tally) (es : List (Event (Exec.sum W))) :
    es.foldl Tally.next start = {
      requests := start.requests ++ es.flatMap (labels .requests)
      failures := start.failures ++ es.flatMap (labels .requestsFailed)
      cancelledWait := start.cancelledWait || es.any isCancelledWait
      refusedRelease := start.refusedRelease || es.any isRefusedRelease } := by
  induction es generalizing start with
  | nil => simp
  | cons e es ih =>
    rw [List.foldl_cons, ih]
    simp [Tally.next, Bool.or_assoc]

/-- Most events are not in the tally. -/
theorem Tally.next_eq_self {e : Event (Exec.sum W)} (hrequests : labels .requests e = [])
    (hfailures : labels .requestsFailed e = []) (hwait : isCancelledWait e = false)
    (hrelease : isRefusedRelease e = false) (tally : Tally) : tally.next e = tally := by
  rw [Tally.next, hrequests, hfailures, hwait, hrelease]
  simp

def tallying : Protocol (Exec.sum W) Tally := ⟨fun _ _ => True, Tally.next⟩

/-- One request, and one failure if the call fails. -/
def Accounted (type : Str) (tally : Tally) : Except Exn α → Prop
  | .ok _ => tally.requests = [[type]] ∧ tally.failures = []
  | .error _ => tally.requests = [[type]] ∧ ∃ reason, tally.failures = [[type, reason]]

/-- What a tally says in the end, unless a release was refused. That does not happen in any run, but
it is one of the answers of a semaphore, so it has to be ruled out by what the calls of all others
have done. -/
def Ends (type : Str) (tally : Tally) (r : Except Exn α) : Prop :=
  tally.refusedRelease = false →
    (tally.cancelledWait = false ∧ Accounted type tally r) ∨
      tally.cancelledWait = true ∧ tally.requests = [[type]] ∧ tally.failures = [] ∧
        ∃ ex, r = .error ex

/-- Whoever does not acquire a slot has been counted as busy, or was cancelled and not counted. -/
theorem follows_tally_acquireAsync {type : Str} {post : Tally → Except Exn Unit → Prop}
    (hok : post ⟨[[type]], [], false, false⟩ (.ok ()))
    (hbusy : post ⟨[[type]], [[type, ProblemCodes.busy]], false, false⟩
      (.error LookingGlassException.busyError))
    (hcancelled : post ⟨[[type]], [], true, false⟩ (.error .operationCanceled)) :
    Task.Follows (tallying (W := W)) post (acquireAsync type settings)
      ⟨[[type]], [], false, false⟩ := by
  refine Task.follows_bind.mpr ⟨trivial, WaitOutcome.forall.mpr ⟨hok, ?_, hcancelled⟩⟩
  refine Task.follows_bind.mpr ⟨trivial, fun (waiting : ℤ) => ?_⟩
  refine Task.follows_ite.mpr ⟨fun _ => ?_, fun _ => ?_⟩
  · refine Task.follows_bind.mpr ⟨trivial, fun _ => Task.follows_bind.mpr ⟨trivial, fun _ => ?_⟩⟩
    exact Task.follows_bind.mpr ⟨trivial, fun _ => hbusy⟩
  · refine Task.follows_tryFinally.mpr (Task.follows_bind.mpr ⟨trivial, fun _ => ?_⟩)
    refine Task.follows_bind.mpr ⟨trivial, WaitOutcome.forall.mpr ⟨⟨trivial, fun _ => hok⟩, ?_, ?_⟩⟩
    · refine Task.follows_bind.mpr ⟨trivial, fun _ => Task.follows_bind.mpr ⟨trivial, fun _ => ?_⟩⟩
      exact ⟨trivial, fun _ => hbusy⟩
    · exact ⟨trivial, fun _ => hcancelled⟩

theorem follows_tally_handle {type : Str} {ex : Exn} {post : Tally → Except Exn α → Prop}
    (hpost : ∀ reason ex, post ⟨[[type]], [[type, reason]], false, false⟩ (.error ex)) :
    Task.Follows (tallying (W := W)) post (handle type ex) ⟨[[type]], [], false, false⟩ := by
  cases ex with
  | operationCanceled =>
    refine Task.follows_bind.mpr ⟨trivial, fun (requested : Bool) => ?_⟩
    refine Task.follows_ite.mpr ⟨fun _ => ?_, fun _ => ?_⟩
    · exact Task.follows_bind.mpr ⟨trivial, fun _ => hpost _ _⟩
    · exact Task.follows_bind.mpr ⟨trivial, fun _ => hpost _ _⟩
  | lookingGlass ex =>
    refine Task.follows_bind.mpr ⟨trivial, fun _ => Task.follows_ite.mpr ⟨fun _ => ?_, fun _ => ?_⟩⟩
    · exact Task.follows_bind.mpr ⟨trivial, fun _ => hpost _ _⟩
    · exact hpost _ _
  | _ => exact Task.follows_bind.mpr ⟨trivial, fun _ => hpost _ _⟩

/-- **The tally of one call**: it is right, or a wait was cancelled. -/
theorem follows_tally {type : Str} {work : Task W Exn α} :
    Task.Follows tallying (Ends type) (executeAsync settings type work) {} := by
  refine Task.follows_bind.mpr ⟨trivial, fun _ => Task.follows_bind.mpr ?_⟩
  refine follows_tally_acquireAsync ?_ ?_ ?_
  · refine Task.follows_bind.mpr ⟨trivial, fun _ => Task.follows_bind.mpr ⟨trivial, fun _ => ?_⟩⟩
    refine Task.follows_tryFinally.mpr (Task.follows_tryCatch.mpr (Task.follows_bind.mpr
      ⟨trivial, fun _ => ?_⟩))
    -- A release that is not refused leaves the outcome as it is.
    have hfinish : ∀ failures (x : Except Exn α),
      Accounted type ⟨[[type]], failures, false, false⟩ x →
        Task.Follows (tallying (W := W)) (fun tally y => Ends type tally (y.bind fun _ => x)) (do
          exec (.observeDuration type) .ok
          exec .activeDec .ok
          exec .release released) ⟨[[type]], failures, false, false⟩ := by
      intro failures x hx
      refine Task.follows_bind.mpr ⟨trivial, fun _ => ?_⟩
      rw [show tallying.next _ _ = _ from Tally.next_eq_self rfl rfl rfl rfl _]
      refine Task.follows_bind.mpr ⟨trivial, fun _ => ?_⟩
      rw [show tallying.next _ _ = _ from Tally.next_eq_self rfl rfl rfl rfl _]
      refine ⟨trivial, Bool.forall_bool.mpr ⟨?_, ?_⟩⟩
      · intro hrefused
        exact absurd hrefused (by simp [tallying, Tally.next, isRefusedRelease])
      · rw [show tallying.next _ _ = _ from Tally.next_eq_self rfl rfl rfl rfl _]
        exact fun _ => .inl ⟨rfl, hx⟩
    refine Prog.follows_right (fun _ => ⟨trivial, fun _ => ?_⟩) _ fun x => ?_
    · exact Tally.next_eq_self rfl rfl rfl rfl _
    cases x with
    | ok a => exact hfinish [] (.ok a) ⟨rfl, rfl⟩
    | error ex =>
      exact follows_tally_handle fun reason ex => hfinish _ (.error ex) ⟨rfl, reason, rfl⟩
  · exact fun _ => .inl ⟨rfl, rfl, _, rfl⟩
  · exact fun _ => .inr ⟨rfl, rfl, rfl, _, rfl⟩

/-! ### All calls together

That no release is refused is a fact about reachable states, and it is what makes the tally of a
call right by itself. -/

theorem allowed_of_reachable {c : State W} (h : (system settings W).Reachable c)
    {t : Thread (Exec.sum W) (Call W)} (ht : t ∈ c.threads) {op : (Exec.sum W).Op}
    {next : (Exec.sum W).Ret op → Prog (Exec.sum W) Unit} (hrest : t.rest = .call op next) :
    isAllowed (t.phase (protocol settings) fun _ => .arrived) op := by
  have hfollows := System.follows_of_reachable follows_program h t ht
  rw [hrest] at hfollows
  exact hfollows.1

/-- **No release is refused**: whoever releases holds a slot. -/
theorem not_refused_of_reachable {c : State W} (h : (system settings W).Reachable c) :
    ∀ t ∈ c.threads, ∀ e ∈ t.past, isRefusedRelease e = false := by
  refine System.forall_past_of_reachable
    (fun s s' before t after op next answer hrest hreach heffect => ?_) h
  have hmem : t ∈ before ++ t :: after := List.mem_append_right _ (List.mem_cons_self ..)
  have hallowed := allowed_of_reachable hreach hmem hrest
  match op, answer, hallowed, heffect with
  | .inl .release, false, hworking, heffect =>
    have hslots := (inv_of_reachable hreach).slots
    have hholds : 0 < (phases settings (⟨s, before ++ t :: after⟩ : State W)).countP
        Phase.holdsSlot :=
      List.countP_pos_iff.mpr ⟨_, List.mem_map_of_mem hmem, hworking ▸ rfl⟩
    have hfree : s.free = settings.maxConcurrent := heffect.1
    simp only at hslots
    omega
  | .inl .release, true, _, _ | .inr _, _, _, _ => rfl
  | .inl .tryEnter, _, _, _ | .inl .awaitSlot, _, _, _ | .inl .incrementWaiting, _, _, _
  | .inl .decrementWaiting, _, _, _ | .inl (.enqueue _), _, _, _ | .inl .startWork, _, _, _
  | .inl (.inc _ _), _, _, _ | .inl (.observeDuration _), _, _, _ | .inl .activeInc, _, _, _
  | .inl .activeDec, _, _, _ | .inl (.cancelAfter _), _, _, _
  | .inl .isCancellationRequested, _, _, _ => rfl

/-- The calls of one `executeAsync` that is done are a run of it. -/
theorem exists_runs_of_done {c : State W} (h : (system settings W).Reachable c)
    {t : Thread (Exec.sum W) (Call W)} (ht : t ∈ c.threads) (hdone : t.rest = .done ()) :
    ∃ r, Task.Runs (executeAsync settings t.request.type t.request.work) t.past r := by
  have hsteps := System.steps_of_reachable h t ht
  rw [hdone] at hsteps
  obtain ⟨fst, r, snd, hpast, hrun, hnil⟩ := Prog.run_bind.mp hsteps.run
  obtain ⟨rfl, -⟩ := Prog.run_done.mp hnil
  rw [hpast, List.append_nil]
  exact ⟨r, hrun⟩

/-- How a call ends, in a reachable state: counted right, or cancelled while waiting and not
counted as failed. -/
theorem ends_of_runs {c : State W} (h : (system settings W).Reachable c)
    {t : Thread (Exec.sum W) (Call W)} (ht : t ∈ c.threads) {r : Except Exn t.request.Result}
    (hrun : Task.Runs (executeAsync settings t.request.type t.request.work) t.past r) :
    (t.past.any isCancelledWait = false ∧ Accounted t.request.type (tally t.past) r) ∨
      t.past.any isCancelledWait = true ∧ (tally t.past).requests = [[t.request.type]] ∧
        (tally t.past).failures = [] ∧ ∃ ex, r = .error ex := by
  have hends : Ends t.request.type (tally t.past) r := (Prog.Follows.run follows_tally hrun).1
  have hrefused : (tally t.past).refusedRelease = false := by
    rw [tally, foldl_tally]
    simpa using not_refused_of_reachable h t ht
  have hwait : (tally t.past).cancelledWait = t.past.any isCancelledWait := by
    rw [tally, foldl_tally]
    exact Bool.false_or _
  rw [← hwait]
  exact hends hrefused

/-- A call is counted right exactly if none of its waits was cancelled. -/
theorem accounted_iff_of_runs {c : State W} (h : (system settings W).Reachable c)
    {t : Thread (Exec.sum W) (Call W)} (ht : t ∈ c.threads) {r : Except Exn t.request.Result}
    (hrun : Task.Runs (executeAsync settings t.request.type t.request.work) t.past r) :
    Accounted t.request.type (tally t.past) r ↔ t.past.any isCancelledWait = false := by
  rcases ends_of_runs h ht hrun with ⟨hwait, haccounted⟩ | ⟨hwait, -, hnone, ex, rfl⟩
  · exact iff_of_true haccounted hwait
  · refine iff_of_false (fun ⟨_, reason, hone⟩ => ?_) (by simp [hwait])
    rw [hnone] at hone
    exact absurd hone (by simp)

/-- The call has returned a value. -/
def Returned (settings : DiagnosticsOptions) (t : Thread (Exec.sum W) (Call W)) : Prop :=
  ∃ a, Task.Runs (executeAsync settings t.request.type t.request.work) t.past (.ok a)

open Classical in
noncomputable def successes (settings : DiagnosticsOptions) (c : State W) : ℕ :=
  c.threads.countP fun t => Returned settings t

/-- What the counter of requests shows. -/
def requestsTotal (c : State W) : ℕ := (c.threads.map fun t => (tally t.past).requests.length).sum

/-- What the counter of failures shows. -/
def failuresTotal (c : State W) : ℕ := (c.threads.map fun t => (tally t.past).failures.length).sum

/-- If every element is counted once, as `p` or in `failed` or as `q`, the counts add up. -/
theorem sum_eq_countP_add {γ : Type*} {xs : List γ} {counted failed : γ → ℕ} {p q : γ → Bool}
    (h : ∀ x ∈ xs, counted x = (p x).toNat + failed x + (q x).toNat) :
    (xs.map counted).sum = xs.countP p + (xs.map failed).sum + xs.countP q := by
  induction xs with
  | nil => rfl
  | cons x xs ih =>
    have hx := h x (List.mem_cons_self ..)
    have hxs := ih fun y hy => h y (List.mem_cons_of_mem _ hy)
    rw [List.map_cons, List.sum_cons, List.map_cons, List.sum_cons, hx, hxs]
    cases hp : p x <;> cases hq : q x <;> simp [hp, hq] <;> omega

/-- The requests that are missing among the successes and the failures are the calls with a
cancelled wait. -/
theorem requestsTotal_eq {c : State W} (h : (system settings W).Reachable c)
    (hdone : ∀ t ∈ c.threads, t.rest = .done ()) :
    requestsTotal c = successes settings c + failuresTotal c +
      c.threads.countP fun t => t.past.any isCancelledWait := by
  refine sum_eq_countP_add fun t ht => ?_
  obtain ⟨r, hrun⟩ := exists_runs_of_done h ht (hdone t ht)
  have hreturned : Returned settings t ↔ ∃ a, r = .ok a :=
    ⟨fun ⟨a, ha⟩ => ⟨a, Prog.Run.unique hrun ha⟩, fun ⟨a, ha⟩ => ⟨a, ha ▸ hrun⟩⟩
  rcases ends_of_runs h ht hrun with ⟨hwait, haccounted⟩ | ⟨hwait, hrequests, hfailures, ex, rfl⟩
  · cases r with
    | ok a =>
      have hyes : Returned settings t := hreturned.mpr ⟨a, rfl⟩
      simp [hwait, haccounted.1, haccounted.2, hyes]
    | error ex =>
      obtain ⟨hrequests, reason, hfailures⟩ := haccounted
      have hno : ¬ Returned settings t := fun hyes => by simpa using hreturned.mp hyes
      simp [hwait, hrequests, hfailures, hno]
  · have hno : ¬ Returned settings t := fun hyes => by simpa using hreturned.mp hyes
    simp [hwait, hrequests, hfailures, hno]

theorem requestsTotal_eq_iff {c : State W} (h : (system settings W).Reachable c)
    (hdone : ∀ t ∈ c.threads, t.rest = .done ()) :
    requestsTotal c = successes settings c + failuresTotal c ↔
      ∀ t ∈ c.threads, t.past.any isCancelledWait = false := by
  rw [requestsTotal_eq h hdone, Nat.add_eq_left, List.countP_eq_zero]
  simp

/-- **Which calls are counted right, and when the counters add up**, in every reachable state:
exactly if no wait for a slot was cancelled. -/
theorem accounted_iff {c : State W} (h : (system settings W).Reachable c) :
    (∀ t ∈ c.threads, t.rest = .done () → ∃ r,
      Task.Runs (executeAsync settings t.request.type t.request.work) t.past r ∧
        (Accounted t.request.type (tally t.past) r ↔ t.past.any isCancelledWait = false)) ∧
    ((∀ t ∈ c.threads, t.rest = .done ()) →
      (requestsTotal c = successes settings c + failuresTotal c ↔
        ∀ t ∈ c.threads, t.past.any isCancelledWait = false)) := by
  refine ⟨fun t ht hdone => ?_, fun hdone => requestsTotal_eq_iff h hdone⟩
  obtain ⟨r, hrun⟩ := exists_runs_of_done h ht hdone
  exact ⟨r, hrun, accounted_iff_of_runs h ht hrun⟩

/-! A call that gets a slot at once, and one that is cancelled before it does. -/

def exampleCall : Call Work := ⟨"ping", Unit, pure ()⟩

/-- The one call of the example, once it is done. -/
def exampleState (shared : Shared) (past : List (Event (Exec.sum Work))) : State Work :=
  ⟨shared, [⟨exampleCall, past, .done ()⟩]⟩

theorem reachable_exampleState {shared : Shared} {past : List (Event (Exec.sum Work))}
    (hsteps : ((system {} Work).program exampleCall).Steps past (.done ()))
    (heffects : (system {} Work).Effects ⟨4, 0⟩ past shared) :
    (system {} Work).Reachable (exampleState shared past) := by
  have hspawned : (system {} Work).Reachable
      ⟨⟨4, 0⟩, [] ++ ⟨exampleCall, [], (system {} Work).program exampleCall⟩ :: []⟩ :=
    Relation.ReflTransGen.refl.tail (.spawn _ exampleCall)
  exact hspawned.steps hsteps heffects

theorem accounted_of_granted_call :
    ∃ c : State Work, (∃ t ∈ c.threads, t.rest = .done ()) ∧
      (∀ t ∈ c.threads, t.rest = .done () → ∃ r,
        Task.Runs (executeAsync {} t.request.type t.request.work) t.past r ∧
          (Accounted t.request.type (tally t.past) r ↔ t.past.any isCancelledWait = false)) ∧
      ((∀ t ∈ c.threads, t.rest = .done ()) →
        (requestsTotal c = successes {} c + failuresTotal c ↔
          ∀ t ∈ c.threads, t.past.any isCancelledWait = false)) := by
  let past : List (Event (Exec.sum Work)) :=
    [⟨.inl (.inc .requests ["ping"]), ()⟩, ⟨.inl .tryEnter, WaitOutcome.granted⟩,
      ⟨.inl .activeInc, ()⟩, ⟨.inl (.cancelAfter 45), ()⟩, ⟨.inl .startWork, ()⟩,
      ⟨.inl (.observeDuration "ping"), ()⟩, ⟨.inl .activeDec, ()⟩, ⟨.inl .release, true⟩]
  have hsteps : ((system {} Work).program exampleCall).Steps past (.done ()) :=
    .call _ (.call _ (.call _ (.call _ (.call _ (.call _ (.call _ (.call _ (.refl _))))))))
  have heffects : (system {} Work).Effects ⟨4, 0⟩ past ⟨4, 0⟩ :=
    .cons rfl (.cons ⟨by decide, rfl⟩ (.cons rfl (.cons rfl (.cons rfl (.cons rfl (.cons rfl
      (.cons ⟨by decide, rfl⟩ (.nil _))))))))
  exact ⟨exampleState ⟨4, 0⟩ past, ⟨_, .head _, rfl⟩,
    accounted_iff (reachable_exampleState hsteps heffects)⟩

/-- A cancelled call is a request, but neither a success nor a failure. -/
theorem cancelled_call_uncounted :
    ∃ c : State Work, (system {} Work).Reachable c ∧ (∀ t ∈ c.threads, t.rest = .done ()) ∧
      requestsTotal c = 1 ∧ successes {} c = 0 ∧ failuresTotal c = 0 := by
  let past : List (Event (Exec.sum Work)) :=
    [⟨.inl (.inc .requests ["ping"]), ()⟩, ⟨.inl .tryEnter, WaitOutcome.cancelled⟩]
  have hsteps : ((system {} Work).program exampleCall).Steps past (.done ()) :=
    .call _ (.call _ (.refl _))
  have heffects : (system {} Work).Effects ⟨4, 0⟩ past ⟨4, 0⟩ := .cons rfl (.cons rfl (.nil _))
  have hreachable := reachable_exampleState hsteps heffects
  have hdone : ∀ t ∈ (exampleState ⟨4, 0⟩ past).threads, t.rest = .done () := by
    intro t ht
    obtain rfl := List.mem_singleton.mp ht
    rfl
  have hrequests : requestsTotal (exampleState ⟨4, 0⟩ past) = 1 := rfl
  have hfailures : failuresTotal (exampleState ⟨4, 0⟩ past) = 0 := rfl
  have hcancelled : (exampleState ⟨4, 0⟩ past).threads.countP
      (fun t => t.past.any isCancelledWait) = 1 := rfl
  have htotal := requestsTotal_eq hreachable hdone
  rw [hrequests, hfailures, hcancelled] at htotal
  exact ⟨_, hreachable, hdone, hrequests, by omega, hfailures⟩

end DiagnosticsExecutor

end LookingGlass
