import LookingGlass.Api.ConcurrencyGuard
import LookingGlass.Foundations.Moments

/-!
# Who is told to wait for a diagnostic to finish

A request is rejected when its `Enter` is answered more than `MaxConcurrentPerIp`, with the message
that the client already has the maximum number of diagnostics running. The count it is answered is
of all requests of the client that have entered and not yet left: one that was rejected stays in it
until its response has been written, and one whose diagnostic is done until it has come to leave. A
client that tries again in between is rejected although less is running.

A request is stale while it is counted for such a reason. Where no stale request of the client is
around when an `Enter` is answered too large a count, whoever is counted is in the next middleware,
and the message is true.

## Which condition, and why not a weaker one

The message says that the maximum number of diagnostics is running. What makes it false is a request
that is counted and runs nothing, so the condition is that there is none of these, at every `Enter`
that is answered too large a count. A weaker condition would do as well: such requests may be around
as long as enough others are running. But then the condition would compare the count with the number
of those that run, which is what the message says, and the result would say nothing.

The condition is about the requests and the calls that they have made, and it can be read off at the
moment of the `Enter`, before it is known what comes of it.

## Main results

* `ConcurrencyGuard.stored_eq_of_possible` — whom the count counts, at any `Enter`
* `ConcurrencyGuard.fullWhenRejected_of_trace` — runs in which whoever is rejected had enough
  running
-/

namespace LookingGlass

open Utf16 Interaction

namespace ConcurrencyGuard

variable {N : Interface} {rt : Runtime} {options : RateLimitingOptions}
  {next : HttpContext → Task N Exn Unit}

/-- The next middleware is done, and the request is about to leave. -/
def isLeaving (t : Thread (Guard.sum N) HttpContext) : Bool :=
  match t.rest with
  | .call (.inl (.addOrDecrement _)) _ => true
  | _ => false

/-- Admitted to the next middleware, and not yet out of it. -/
def isInNext (options : RateLimitingOptions) (key : Str) (t : Thread (Guard.sum N) HttpContext) :
    Bool :=
  hasEntered key t.past && !(t.past.any (isRejection options) || isLeaving t)

/-- Still counted, but rejected, or about to leave. -/
def isStale (options : RateLimitingOptions) (key : Str) (t : Thread (Guard.sum N) HttpContext) :
    Bool :=
  hasEntered key t.past && (t.past.any (isRejection options) || isLeaving t)

abbrev GuardMoment (N : Interface) := Moment (Guard.sum N) HttpContext InFlight

/-- The key of the request that makes the call. -/
def callerKey (rt : Runtime) (m : GuardMoment N) : Str := keyOf rt m.caller.request

/-- An `Enter` is answered too large a count only where no other request of the client is counted
without being in the next middleware. Such a request has been rejected itself and is counted until
its answer has been written, or it is about to leave. Whether there is one is read off the calls of
the others. -/
def NoneStale (rt : Runtime) (options : RateLimitingOptions) (m : GuardMoment N) : Prop :=
  isRejection options m.event = true →
    ∀ t ∈ m.others, isStale options (callerKey rt m) t = false

def isEnter (m : GuardMoment N) : Prop := ∃ key, m.event.op = .inl (.addOrIncrement key)

/-- Whoever has been counted as rejected entered at a moment at which at least `MaxConcurrentPerIp`
other requests of the client were admitted to the next middleware and not yet out of it. The moment
is that of the `Enter`, which may be long past when the rejection is counted, so it is looked for
among the moments of the run. -/
def FullWhenRejected (rt : Runtime) (options : RateLimitingOptions) (ms : List (GuardMoment N))
    (c : State N) : Prop :=
  ∀ (i : ℕ) t, c.threads[i]? = some t → ⟨.inl (.incRejected "concurrency"), ()⟩ ∈ t.past →
    ∃ m ∈ ms, m.position = i ∧ m.caller.request = t.request ∧ isEnter m ∧
      options.maxConcurrentPerIp ≤ m.others.countP (isInNext options (callerKey rt m))

/-! ### At the moment of an `Enter`

The count is exact, by the invariant of the guard. What is new is whom it counts. -/

/-- Whoever has entered is in the next middleware or stale. -/
theorem countP_hasEntered (options : RateLimitingOptions) (key : Str)
    (ts : List (Thread (Guard.sum N) HttpContext)) :
    ts.countP (fun t => hasEntered key t.past) =
      ts.countP (isInNext options key) + ts.countP (isStale options key) := by
  induction ts with
  | nil => rfl
  | cons t ts ih =>
    rw [List.countP_cons, List.countP_cons, List.countP_cons, ih, isInNext, isStale]
    cases hasEntered key t.past <;>
      cases t.past.any (isRejection options) || isLeaving t <;> simp <;> omega

theorem isAllowed_of_possible {m : GuardMoment N} (h : (system rt options next).Possible m) :
    isAllowed (m.caller.phase (protocol options) (arrive rt)) m.event.op := by
  obtain ⟨rest, hrest⟩ := h.rest
  have hfollows := System.follows_of_reachable follows_program h.reachable _ m.caller_mem
  rw [hrest] at hfollows
  exact hfollows.1

/-- The count of the client is of those in the next middleware and of the stale ones. -/
theorem stored_eq_of_possible {m : GuardMoment N} (h : (system rt options next).Possible m)
    (henter : isEnter m) :
    stored m.shared (callerKey rt m) =
      m.others.countP (isInNext options (callerKey rt m)) +
        m.others.countP (isStale options (callerKey rt m)) := by
  obtain ⟨key, hop⟩ := henter
  have harrived : (m.caller.phase (protocol options) (arrive rt)).stage = .arrived := by
    have hallowed := isAllowed_of_possible h
    rw [hop] at hallowed
    exact hallowed.2
  -- the caller itself is not yet counted
  have hself : hasEntered (callerKey rt m) m.caller.past = false := by
    rw [(knows_of_reachable h.reachable _ m.caller_mem).hasEntered_eq, harrived]
    exact Bool.and_false _
  rw [← Nat.cast_add, ← countP_hasEntered]
  refine (stored_eq_countP h.reachable (callerKey rt m)).trans (congrArg Nat.cast ?_)
  rw [Moment.config, Moment.others, countP_middle, List.countP_append, hself]
  rfl

/-! ### Who is rejected

A request counts itself as rejected only after an increment that was answered too large a count, and
only once. -/

/-- Only a request that was answered too large a count counts itself as rejected. -/
abbrev rejecting (options : RateLimitingOptions) : Protocol (Guard.sum N) Bool :=
  .onlyAfter (isRejection options) (· = .inl (.incRejected "concurrency"))

theorem follows_rejecting_leave {key : Str} {rejected : Bool} {post : Bool → Except Exn Unit → Prop}
    (hpost : ∀ rejected x, post rejected x) :
    Task.Follows (rejecting (N := N) options) post (ConcurrencyTracker.leave key) rejected := by
  refine Task.follows_bind.mpr ⟨fun h => (nomatch h), fun (remaining : ℤ) => ?_⟩
  refine Task.follows_ite.mpr ⟨fun _ => ⟨fun h => (nomatch h), fun _ => hpost _ _⟩, fun _ => ?_⟩
  exact hpost _ _

theorem follows_rejecting_invokeNext {context : HttpContext} {rejected : Bool}
    {post : Bool → Except Exn Unit → Prop} (hpost : ∀ rejected x, post rejected x) :
    Task.Follows (rejecting options) post (invokeNext next context) rejected := by
  refine Task.follows_bind.mpr ⟨fun h => (nomatch h), fun _ => ?_⟩
  exact Prog.follows_right (fun _ => ⟨fun h => (nomatch h), fun _ => Bool.or_false _⟩) _
    fun _ => hpost _ _

theorem follows_rejecting (context : HttpContext) :
    ((system rt options next).program context).Follows (rejecting options) (fun _ _ => True)
      false := by
  refine Prog.follows_bind.mpr ?_
  show Task.Follows _ _ (invokeAsync rt options next context) _
  rw [invokeAsync]
  split
  · exact follows_rejecting_invokeNext fun _ _ => trivial
  refine Task.follows_bind.mpr ⟨fun h => (nomatch h), fun (current : ℤ) => ?_⟩
  refine Task.follows_tryFinally.mpr (Task.follows_ite.mpr ⟨fun hfull => ?_, fun _ => ?_⟩)
  · refine Task.follows_bind.mpr ⟨fun _ => ?_, fun _ => ⟨fun h => (nomatch h), fun _ => ?_⟩⟩
    · show (false || decide (current > options.maxConcurrentPerIp)) = true
      rw [decide_eq_true hfull]
      rfl
    · exact follows_rejecting_leave fun _ _ => trivial
  · exact follows_rejecting_invokeNext fun _ _ => follows_rejecting_leave fun _ _ => trivial

/-- **Rejected by enough diagnostics only**: in every run in which no request of the client is stale
when an `Enter` is answered too large a count, whoever is rejected had `MaxConcurrentPerIp` others
of the client in the next middleware. -/
theorem fullWhenRejected_of_trace {ms : List (GuardMoment N)} {c : State N}
    (h : (system rt options next).Trace ms c)
    (hnone : ∀ m ∈ ms, NoneStale rt options m) :
    FullWhenRejected rt options ms c := by
  intro i t ht hrejected
  obtain ⟨e, he, hrejection⟩ :=
    System.exists_earlier follows_rejecting h.reachable (List.mem_of_getElem? ht) hrejected rfl
  obtain ⟨m, hm, hposition, hrequest, rfl⟩ := h.exists_moment ht he
  have hpossible := h.possible m hm
  have hallowed := isAllowed_of_possible hpossible
  obtain ⟨s', heffect⟩ := hpossible.effect
  obtain ⟨henter, hfull⟩ : isEnter m ∧
      stored m.shared (callerKey rt m) + 1 > options.maxConcurrentPerIp := by
    have hkey := @key_phase _ rt options m.caller
    obtain ⟨dict, before, caller, after, op, answer⟩ := m
    match op, answer, hallowed, hrejection, heffect with
    | .inl (.addOrIncrement key), current, hallowed, hrejection, heffect =>
      have hmore : (current : ℤ) > options.maxConcurrentPerIp := of_decide_eq_true hrejection
      obtain ⟨hcurrent, -⟩ : current = (dict key).elim 1 (· + 1) ∧ _ := heffect
      obtain ⟨hsame, -⟩ := hallowed
      refine ⟨⟨key, rfl⟩, ?_⟩
      rw [hcurrent, elim_add_one, hsame.trans hkey] at hmore
      exact hmore
  have hstale : m.others.countP (isStale options (callerKey rt m)) = 0 :=
    List.countP_eq_zero.mpr fun t ht => Bool.eq_false_iff.mp (hnone m hm hrejection t ht)
  have hstored := stored_eq_of_possible hpossible henter
  refine ⟨m, hm, hposition, hrequest, henter, ?_⟩
  omega

/-! One diagnostic at a time. -/

section Example

def oneAtATime : RateLimitingOptions := { maxConcurrentPerIp := 1 }

def pinging : HttpContext := ⟨"/api/v1/diagnostics/ping", none⟩

/-- The next middleware makes one call. -/
abbrev exampleSystem : System (Guard.sum Guard) HttpContext InFlight :=
  system Runtime.reference oneAtATime fun _ => Task.call (I := Guard) .startNext .ok

def enters : List (Event (Guard.sum Guard)) :=
  [⟨.inl (.addOrIncrement "unknown"), (1 : ℤ)⟩, ⟨.inl .startNext, ()⟩]

def leaves : List (Event (Guard.sum Guard)) :=
  [⟨.inr .startNext, ()⟩, ⟨.inl (.addOrDecrement "unknown"), (1 : ℤ)⟩]

def isTurnedAway : List (Event (Guard.sum Guard)) :=
  [⟨.inl (.addOrIncrement "unknown"), (2 : ℤ)⟩, ⟨.inl (.incRejected "concurrency"), ()⟩]

/-- A request is rejected while another one of the client is in the next middleware. -/
theorem fullWhenRejected_of_two :
    ∃ ms, ∃ c : State Guard, exampleSystem.Trace ms c ∧
      phases Runtime.reference oneAtATime c =
        [⟨ofString "unknown", .inside⟩, ⟨ofString "unknown", .refused⟩] ∧
      FullWhenRejected Runtime.reference oneAtATime ms c := by
  let program := exampleSystem.program pinging
  let one : InFlight := Function.update (fun _ => none) "unknown" (some 1)
  let two : InFlight := Function.update one "unknown" (some 2)
  obtain ⟨p, hp, hstays⟩ : ∃ p, program.Steps enters p ∧ isLeaving ⟨pinging, enters, p⟩ = false :=
    ⟨_, .call _ (.call _ (.refl _)), rfl⟩
  obtain ⟨q, hq⟩ : ∃ q, program.Steps isTurnedAway q := ⟨_, .call _ (.call _ (.refl _))⟩
  have henter : exampleSystem.Effects (fun _ => none) enters one :=
    .cons ⟨rfl, rfl⟩ (.cons rfl (.nil _))
  have hturnAway : exampleSystem.Effects one isTurnedAway two :=
    .cons ⟨rfl, rfl⟩ (.cons rfl (.nil _))
  have h₀ : exampleSystem.Trace [] ⟨fun _ => none,
      [] ++ ⟨pinging, [], program⟩ :: [⟨pinging, [], program⟩]⟩ :=
    (System.Trace.start.spawn pinging).spawn pinging
  obtain ⟨ms₁, h₁, hms₁⟩ := h₀.steps hp henter
  obtain ⟨ms₂, h₂, hms₂⟩ := System.Trace.steps
    (show exampleSystem.Trace _ ⟨_, [⟨pinging, enters, p⟩] ++ ⟨pinging, [], program⟩ :: []⟩ from h₁)
    hq hturnAway
  refine ⟨_, _, h₂, rfl, fullWhenRejected_of_trace h₂ fun m hm _ t ht => ?_⟩
  rw [Moment.others] at ht
  simp only [List.mem_append] at hm
  rcases hm with (hm | hm) | hm
  · exact absurd hm List.not_mem_nil
  · rw [(hms₁ m hm).1, (hms₁ m hm).2] at ht
    obtain rfl := List.mem_singleton.mp ht
    rfl
  · rw [(hms₂ m hm).1, (hms₂ m hm).2] at ht
    obtain rfl := List.mem_singleton.mp ht
    rw [isStale, hstays, Bool.or_false]
    exact Bool.and_false _

/-- The second request is rejected, as it should be. While its response is being written the first
one ends, so that nothing is running; and the third one is rejected. -/
theorem not_fullWhenRejected_of_three :
    ∃ ms, ∃ c : State Guard, exampleSystem.Trace ms c ∧
      phases Runtime.reference oneAtATime c = [⟨ofString "unknown", .left⟩,
        ⟨ofString "unknown", .refused⟩, ⟨ofString "unknown", .refused⟩] ∧
      ¬ FullWhenRejected Runtime.reference oneAtATime ms c := by
  let program := exampleSystem.program pinging
  let one : InFlight := Function.update (fun _ => none) "unknown" (some 1)
  let two : InFlight := Function.update one "unknown" (some 2)
  let again : InFlight := Function.update two "unknown" (some 1)
  let twice : InFlight := Function.update again "unknown" (some 2)
  obtain ⟨p, p', hp, hp'⟩ : ∃ p p', program.Steps enters p ∧ p.Steps leaves p' :=
    ⟨_, _, .call _ (.call _ (.refl _)), .call _ (.call _ (.refl _))⟩
  obtain ⟨q, hq⟩ : ∃ q, program.Steps isTurnedAway q := ⟨_, .call _ (.call _ (.refl _))⟩
  have henter : exampleSystem.Effects (fun _ => none) enters one :=
    .cons ⟨rfl, rfl⟩ (.cons rfl (.nil _))
  have hturnAway : exampleSystem.Effects one isTurnedAway two :=
    .cons ⟨rfl, rfl⟩ (.cons rfl (.nil _))
  have hleave : exampleSystem.Effects two leaves again :=
    .cons rfl (.cons ⟨rfl, rfl⟩ (.nil _))
  have hturnAwayAgain : exampleSystem.Effects again isTurnedAway twice :=
    .cons ⟨rfl, rfl⟩ (.cons rfl (.nil _))
  have h₀ : exampleSystem.Trace [] ⟨fun _ => none,
      [] ++ ⟨pinging, [], program⟩ :: [⟨pinging, [], program⟩, ⟨pinging, [], program⟩]⟩ :=
    ((System.Trace.start.spawn pinging).spawn pinging).spawn pinging
  obtain ⟨ms₁, h₁, hms₁⟩ := h₀.steps hp henter
  obtain ⟨ms₂, h₂, hms₂⟩ := System.Trace.steps
    (show exampleSystem.Trace _ ⟨_, [⟨pinging, enters, p⟩] ++
      ⟨pinging, [], program⟩ :: [⟨pinging, [], program⟩]⟩ from h₁) hq hturnAway
  obtain ⟨ms₃, h₃, hms₃⟩ := System.Trace.steps
    (show exampleSystem.Trace _ ⟨_, [] ++ ⟨pinging, enters, p⟩ ::
      [⟨pinging, isTurnedAway, q⟩, ⟨pinging, [], program⟩]⟩ from h₂) hp' hleave
  obtain ⟨ms₄, h₄, hms₄⟩ := System.Trace.steps
    (show exampleSystem.Trace _ ⟨_, [⟨pinging, enters ++ leaves, p'⟩, ⟨pinging, isTurnedAway, q⟩] ++
      ⟨pinging, [], program⟩ :: []⟩ from h₃) hq hturnAwayAgain
  refine ⟨_, _, h₄, rfl, fun hfull => ?_⟩
  obtain ⟨m, hm, hposition, hrequest, -, hinNext⟩ := hfull 2 _ rfl (by simp [isTurnedAway])
  -- only the last stretch is one of the third request
  simp only [List.mem_append] at hm
  rcases hm with (((hm | hm) | hm) | hm) | hm
  · exact absurd hm List.not_mem_nil
  · exact absurd hposition (by simp [Moment.position, hms₁ m hm])
  · exact absurd hposition (by simp [Moment.position, hms₂ m hm])
  · exact absurd hposition (by simp [Moment.position, hms₃ m hm])
  · have hnone : m.others.countP (isInNext oneAtATime (callerKey Runtime.reference m)) = 0 := by
      rw [Moment.others, (hms₄ m hm).1, (hms₄ m hm).2, callerKey, hrequest, List.countP_eq_zero]
      intro t ht
      rcases List.mem_cons.mp ht with rfl | ht
      · exact Bool.false_ne_true
      · obtain rfl := List.mem_singleton.mp ht
        exact Bool.false_ne_true
    rw [hnone] at hinNext
    exact absurd hinNext (by decide)

end Example

end ConcurrencyGuard

end LookingGlass
