import LookingGlass.Api.DiagnosticRelay

/-!
# The counters of the relay

The failure ratio divides failed requests by requests, so a request that does not return should be
counted once as failed. The relay counts failures in its `catch` clauses, and there are two: for the
exceptions of the service itself, and for cancellation. The diagnostics service counts in a clause
for every other exception as well; the relay has none, so whatever else the backend client or the
description of a reply raises ends a request without a trace in the ratio.

Nothing is assumed of the validation, of the backend or of the description: each may raise what it
likes.

## A condition on what was met

The condition names what the request met on its way: what the validation raised, what the backend
answered, and what the description made of the answer. None of these is computed by the relay. The
relay decides what becomes of an exception, by the types that its `catch` clauses name, and
`isNamed` is these clauses and nothing else.

The accounts are read off the calls, so they are what Prometheus would see. Requests and failures
are kept as lists of labels: a counter with the wrong label is as bad as one that is missing.

## Main results

* `DiagnosticRelay.follows_accounts` — the accounts of one request
* `DiagnosticRelay.reported_iff_of_runs` — which requests are counted right
-/

namespace LookingGlass

open Utf16 Interaction

namespace DiagnosticRelay

/-- The exceptions that a `catch` clause names. -/
def isNamed : Exn → Bool
  | .lookingGlass _ | .operationCanceled => true
  | _ => false

/-- The labels that an event increments a counter with. -/
def labels (counter : ApiCounter) : Event (Relay.sum Hasher) → List (List Str)
  | ⟨.inl (.inc other names), _⟩ => if other = counter then [names] else []
  | _ => []

/-- The request that an event passes on. -/
def posted : Event (Relay.sum Hasher) → List Post
  | ⟨.inl (.post kind body requestId), answer⟩ => [⟨kind, body, requestId, answer⟩]
  | _ => []

/-- What a request has added to two counters, by their labels, and what it has posted. What it met
is read off the posts, and what it has counted off the rest. -/
structure Accounts where
  requests : List (List Str) := []
  failures : List (List Str) := []
  posts : List Post := []

def Accounts.next (accounts : Accounts) (e : Event (Relay.sum Hasher)) : Accounts where
  requests := accounts.requests ++ labels .requests e
  failures := accounts.failures ++ labels .requestsFailed e
  posts := accounts.posts ++ posted e

def accounts (es : List (Event (Relay.sum Hasher))) : Accounts := es.foldl Accounts.next {}

def accounting : Protocol (Relay.sum Hasher) Accounts := ⟨fun _ _ => True, Accounts.next⟩

/-- Most calls are in no account. -/
theorem Accounts.next_eq_self {e : Event (Relay.sum Hasher)} (hrequests : labels .requests e = [])
    (hfailures : labels .requestsFailed e = []) (hposted : posted e = []) (accounts : Accounts) :
    accounts.next e = accounts := by
  rw [Accounts.next, hrequests, hfailures, hposted]
  simp

/-- One request, and one failure if the request fails. -/
def Reported {α : Type} (type : Str) (accounts : Accounts) : Except Exn α → Prop
  | .ok _ => accounts.requests = [[type]] ∧ accounts.failures = []
  | .error _ => accounts.requests = [[type]] ∧ ∃ reason, accounts.failures = [[type, reason]]

/-- What the validation raises has a clause, and so has what the backend answers with and what the
description makes of its answer. It is about what a request meets, and not about what it counts. -/
def Foreseen (kind : DiagnosticKind) (validate : Except Exn Unit)
    (describe : kind.Response → Except Exn (Str × Str)) (posts : List Post) : Prop :=
  (∀ ex, validate = .error ex → isNamed ex) ∧
    ∀ body requestId answer, ⟨kind, body, requestId, answer⟩ ∈ posts →
      ∀ ex, answer >>= describe = .error ex → isNamed ex

/-- A request is counted right exactly if what it met was foreseen. -/
def Balanced {kind : DiagnosticKind} (validate : Except Exn Unit)
    (describe : kind.Response → Except Exn (Str × Str)) (accounts : Accounts)
    (r : Except Exn kind.Response) : Prop :=
  Reported kind.type accounts r ↔ Foreseen kind validate describe accounts.posts

variable {rt : Runtime} {crypto : Crypto} {context : HttpContext} {traceIdentifier : Str}
  {kind : DiagnosticKind} {body : Option kind.Body} {rawInput requestId : Option Str}
  {validate : Except Exn Unit} {describe : kind.Response → Except Exn (Str × Str)}

/-! ### What is foreseen

An exception of the validation is met before anything is posted, and one of the description after
the answer. -/

/-- Nothing was posted. -/
theorem foreseen_nil {ex : Exn} :
    Foreseen kind (.error ex) describe [] ↔ isNamed ex = true := by
  constructor
  · exact fun h => h.1 ex rfl
  · intro hnamed
    refine ⟨fun ex' hex => ?_, fun _ _ _ hmem => absurd hmem List.not_mem_nil⟩
    obtain rfl := Except.error.inj hex
    exact hnamed

theorem foreseen_singleton {requestId : Str} {answer : Except Exn kind.Response} :
    Foreseen kind (.ok ()) describe [⟨kind, body, requestId, answer⟩] ↔
      ∀ ex, answer >>= describe = .error ex → isNamed ex := by
  constructor
  · exact fun h => h.2 body requestId answer (List.mem_singleton_self _)
  · refine fun h => ⟨fun _ hex => absurd hex (by simp), fun body' requestId' answer' hmem => ?_⟩
    obtain ⟨-, -, rfl⟩ : body' = body ∧ requestId' = requestId ∧ answer' = answer := by
      simpa using List.mem_singleton.mp hmem
    exact h

theorem foreseen_singleton_error {requestId : Str} {answer : Except Exn kind.Response} {ex : Exn}
    (h : answer >>= describe = .error ex) :
    Foreseen kind (.ok ()) describe [⟨kind, body, requestId, answer⟩] ↔ isNamed ex = true := by
  rw [foreseen_singleton, h]
  constructor
  · exact fun hnamed => hnamed ex rfl
  · intro hnamed ex' hex
    obtain rfl := Except.error.inj hex
    exact hnamed

/-! ### The accounts of a request

One rule for each of the parts, and the whole is put together from them. -/

/-- An exception that a clause names is counted, another one is not. -/
theorem follows_accounts_handle {α : Type} {entry : Str → Option Str → LogEntry} {type : Str}
    {ex : Exn} {post : Accounts → Except Exn α → Prop} {posts : List Post}
    (hnamed : isNamed ex = true → ∀ reason ex', post ⟨[[type]], [[type, reason]], posts⟩
      (.error ex'))
    (hother : isNamed ex = false → post ⟨[[type]], [], posts⟩ (.error ex)) :
    Task.Follows accounting post (handle entry type ex) ⟨[[type]], [], posts⟩ := by
  have hcounted : ∀ (reason : Str) (ex' : Exn),
      isNamed ex = true → post ⟨[[type]], [[type, reason]], posts ++ []⟩ (.error ex') := by
    intro reason ex' h
    rw [List.append_nil]
    exact hnamed h reason ex'
  cases ex with
  | lookingGlass ex =>
    refine Task.follows_bind.mpr ⟨trivial, fun _ => Task.follows_ite.mpr ⟨fun _ => ?_, fun _ => ?_⟩⟩
    · refine Task.follows_bind.mpr ⟨trivial, fun _ => Task.follows_bind.mpr ⟨trivial, fun _ => ?_⟩⟩
      rw [show accounting.next _ _ = _ from Accounts.next_eq_self rfl rfl rfl _]
      rw [show accounting.next _ _ = _ from Accounts.next_eq_self rfl rfl rfl _]
      exact hcounted _ _ rfl
    · refine Task.follows_bind.mpr ⟨trivial, fun _ => ?_⟩
      rw [show accounting.next _ _ = _ from Accounts.next_eq_self rfl rfl rfl _]
      exact hcounted _ _ rfl
  | operationCanceled =>
    refine Task.follows_bind.mpr ⟨trivial, fun _ => Task.follows_bind.mpr ⟨trivial, fun _ => ?_⟩⟩
    rw [show accounting.next _ _ = _ from Accounts.next_eq_self rfl rfl rfl _]
    exact hcounted _ _ rfl
  | _ => exact hother rfl

/-- The `finally` is in no account. -/
theorem follows_accounts_finally {type : Str} {acc : Accounts} {r : Except Exn kind.Response}
    (h : Balanced validate describe acc r) :
    Task.Follows accounting (fun acc y => Balanced validate describe acc (y.bind fun _ => r)) (do
      call .activeDec .ok
      call (.observeDuration type) .ok) acc := by
  refine Task.follows_bind.mpr ⟨trivial, fun _ => ⟨trivial, fun _ => ?_⟩⟩
  rw [show accounting.next _ _ = _ from Accounts.next_eq_self rfl rfl rfl _]
  rw [show accounting.next _ _ = _ from Accounts.next_eq_self rfl rfl rfl _]
  exact h

/-- After an exception that is foreseen exactly if a clause names it. -/
theorem follows_accounts_fail {entry : Str → Option Str → LogEntry} {ex : Exn} {posts : List Post}
    (hforeseen : Foreseen kind validate describe posts ↔ isNamed ex = true) :
    Task.Follows accounting (fun acc r =>
        Task.Follows accounting (fun acc y => Balanced validate describe acc (y.bind fun _ => r))
        (do
          call .activeDec .ok
          call (.observeDuration kind.type) .ok) acc)
      (handle entry kind.type ex : Task (Relay.sum Hasher) Exn kind.Response)
      ⟨[[kind.type]], [], posts⟩ := by
  refine follows_accounts_handle (fun hnamed reason ex' => ?_) fun hother => ?_
  · exact follows_accounts_finally (iff_of_true ⟨rfl, reason, rfl⟩ (hforeseen.mpr hnamed))
  · refine follows_accounts_finally (iff_of_false ?_ fun h => ?_)
    · exact fun ⟨_, _, h⟩ => absurd h (by simp)
    · exact absurd (hforeseen.mp h) (by simp [hother])

/-- **The accounts of one request**, whatever validation, backend and description do. -/
theorem follows_accounts :
    Task.Follows accounting (Balanced validate describe)
      (relayAsync rt crypto context traceIdentifier kind body rawInput validate describe) {} := by
  refine Task.follows_bind.mpr ⟨trivial, fun _ => Task.follows_bind.mpr ⟨trivial, fun _ => ?_⟩⟩
  rw [show accounting.next _ ⟨.inl .activeInc, _⟩ = _ from Accounts.next_eq_self rfl rfl rfl _]
  refine Task.follows_bind.mpr (follows_hash
    (fun _ => ⟨trivial, fun _ => Accounts.next_eq_self rfl rfl rfl _⟩) fun hash => ?_)
  refine Task.follows_tryFinally.mpr (Task.follows_tryCatch.mpr (Task.follows_bind.mpr ?_))
  show Task.Follows accounting _ _ ⟨[[kind.type]], [], []⟩
  cases validate with
  | error ex => exact follows_accounts_fail foreseen_nil
  | ok _ =>
  refine Task.follows_bind.mpr ⟨trivial, fun answer => ?_⟩
  cases answer with
  | error ex => exact follows_accounts_fail (foreseen_singleton_error rfl)
  | ok response =>
  refine Task.follows_bind.mpr ?_
  cases hdescribe : describe response with
  | error ex => exact follows_accounts_fail (foreseen_singleton_error hdescribe)
  | ok described =>
    obtain ⟨target, summary⟩ := described
    refine Task.follows_bind.mpr ⟨trivial, fun _ => Task.follows_bind.mpr ⟨trivial, fun _ => ?_⟩⟩
    rw [show accounting.next _ ⟨.inl (.log _), _⟩ = _ from Accounts.next_eq_self rfl rfl rfl _]
    rw [show accounting.next _ ⟨.inl (.addActivity _ _ _), _⟩ = _ from
      Accounts.next_eq_self rfl rfl rfl _]
    refine follows_accounts_finally (iff_of_true ⟨rfl, rfl⟩ (foreseen_singleton.mpr ?_))
    exact fun ex hex => absurd (hdescribe.symm.trans hex) (by simp)

/-- **Which requests are counted right**: those whose validation, backend and description raise
nothing but what the `catch` clauses name. -/
theorem reported_iff_of_runs {es : List (Event (Relay.sum Hasher))} {r : Except Exn kind.Response}
    (h : Task.Runs
      (relayAsync rt crypto context traceIdentifier kind body rawInput validate describe) es r) :
    Reported kind.type (accounts es) r ↔ Foreseen kind validate describe (accounts es).posts :=
  (Prog.Follows.run follows_accounts h).1

/-! A ping that is answered, and a traceroute whose reply has `null` for the hops. -/

theorem reported_iff_of_ping :
    ∃ (es : List (Event (Relay.sum Hasher))) (r : Except Exn (Deserialised PingResponse)),
      Task.Runs (pingAsync .reference ClientIpHasher.exampleCrypto examplePolicy
        ⟨"/api/v1/diagnostics/ping", none⟩ "a1" (some exampleBody)) es r ∧ r = .ok exampleReply ∧
        (Reported DiagnosticTypes.ping (accounts es) r ↔
          Foreseen .ping (validateDestination .reference examplePolicy (some exampleBody))
            (fun reply =>
              let r := reply.response
              .ok (r.destination, if r.received = 0 then "No reply" else
                concat [(r.avgMs.map (Double.format 0 1)).getD [], " ms avg, ",
                  r.lossPercent.format 0 1, "% loss"])) (accounts es).posts) := by
  have hrun := Prog.run_simulate exampleAnswer (pingAsync .reference ClientIpHasher.exampleCrypto
    examplePolicy ⟨"/api/v1/diagnostics/ping", none⟩ "a1" (some exampleBody)).run
  exact ⟨_, _, hrun, rfl, reported_iff_of_runs hrun⟩

def exampleWithoutHops : Deserialised TracerouteResponse where
  response := {
    requestId := "a1", destination := "8.8.8.8", resolvedAddress := "8.8.8.8", family := .ipv4
    startedAt := 0, durationMs := 4000, reachedDestination := false, hops := []
    technicalOutput := [], simulated := false }
  hasEntries := false

/-- The backend answers a traceroute, but without hops. -/
def answerWithoutHops : ∀ op, (Relay.sum Hasher).Ret op
  | .inl (.post .traceroute _ _) => .ok exampleWithoutHops
  | op => exampleAnswer op

/-- A failure is not reported by empty counters. -/
theorem not_reported_of_failures_eq_nil {α : Type} {type : Str} {accounts : Accounts} {ex : Exn}
    {r : Except Exn α} (hr : r = .error ex) (hnone : accounts.failures = []) :
    ¬ Reported type accounts r := by
  subst hr
  rintro ⟨-, reason, hone⟩
  exact absurd (hnone.symm.trans hone) (by simp)

/-- The request fails, and no counter of failures shows it. -/
theorem traceroute_not_reported :
    ∃ (es : List (Event (Relay.sum Hasher))) (r : Except Exn (Deserialised TracerouteResponse)),
      Task.Runs (tracerouteAsync .reference ClientIpHasher.exampleCrypto examplePolicy
        ⟨"/api/v1/diagnostics/traceroute", none⟩ "a1" (some exampleBody)) es r ∧
      r = .error .other ∧ (accounts es).requests = [[DiagnosticTypes.traceroute]] ∧
      (accounts es).failures = [] ∧ ¬ Reported DiagnosticTypes.traceroute (accounts es) r := by
  have hrun := Prog.run_simulate answerWithoutHops (tracerouteAsync .reference
    ClientIpHasher.exampleCrypto examplePolicy ⟨"/api/v1/diagnostics/traceroute", none⟩ "a1"
    (some exampleBody)).run
  have hnone : (accounts (Prog.simulate answerWithoutHops (tracerouteAsync .reference
    ClientIpHasher.exampleCrypto examplePolicy ⟨"/api/v1/diagnostics/traceroute", none⟩ "a1"
    (some exampleBody)).run).1).failures = [] := rfl
  exact ⟨_, _, hrun, rfl, rfl, hnone, not_reported_of_failures_eq_nil rfl hnone⟩

end DiagnosticRelay

end LookingGlass
