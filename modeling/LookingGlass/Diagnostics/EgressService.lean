import LookingGlass.Contracts.Models
import LookingGlass.Foundations.ExpiringCalls

/-!
# The addresses of the service

The service shows the addresses it is seen under. What is configured is taken; what is not is asked
for on the web, by one caller at a time behind a gate of one, and kept for a while: for some minutes
if anything was found, and for one minute otherwise. So the two addresses are a value that expires,
and the work that renews it are the requests for the families for which nothing is configured.

## Requests

The two requests of a caller are sent one after the other and are in flight together. They are read
here in a fixed order, which nobody can tell: a request touches no field. A request is two calls of
the model, one up to the sending and one for the rest, so that it can be said who has a request in
flight.

What is caught is what the code catches; a request that was cancelled by the caller's own token is
told from a timeout of the client by `isCancellationRequested`, and only the latter is taken for
an address that could not be found.

## What is deliberately absent

How a client connects (`CreateClient`) is not modelled, and neither are the log and `Dispose`. What
`HttpClient` answers is any text, or any failure.

## Main definitions

* `EgressService.getAsync` — what a caller runs
* `EgressService.Discovery` — how far it has come with its requests
* `EgressService.Discovery.Made` — what this says about the requests

## Main results

* `EgressService.follows_getAsync` — the phases of one caller
* `EgressService.obeys` — what the callers are as users of a value that expires
-/

namespace LookingGlass

open Utf16 Interaction Expiring

structure EgressAddresses where
  ipv4 : Option Str
  ipv6 : Option Str
  deriving DecidableEq

namespace EgressAddresses

def get (addresses : EgressAddresses) : AddressFamily → Option Str
  | .interNetwork => addresses.ipv4
  | .interNetworkV6 => addresses.ipv6

def set (addresses : EgressAddresses) (address : Option Str) : AddressFamily → EgressAddresses
  | .interNetwork => { addresses with ipv4 := address }
  | .interNetworkV6 => { addresses with ipv6 := address }

theorem get_set (addresses : EgressAddresses) (address : Option Str)
    (family other : AddressFamily) : (addresses.set address family).get other =
      if other = family then address else addresses.get other := by
  cases family <;> cases other <;> rfl

end EgressAddresses

/-- The service does not start with options that are out of range. -/
structure EgressOptions where
  enabled : Bool := true
  ipv4 : Option Str := none
  ipv6 : Option Str := none
  ipv4Url : Str := "https://api.ipify.org"
  ipv6Url : Str := "https://api6.ipify.org"
  cacheMinutes : ℤ := 10
  cacheMinutes_range : 1 ≤ cacheMinutes ∧ cacheMinutes ≤ 1440 := by decide

def EgressOptions.url (options : EgressOptions) : AddressFamily → Str
  | .interNetwork => options.ipv4Url
  | .interNetworkV6 => options.ipv6Url

inductive EgressOp
  /-- `GetStringAsync` by the client of a family, up to the sending of the request. -/
  | getString (family : AddressFamily) (url : Str)
  /-- The rest of it. -/
  | awaitString (family : AddressFamily)
  | isCancellationRequested
  deriving DecidableEq

abbrev EgressOp.Ret : EgressOp → Type
  | getString _ _ => Unit
  | awaitString _ => Except Exn Str
  | isCancellationRequested => Bool

abbrev Requests : Interface := ⟨EgressOp, EgressOp.Ret⟩

/-- The calls on `_cached`, `_expires`, `_refresh` and the clock, and the requests. -/
abbrev Egress : Interface := Calls EgressAddresses Requests

namespace EgressService

def minute : ℤ := 600000000

def failureCache : ℤ := minute

def validate (rt : Runtime) (value : Option Str) (family : AddressFamily) : Option Str :=
  match value.bind rt.tryParseAddress with
  | some ip => if ip.addressFamily = family then some (rt.addressToString ip) else none
  | none => none

def merge (configured discovered : EgressAddresses) : EgressAddresses :=
  ⟨configured.ipv4 <|> discovered.ipv4, configured.ipv6 <|> discovered.ipv6⟩

/-- A member of what may be `null`. -/
def deref : Option EgressAddresses → Except Exn EgressAddresses
  | some addresses => .ok addresses
  | none => .error .other

/-- What is caught: the HTTP client is cancelled with a `TaskCanceledException`. -/
def isCaught : Exn → Bool
  | .httpRequest | .socket | .operationCanceled | .invalidOperation => true
  | _ => false

/-- What is left of `DiscoverAsync` when the request is sent. -/
def awaitDiscovery (rt : Runtime) (family : AddressFamily) : Task Egress Exn (Option Str) :=
  tryCatch (do
    let body ← Task.call (I := Egress) (.inr (.awaitString family)) fun answer => answer
    pure (validate rt (some (trim Runtime.isWhiteSpace body)) family))
    fun ex =>
      if isCaught ex then do
        let requested : Bool ← Task.perform (I := Egress) (.inr .isCancellationRequested)
        if requested then throw ex else pure none
      else throw ex

/-- `DiscoverAsync`, which runs until the request is sent and is awaited later. -/
def discoverAsync (rt : Runtime) (url : Str) (family : AddressFamily) :
    Task Egress Exn (Task Egress Exn (Option Str)) := do
  Task.perform (I := Egress) (.inr (.getString family url))
  pure (awaitDiscovery rt family)

/-- `configured is null ? DiscoverAsync(…) : Task.FromResult<string?>(null)` -/
def discoverIfNull (rt : Runtime) (configured : Option Str) (url : Str) (family : AddressFamily) :
    Task Egress Exn (Task Egress Exn (Option Str)) :=
  if configured.isNone then discoverAsync rt url family else pure (pure none)

/-- `Task.WhenAll` of two tasks, and their results. -/
def whenAll (fst snd : Task Egress Exn (Option Str)) : Task Egress Exn EgressAddresses := do
  let x ← Task.attempt fst
  let y ← Task.attempt snd
  Task.ofExcept do
    let _ ← gather [x, y]
    pure ⟨← x, ← y⟩

/-- `_cached.Ipv4 is null && _cached.Ipv6 is null` -/
def isEmpty : Task Egress Exn Bool := do
  let cached ← Task.call (I := Egress) (.inl .readValue) deref
  if cached.ipv4.isNone then
    let cached ← Task.call (I := Egress) (.inl .readValue) deref
    pure cached.ipv6.isNone
  else pure false

def configuredAddresses (rt : Runtime) (options : EgressOptions) : EgressAddresses :=
  ⟨validate rt options.ipv4 .interNetwork, validate rt options.ipv6 .interNetworkV6⟩

/-- Nothing is asked for. -/
def isFixed (rt : Runtime) (options : EgressOptions) : Bool :=
  !options.enabled || (configuredAddresses rt options).ipv4.isSome &&
    (configuredAddresses rt options).ipv6.isSome

def ttl (options : EgressOptions) (isEmpty : Bool) : ℤ :=
  if isEmpty then failureCache else options.cacheMinutes * minute

/-- `Merge(configured, _cached)` -/
def mergeCached (configured : EgressAddresses) : Task Egress Exn EgressAddresses := do
  let cached ← Task.call (I := Egress) (.inl .readValue) deref
  pure (merge configured cached)

/-- The gate is awaited with a token, and releasing it when it is free throws a
`SemaphoreFullException`. -/
def getAsync (rt : Runtime) (options : EgressOptions) : Task Egress Exn EgressAddresses := do
  let configured := configuredAddresses rt options
  if isFixed rt options then pure configured
  else do
    let fresh ← isFresh
    if fresh then mergeCached configured
    else do
      enter .operationCanceled
      tryFinally (do
        let fresh ← isFresh
        if fresh then mergeCached configured
        else do
          let v4 ← discoverIfNull rt configured.ipv4 options.ipv4Url .interNetwork
          let v6 ← discoverIfNull rt configured.ipv6 options.ipv6Url .interNetworkV6
          let discovered ← whenAll v4 v6
          perform (.writeValue discovered)
          let empty ← isEmpty
          let now : DateTimeOffset ← perform .getUtcNow
          perform (.writeExpires (now + ttl options empty))
          mergeCached configured)
        (leave .other)

/-! ### The requests of a caller

Where a caller is with its requests says which ones it has sent and what they brought. -/

variable {rt : Runtime} {options : EgressOptions}

theorem enabled_of_not_isFixed (h : isFixed rt options = false) : options.enabled = true := by
  cases henabled : options.enabled with
  | true => rfl
  | false => simp [isFixed, henabled] at h

/-- How long addresses are kept. -/
def timeToLive (options : EgressOptions) (addresses : EgressAddresses) : ℤ :=
  ttl options (addresses.ipv4.isNone && addresses.ipv6.isNone)

theorem timeToLive_pos (addresses : EgressAddresses) : 0 < timeToLive options addresses := by
  have hrange := options.cacheMinutes_range.1
  rw [timeToLive, ttl]
  split <;> simp only [failureCache, minute] <;> omega

/-- How far a caller has come with its requests: how many are in flight, what has been found, and
whether it is going to fail. -/
structure Discovery where
  inFlight : ℕ := 0
  found : EgressAddresses := ⟨none, none⟩
  fails : Bool := false

namespace Discovery

/-- Only what is not configured is asked for, where the options say. -/
def isAllowed (rt : Runtime) (options : EgressOptions) (d : Discovery) : EgressOp → Prop
  | .getString family url => options.enabled = true ∧
    (configuredAddresses rt options).get family = none ∧ url = options.url family
  | .awaitString _ => 0 < d.inFlight
  | .isCancellationRequested => True

def next (rt : Runtime) (d : Discovery) : Event Requests → Discovery
  | ⟨.getString _ _, _⟩ => { d with inFlight := d.inFlight + 1 }
  | ⟨.awaitString family, .ok body⟩ => {
    inFlight := d.inFlight - 1
    found := d.found.set (validate rt (some (trim Runtime.isWhiteSpace body)) family) family
    fails := d.fails }
  | ⟨.awaitString _, .error ex⟩ =>
    { d with inFlight := d.inFlight - 1, fails := d.fails || !isCaught ex }
  | ⟨.isCancellationRequested, requested⟩ => { d with fails := d.fails || requested }

end Discovery

def renewal (rt : Runtime) (options : EgressOptions) :
    Renewal EgressAddresses Requests Discovery where
  protocol := ⟨Discovery.isAllowed rt options, Discovery.next rt⟩
  start := {}
  Yields d addresses := d.inFlight = 0 ∧ d.fails = false ∧ d.found = addresses
  Fails d := d.inFlight = 0 ∧ d.fails = true
  timeToLive := timeToLive options

/-- What a caller returns that has read these addresses. -/
def merged (configured : EgressAddresses) (addresses : Option EgressAddresses) :
    Except Exn EgressAddresses :=
  (deref addresses).map (merge configured)

theorem follows_mergeCached {configured : EgressAddresses}
    {phase : Phase EgressAddresses Discovery}
    {post : Phase EgressAddresses Discovery → Except Exn EgressAddresses → Prop}
    (hallowed : phase.isAllowed (renewal rt options) (.inl .readValue))
    (h : ∀ read, post (phase.next (renewal rt options) ⟨.inl .readValue, read⟩)
      (merged configured read)) :
    Task.Follows (protocol (renewal rt options)) post (mergeCached configured) phase := by
  refine Task.follows_bind.mpr ⟨hallowed, fun read => ?_⟩
  cases read with
  | none => exact h none
  | some addresses => exact h (some addresses)

/-- What is read back is what was written. -/
theorem follows_deref {addresses : EgressAddresses}
    {post : Phase EgressAddresses Discovery → Except Exn EgressAddresses → Prop}
    (h : post (.written addresses) (.ok addresses)) (hbroken : ∀ r, post .broken r) :
    Task.Follows (protocol (renewal rt options)) post
      (Task.call (I := Egress) (.inl .readValue) deref) (.written addresses) := by
  refine ⟨.inl rfl, fun read => ?_⟩
  show post ((Phase.written addresses).next (renewal rt options) ⟨.inl .readValue, read⟩)
    (deref read)
  rcases next_written (renewal rt options) addresses read with ⟨rfl, hnext⟩ | ⟨-, hnext⟩ <;>
    rw [hnext]
  · exact h
  · exact hbroken _

theorem follows_isEmpty {addresses : EgressAddresses}
    {post : Phase EgressAddresses Discovery → Except Exn Bool → Prop}
    (h : post (.written addresses) (.ok (addresses.ipv4.isNone && addresses.ipv6.isNone)))
    (hbroken : ∀ r, post .broken r) :
    Task.Follows (protocol (renewal rt options)) post isEmpty (.written addresses) := by
  refine Task.follows_bind.mpr (follows_deref ?_ fun _ => andThen_broken hbroken)
  refine Task.follows_ite.mpr ⟨fun hnone => ?_, fun hsome => ?_⟩
  · refine Task.follows_bind.mpr (follows_deref ?_ fun _ => andThen_broken hbroken)
    rwa [hnone, Bool.true_and] at h
  · rwa [Bool.eq_false_iff.mpr hsome, Bool.false_and] at h

/-- The task, with this number of requests in flight, finds what the caller then has found of its
family, or the caller is going to fail; it has no request in flight then. -/
def Finds (rt : Runtime) (options : EgressOptions) (requests : ℕ) (family : AddressFamily)
    (t : Task Egress Exn (Option Str)) : Prop :=
  ∀ (inFlight : ℕ) (found : EgressAddresses) (fails : Bool)
    (post : Phase EgressAddresses Discovery → Except Exn (Option Str) → Prop),
    found.get family = none →
    (∀ found', (∀ other, other ≠ family → found'.get other = found.get other) →
      post (.working ⟨inFlight, found', fails⟩) (.ok (found'.get family))) →
    (∀ ex, post (.working ⟨inFlight, found, true⟩) (.error ex)) →
    Task.Follows (protocol (renewal rt options)) post t
      (.working ⟨inFlight + requests, found, fails⟩)

theorem finds_none (family : AddressFamily) : Finds rt options 0 family (pure none) := by
  intro inFlight found fails post hnone h _
  have hpost := h found fun _ _ => rfl
  rwa [hnone] at hpost

theorem finds_awaitDiscovery (family : AddressFamily) :
    Finds rt options 1 family (awaitDiscovery rt family) := by
  intro inFlight found fails post hnone h hfail
  refine Task.follows_tryCatch.mpr (Task.follows_bind.mpr ⟨inFlight.succ_pos, fun answer => ?_⟩)
  cases answer with
  | ok body =>
    have hpost := h (found.set (validate rt (some (trim Runtime.isWhiteSpace body)) family) family)
      fun other hother => by rw [EgressAddresses.get_set, if_neg hother]
    rwa [EgressAddresses.get_set, if_pos rfl] at hpost
  | error ex =>
    show Task.Follows _ post _ (.working ⟨inFlight, found, fails || !isCaught ex⟩)
    refine Task.follows_ite.mpr ⟨fun hcaught => ?_, fun hcaught => ?_⟩
    · rw [hcaught, Bool.not_true, Bool.or_false]
      refine Task.follows_bind.mpr ⟨trivial, Bool.forall_bool.mpr ⟨?_, ?_⟩⟩
      · have hpost := h found fun _ _ => rfl
        rw [hnone, ← Bool.or_false fails] at hpost
        exact hpost
      · have hpost := hfail ex
        rw [← Bool.or_true fails] at hpost
        exact hpost
    · rw [Bool.eq_false_iff.mpr hcaught, Bool.not_false, Bool.or_true]
      exact hfail ex

/-- The start of a discovery, if nothing is configured for the family. -/
theorem follows_discoverIfNull (family : AddressFamily)
    {post : Phase EgressAddresses Discovery → Except Exn (Task Egress Exn (Option Str)) → Prop}
    {d : Discovery} (henabled : options.enabled = true)
    (h : ∀ requests t, Finds rt options requests family t →
      post (.working { d with inFlight := d.inFlight + requests }) (.ok t)) :
    Task.Follows (protocol (renewal rt options)) post
      (discoverIfNull rt ((configuredAddresses rt options).get family) (options.url family) family)
      (.working d) := by
  refine Task.follows_ite.mpr ⟨fun hnone => ?_, fun _ => h 0 _ (finds_none family)⟩
  refine Task.follows_bind.mpr ⟨⟨henabled, Option.isNone_iff_eq_none.mp hnone, rfl⟩, fun _ => ?_⟩
  exact h 1 _ (finds_awaitDiscovery family)

/-- Both tasks are run to their ends, and found is what both of them find. -/
theorem follows_whenAll {inFlight requests₄ requests₆ : ℕ} {v4 v6 : Task Egress Exn (Option Str)}
    {post : Phase EgressAddresses Discovery → Except Exn EgressAddresses → Prop}
    (hv4 : Finds rt options requests₄ .interNetwork v4)
    (hv6 : Finds rt options requests₆ .interNetworkV6 v6)
    (hboth : inFlight = requests₆ + requests₄)
    (h : ∀ found, post (.working ⟨0, found, false⟩) (.ok found))
    (hfail : ∀ found ex, post (.working ⟨0, found, true⟩) (.error ex)) :
    Task.Follows (protocol (renewal rt options)) post (whenAll v4 v6)
      (.working ⟨inFlight, ⟨none, none⟩, false⟩) := by
  subst hboth
  have hgather : ∀ found (x y : Except Exn (Option Str)), (∀ a b, x = .ok a → y ≠ .ok b) →
      post (.working ⟨0, found, true⟩) (do let _ ← gather [x, y]; pure ⟨← x, ← y⟩) := by
    intro found x y hfails
    cases hboth : gather [x, y] with
    | error ex => exact hfail found ex
    | ok results =>
      cases x with
      | error ex => exact hfail found ex
      | ok a =>
        cases y with
        | error ex => exact hfail found ex
        | ok b => exact absurd rfl (hfails a b rfl)
  refine Task.follows_bind.mpr (Task.follows_attempt.mpr
    (hv4 _ _ _ _ rfl (fun found hother => ?_) fun ex => ?_))
  · have hnone : found.get .interNetworkV6 = none := hother _ (by decide)
    refine Task.follows_bind.mpr (Task.follows_attempt.mpr
      (Nat.zero_add requests₆ ▸ hv6 0 _ _ _ hnone (fun found' hother' => ?_)
        fun ex => hgather _ _ _ fun a b _ hb => nomatch hb))
    show post _ (.ok ⟨found.get .interNetwork, found'.get .interNetworkV6⟩)
    rw [← hother' .interNetwork (by decide)]
    exact h found'
  · exact Task.follows_bind.mpr (Task.follows_attempt.mpr (Nat.zero_add requests₆ ▸ hv6 0 _ _ _ rfl
      (fun found' _ => hgather _ _ _ fun a b ha => nomatch ha)
      fun ex' => hgather _ _ _ fun a b ha => nomatch ha))

/-- **The phases of one caller**, to its end: it returns what its outcome says. -/
theorem follows_getAsync (hfixed : isFixed rt options = false) :
    Task.Follows (protocol (renewal rt options))
      (Finished (merged (configuredAddresses rt options))) (getAsync rt options)
      (.looking false .begun) := by
  have henabled := enabled_of_not_isFixed hfixed
  rw [getAsync, hfixed]
  refine follows_getOrRenew follows_mergeCached ?_
  refine Task.follows_bind.mpr (follows_discoverIfNull .interNetwork henabled
    fun requests₄ v4 hv4 => ?_)
  refine Task.follows_bind.mpr (follows_discoverIfNull .interNetworkV6 henabled
    fun requests₆ v6 hv6 => ?_)
  have hboth : 0 + requests₄ + requests₆ = requests₆ + requests₄ := by omega
  refine Task.follows_bind.mpr (follows_whenAll hv4 hv6 hboth (fun found => ?_) fun found ex => ?_)
  · refine Task.follows_bind.mpr ⟨.inl ⟨found, rfl, rfl, rfl, rfl⟩, fun _ => ?_⟩
    refine Task.follows_bind.mpr (follows_isEmpty ?_ fun _ => andThen_broken fun _ => .inl rfl)
    refine Task.follows_bind.mpr ⟨.inr rfl, fun now => Task.follows_bind.mpr ⟨rfl, fun _ => ?_⟩⟩
    exact follows_mergeCached rfl fun read => .inr (.inl ⟨_, _, _, rfl, rfl⟩)
  · exact .inr (.inr ⟨_, ex, rfl, ⟨rfl, rfl⟩, rfl⟩)

end EgressService

end LookingGlass
