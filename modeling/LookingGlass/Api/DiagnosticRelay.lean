import LookingGlass.Api.ActivityLog
import LookingGlass.Api.ClientIpHasher
import LookingGlass.Api.ConcurrencyGuard
import LookingGlass.Contracts.DestinationPolicy

/-!
# The relay

The four diagnostics of the public interface take one way: the body is validated with the policy
that the diagnostics service validates with as well, passed on, and what comes back is described
for the activity log and returned.

The calls are those on the metrics, the backend, the activity log and the logger; those of the
client hash are reached through the sum of the two interfaces. A ledger keeps what the calls of one
request amount to, and what is said about a request is said about its ledger.

## One definition, four endpoints

The four endpoints differ in the body that they take, in the check of it, and in the line that they
add to the activity log. `relayAsync` has these as arguments, as the code has, and what is proved of
it holds for any check and any description. Each endpoint is then that definition with the values of
its own.

A description may fail. It is made from a reply whose list of entries may be `null`, and counting a
`null` list is an exception; `Deserialised` remembers whether there was a list.

## Why a ledger

The calls of a request are a list in which most entries do not matter. The ledger is what is left
when they are dropped: what was passed on to the backend, what was entered in the log, and what the
gauge has gone up by. Whether a request leaves the gauge where it was can be read off its ledger on
every exit, and for any number of requests the gauge is the sum of the ledgers.

## Main results

* `DiagnosticRelay.follows_relay` — the ledger of one request
* `DiagnosticRelay.relayed_of_runs` — what it sends, records and counts, on every exit
* `DiagnosticRelay.active_of_reachable` — the gauge, in every state of any number of requests
-/

namespace LookingGlass

open Utf16 Interaction

inductive DiagnosticKind
  | ping
  | traceroute
  | mtr
  | dns
  deriving DecidableEq

/-- A response as the deserialiser hands it over: where the reply has `null` for the list of
entries, it has none. -/
structure Deserialised (T : Type) where
  response : T
  hasEntries : Bool := true

namespace DiagnosticKind

abbrev type : DiagnosticKind → Str
  | ping => DiagnosticTypes.ping
  | traceroute => DiagnosticTypes.traceroute
  | mtr => DiagnosticTypes.mtr
  | dns => DiagnosticTypes.dns

abbrev Body : DiagnosticKind → Type
  | dns => DnsLookupRequest
  | _ => DestinationRequest

abbrev Response : DiagnosticKind → Type
  | ping => Deserialised PingResponse
  | traceroute => Deserialised TracerouteResponse
  | mtr => Deserialised MtrResponse
  | dns => Deserialised DnsResponse

end DiagnosticKind

inductive ApiCounter
  | requests
  | requestsFailed
  | rejected
  deriving DecidableEq

structure LogEntry where
  result : Str
  requestId : Str
  clientIpHash : Str
  endpoint : Str
  diagnosticType : Str
  destination : Str
  error : Option Str

inductive RelayOp
  | inc (counter : ApiCounter) (labels : List Str)
  | observeDuration (type : Str)
  | activeInc
  | activeDec
  /-- `client.PostAsync` -/
  | post (kind : DiagnosticKind) (body : Option kind.Body) (requestId : Str)
  /-- `activity.Add` -/
  | addActivity (type target summary : Str)
  | log (entry : LogEntry)

abbrev RelayOp.Ret : RelayOp → Type
  | post kind _ _ => Except Exn kind.Response
  | _ => Unit

abbrev Relay : Interface := ⟨RelayOp, RelayOp.Ret⟩

namespace DiagnosticRelay

variable {α : Type}

def maxLoggedInputLength : ℕ := 100

/-- Make a call of the relay's own. -/
def call (op : RelayOp) (f : RelayOp.Ret op → Except Exn α) : Task (Relay.sum Hasher) Exn α :=
  Task.call (I := Relay.sum Hasher) (.inl op) f

def inc (counter : ApiCounter) (labels : List Str) : Task (Relay.sum Hasher) Exn Unit :=
  call (.inc counter labels) .ok

def truncate (input : Option Str) : Str :=
  match input with
  | none => []
  | some input =>
    if input.length ≤ maxLoggedInputLength then input else input.take maxLoggedInputLength

/-- The `catch` clauses. -/
def handle (entry : Str → Option Str → LogEntry) (type : Str) (ex : Exn) :
    Task (Relay.sum Hasher) Exn α :=
  match ex with
  | .lookingGlass ex => do
    inc .requestsFailed [type, ex.code]
    if ex.code = ProblemCodes.validationFailed ∨ ex.code = ProblemCodes.destinationBlocked ∨
        ex.code = ProblemCodes.busy then
      inc .rejected [ex.code]
    call (.log (entry "failed" (some ex.code))) .ok
    throw (Exn.lookingGlass ex)
  | .operationCanceled => do
    inc .requestsFailed [type, ProblemCodes.cancelled]
    call (.log (entry "cancelled" none)) .ok
    throw Exn.operationCanceled
  | ex => throw ex

/-- One request, from the counter at its start to the `finally`. The exceptions that a `catch`
clause names are counted and logged, and thrown on; the others are thrown on only. -/
def relayAsync (rt : Runtime) (crypto : Crypto) (context : HttpContext) (traceIdentifier : Str)
    (kind : DiagnosticKind) (body : Option kind.Body) (rawInput : Option Str)
    (validate : Except Exn Unit) (describe : kind.Response → Except Exn (Str × Str)) :
    Task (Relay.sum Hasher) Exn kind.Response := do
  inc .requests [kind.type]
  call .activeInc .ok
  let clientHash ← Task.right (I := Relay)
    (ClientIpHasher.hash crypto (context.remoteIpAddress.map rt.addressToString))
  let input := truncate rawInput
  let entry (result : Str) (error : Option Str) : LogEntry :=
    ⟨result, traceIdentifier, clientHash, context.path, kind.type, input, error⟩
  try
    Task.ofExcept validate
    let response ← call (.post kind body traceIdentifier) fun answer => answer
    let (target, summary) ← Task.ofExcept (describe response)
    call (.addActivity kind.type target summary) .ok
    call (.log (entry "ok" none)) .ok
    pure response
  catch ex => handle entry kind.type ex
  finally
    call .activeDec .ok
    call (.observeDuration kind.type) .ok

/-! ### Validation

The policy is the one of the diagnostics service. What it refuses is an exception, with a code for
what is blocked and another for what is malformed. -/

def throwIfInvalid (result : DestinationParseResult) : Except Exn Unit :=
  match result with
  | .ok _ => .ok ()
  | .error error =>
    .error (match error.kind with
      | .blocked => LookingGlassException.blocked error.message
      | .invalid => LookingGlassException.validation error.message)

def validateDestination (rt : Runtime) (policy : DestinationPolicy)
    (body : Option DestinationRequest) : Except Exn Unit :=
  match body with
  | none => .error (LookingGlassException.validation "A destination is required.")
  | some body => throwIfInvalid (policy.parse rt body.destination false)

def validateDns (rt : Runtime) (policy : DestinationPolicy) (body : Option DnsLookupRequest) :
    Except Exn Unit :=
  match body with
  | none => .error (LookingGlassException.validation "A domain name is required.")
  | some body =>
    if (DnsRecordTypes.tryNormalize rt body.recordType).isNone then
      .error (LookingGlassException.validation
        (concat ["Record type must be one of ", join ", " DnsRecordTypes.supported, "."]))
    else throwIfInvalid (policy.parse rt body.name true)

/-! ### The four diagnostics

What is described for the log is a name and a short summary, in the words of the source. -/

/-- The number of entries of a list, which is an exception where there is no list. -/
def count {T : Type} (reply : Deserialised T) (entries : ℕ) : Except Exn Str :=
  if reply.hasEntries then .ok (AddressText.decimal entries) else .error .other

section

variable (rt : Runtime) (crypto : Crypto) (policy : DestinationPolicy) (context : HttpContext)
  (traceIdentifier : Str)

def pingAsync (body : Option DestinationRequest) :
    Task (Relay.sum Hasher) Exn (Deserialised PingResponse) :=
  relayAsync rt crypto context traceIdentifier .ping body (body.bind DestinationRequest.destination)
    (validateDestination rt policy body) fun reply =>
      let r := reply.response
      .ok (r.destination, if r.received = 0 then "No reply" else
        concat [(r.avgMs.map (Double.format 0 1)).getD [], " ms avg, ",
          r.lossPercent.format 0 1, "% loss"])

def tracerouteAsync (body : Option DestinationRequest) :
    Task (Relay.sum Hasher) Exn (Deserialised TracerouteResponse) :=
  relayAsync rt crypto context traceIdentifier .traceroute body
    (body.bind DestinationRequest.destination) (validateDestination rt policy body) fun reply => do
      let hops ← count reply reply.response.hops.length
      return (reply.response.destination, concat [hops, " hops"])

def mtrAsync (body : Option DestinationRequest) :
    Task (Relay.sum Hasher) Exn (Deserialised MtrResponse) :=
  relayAsync rt crypto context traceIdentifier .mtr body (body.bind DestinationRequest.destination)
    (validateDestination rt policy body) fun reply => do
      let hops ← count reply reply.response.hops.length
      return (reply.response.destination, concat [hops, " hops"])

def dnsAsync (body : Option DnsLookupRequest) :
    Task (Relay.sum Hasher) Exn (Deserialised DnsResponse) :=
  relayAsync rt crypto context traceIdentifier .dns body (body.bind DnsLookupRequest.name)
    (validateDns rt policy body) fun reply => do
      let records ← count reply reply.response.records.length
      return (reply.response.name, concat [reply.response.recordType, " · ", records, " records"])

/-- The endpoint of each diagnostic. -/
def relay : (kind : DiagnosticKind) → (body : Option kind.Body) →
    Task (Relay.sum Hasher) Exn kind.Response
  | .ping, body => pingAsync rt crypto policy context traceIdentifier body
  | .traceroute, body => tracerouteAsync rt crypto policy context traceIdentifier body
  | .mtr, body => mtrAsync rt crypto policy context traceIdentifier body
  | .dns, body => dnsAsync rt crypto policy context traceIdentifier body

end

/-! ### The ledger of a request

A ledger is a protocol that allows every call: it keeps the books and forbids nothing. -/

/-- A request that was passed on, with the answer. -/
structure Post where
  kind : DiagnosticKind
  body : Option kind.Body
  requestId : Str
  answer : Except Exn kind.Response

/-- What the activity log was called with. -/
structure Entry where
  type : Str
  target : Str
  summary : Str

/-- What is kept of the calls of a request, in its order. Calls of which nothing is to be said leave
no trace in it. -/
structure Ledger where
  posts : List Post := []
  entries : List Entry := []
  /-- What the gauge has gone up by. -/
  active : ℤ := 0

namespace Ledger

def next : Ledger → Event (Relay.sum Hasher) → Ledger
  | ledger, ⟨.inl (.post kind body requestId), answer⟩ =>
    { ledger with posts := ledger.posts ++ [⟨kind, body, requestId, answer⟩] }
  | ledger, ⟨.inl (.addActivity type target summary), _⟩ =>
    { ledger with entries := ledger.entries ++ [⟨type, target, summary⟩] }
  | ledger, ⟨.inl .activeInc, _⟩ => { ledger with active := ledger.active + 1 }
  | ledger, ⟨.inl .activeDec, _⟩ => { ledger with active := ledger.active - 1 }
  | ledger, _ => ledger

end Ledger

def ledger (es : List (Event (Relay.sum Hasher))) : Ledger := es.foldl Ledger.next {}

def protocol : Protocol (Relay.sum Hasher) Ledger := ⟨fun _ _ => True, Ledger.next⟩

/-- The body passes the checks of the policy, with the type of the record where one is looked up. -/
def Valid (rt : Runtime) (policy : DestinationPolicy) : (kind : DiagnosticKind) → kind.Body → Prop
  | .dns, body => (DnsRecordTypes.tryNormalize rt body.recordType).isSome ∧
    ∃ destination, policy.parse rt body.name true = .ok destination
  | .ping, body | .traceroute, body | .mtr, body =>
    ∃ destination, policy.parse rt body.destination false = .ok destination

/-- What the ledger of a request says in the end: at most one post, and an entry in the log exactly
if there is a response. The post has the body of the request and its own request ID, and a response
that is returned is the answer to it. -/
structure Relayed {kind : DiagnosticKind} (body : Option kind.Body) (requestId : Str)
    (valid : kind.Body → Prop) (ledger : Ledger) (r : Except Exn kind.Response) : Prop where
  posts : ledger.posts = [] ∨ ∃ b answer, body = some b ∧ valid b ∧
    ledger.posts = [⟨kind, some b, requestId, answer⟩]
  returned : ∀ response, r = .ok response →
    (∃ b, ledger.posts = [⟨kind, some b, requestId, .ok response⟩]) ∧
      ∃ target summary, ledger.entries = [⟨kind.type, target, summary⟩]
  failed : ∀ ex, r = .error ex → ledger.entries = []
  active : ledger.active = 0

section

variable {rt : Runtime} {crypto : Crypto} {policy : DestinationPolicy} {context : HttpContext}
  {traceIdentifier : Str} {kind : DiagnosticKind} {body : Option kind.Body}

/-- The hash has a value, whoever keeps the books, as long as its calls are in none of them. -/
theorem follows_hash {G : Type} {P : Protocol (Relay.sum Hasher) G} {address : Option Str} {g : G}
    (hP : ∀ op, P.allowed g (.inr op) ∧ ∀ answer, P.next g ⟨.inr op, answer⟩ = g)
    {post : G → Except Exn Str → Prop} (hpost : ∀ hash, post g (.ok hash)) :
    Task.Follows P post (Task.right (I := Relay) (ClientIpHasher.hash crypto address)) g := by
  have hhash : Task.Follows ⟨fun _ _ => True, fun (_ : Unit) _ => ()⟩
      (fun _ x => ∃ hash, x = .ok hash) (ClientIpHasher.hash crypto address) () := by
    match address with
    | none | some [] => exact ⟨_, rfl⟩
    | some (c :: cs) =>
      exact Task.follows_bind.mpr (Task.follows_bind.mpr
        ⟨trivial, fun _ => ⟨trivial, fun _ => ⟨_, rfl⟩⟩⟩)
  exact Prog.follows_right_of hP hhash fun _ ⟨hash, h⟩ => h ▸ hpost hash

/-- A handler fails, and what it calls is not in the ledger. -/
theorem follows_handle {α : Type} {entry : Str → Option Str → LogEntry} {type : Str} {ex : Exn}
    {l : Ledger} {post : Ledger → Except Exn α → Prop} (hpost : ∀ ex, post l (.error ex)) :
    Task.Follows protocol post (handle entry type ex) l := by
  cases ex with
  | lookingGlass ex =>
    refine Task.follows_bind.mpr ⟨trivial, fun _ => Task.follows_ite.mpr ⟨fun _ => ?_, fun _ => ?_⟩⟩
    · exact Task.follows_bind.mpr
        ⟨trivial, fun _ => Task.follows_bind.mpr ⟨trivial, fun _ => hpost _⟩⟩
    · exact Task.follows_bind.mpr ⟨trivial, fun _ => hpost _⟩
  | operationCanceled =>
    exact Task.follows_bind.mpr
      ⟨trivial, fun _ => Task.follows_bind.mpr ⟨trivial, fun _ => hpost _⟩⟩
  | _ => exact hpost _

/-- **The ledger of one request**, whatever its validation and its description are. -/
theorem follows_relayAsync {rawInput : Option Str} {validate : Except Exn Unit}
    {describe : kind.Response → Except Exn (Str × Str)} {valid : kind.Body → Prop}
    (hvalid : validate = .ok () → ∃ b, body = some b ∧ valid b) :
    Task.Follows protocol (Relayed body traceIdentifier valid)
      (relayAsync rt crypto context traceIdentifier kind body rawInput validate describe) {} := by
  refine Task.follows_bind.mpr ⟨trivial, fun _ => Task.follows_bind.mpr ⟨trivial, fun _ => ?_⟩⟩
  refine Task.follows_bind.mpr (follows_hash (fun _ => ⟨trivial, fun _ => rfl⟩) fun hash => ?_)
  refine Task.follows_tryFinally.mpr (Task.follows_tryCatch.mpr (Task.follows_bind.mpr ?_))
  cases hvalidate : validate with
  | error ex =>
    refine follows_handle fun ex => Task.follows_bind.mpr ⟨trivial, fun _ => ⟨trivial, fun _ => ?_⟩⟩
    exact ⟨.inl rfl, fun _ h => (nomatch h), fun _ _ => rfl, rfl⟩
  | ok _ =>
  obtain ⟨b, rfl, hb⟩ := hvalid hvalidate
  refine Task.follows_bind.mpr ⟨trivial, fun answer => ?_⟩
  have hposts : ∃ b' answer', some b = some b' ∧ valid b' ∧
      [Post.mk kind (some b) traceIdentifier answer] =
        [⟨kind, some b', traceIdentifier, answer'⟩] :=
    ⟨b, answer, rfl, hb, rfl⟩
  have hfail : ∀ ex, Task.Follows protocol (fun l y => Relayed (some b) traceIdentifier valid l
      (y.bind fun _ => (.error ex : Except Exn kind.Response))) (do
        call .activeDec .ok
        call (.observeDuration kind.type) .ok)
        ⟨[⟨kind, some b, traceIdentifier, answer⟩], [], 1⟩ := by
    refine fun ex => Task.follows_bind.mpr ⟨trivial, fun _ => ⟨trivial, fun _ => ?_⟩⟩
    exact ⟨.inr hposts, fun _ h => (nomatch h), fun _ _ => rfl, rfl⟩
  cases answer with
  | error ex => exact follows_handle hfail
  | ok response =>
  refine Task.follows_bind.mpr ?_
  cases hdescribe : describe response with
  | error ex => exact follows_handle hfail
  | ok described =>
    obtain ⟨target, summary⟩ := described
    refine Task.follows_bind.mpr ⟨trivial, fun _ => Task.follows_bind.mpr ⟨trivial, fun _ => ?_⟩⟩
    refine Task.follows_bind.mpr ⟨trivial, fun _ => ⟨trivial, fun _ => ?_⟩⟩
    refine ⟨.inr hposts, fun response' h => ?_, fun _ h => (nomatch h), rfl⟩
    obtain rfl := Except.ok.inj h
    exact ⟨⟨b, rfl⟩, target, summary, rfl⟩

theorem exists_parse_of_throwIfInvalid {result : DestinationParseResult}
    (h : throwIfInvalid result = .ok ()) : ∃ destination, result = .ok destination := by
  cases result with
  | ok destination => exact ⟨destination, rfl⟩
  | error error => exact absurd h (by simp [throwIfInvalid])

theorem exists_valid_of_validateDestination {body : Option DestinationRequest}
    (h : validateDestination rt policy body = .ok ()) :
    ∃ b, body = some b ∧ ∃ destination, policy.parse rt b.destination false = .ok destination := by
  cases body with
  | none => exact absurd h (by simp [validateDestination])
  | some b => exact ⟨b, rfl, exists_parse_of_throwIfInvalid h⟩

theorem exists_valid_of_validateDns {body : Option DnsLookupRequest}
    (h : validateDns rt policy body = .ok ()) : ∃ b, body = some b ∧ Valid rt policy .dns b := by
  cases body with
  | none => exact absurd h (by simp [validateDns])
  | some b =>
    simp only [validateDns] at h
    by_cases htype : (DnsRecordTypes.tryNormalize rt b.recordType).isNone = true
    · rw [if_pos htype] at h
      exact absurd h (by simp)
    · rw [if_neg htype] at h
      exact ⟨b, rfl, by simpa [Option.isSome_iff_ne_none] using htype,
        exists_parse_of_throwIfInvalid h⟩

/-- The ledger of one request of any of the four kinds. -/
theorem follows_relay : Task.Follows protocol (Relayed body traceIdentifier (Valid rt policy kind))
    (relay rt crypto policy context traceIdentifier kind body) {} := by
  cases kind with
  | ping | traceroute | mtr => exact follows_relayAsync exists_valid_of_validateDestination
  | dns => exact follows_relayAsync exists_valid_of_validateDns

end

/-! ### The gauge and the activity log

The shared state of the service, as far as the relay changes it. Other services use the clock of the
hash and the log in turn. -/

/-- The gauge, the items of the activity log, and the fields of the hash with the clock. -/
structure State where
  active : ℤ := 0
  items : List ActivityItem := []
  hasher : ClientIpHasher.Shared := {}

def effect (settings : ActivityOptions) : State → Event (Relay.sum Hasher) → State → Prop
  | s, ⟨.inl .activeInc, _⟩, s' => s' = { s with active := s.active + 1 }
  | s, ⟨.inl .activeDec, _⟩, s' => s' = { s with active := s.active - 1 }
  | s, ⟨.inl (.addActivity type target summary), _⟩, s' =>
    ∃ pruneNow itemNow, s.hasher.now ≤ pruneNow ∧ pruneNow ≤ itemNow ∧ s' = { s with
      items := ActivityLog.add settings type target summary pruneNow itemNow s.items
      hasher := { s.hasher with now := itemNow } }
  | s, ⟨.inl _, _⟩, s' => s' = s
  | s, ⟨.inr op, answer⟩, s' =>
    ∃ hasher, ClientIpHasher.effect s.hasher ⟨op, answer⟩ hasher ∧ s' = { s with hasher := hasher }

structure Request where
  kind : DiagnosticKind
  body : Option kind.Body
  context : HttpContext
  traceIdentifier : Str

def system (rt : Runtime) (crypto : Crypto) (policy : DestinationPolicy)
    (settings : ActivityOptions) : System (Relay.sum Hasher) Request State where
  start := {}
  program request := (relay rt crypto policy request.context request.traceIdentifier request.kind
    request.body).run >>= fun _ => pure ()
  effect := effect settings

section

variable {rt : Runtime} {crypto : Crypto} {policy : DestinationPolicy} {settings : ActivityOptions}
  {s s' : State} {l : Ledger}

/-- What a list of calls makes of the items. The clock is read twice for each of them, so there are
two times, of which nothing is assumed here. -/
inductive Entered (settings : ActivityOptions) :
    List Entry → List ActivityItem → List ActivityItem → Prop
  | nil (items : List ActivityItem) : Entered settings [] items items
  | cons {entry : Entry} {entries : List Entry} {items items' : List ActivityItem}
      (pruneNow itemNow : DateTimeOffset)
      (tail : Entered settings entries (ActivityLog.add settings entry.type entry.target
        entry.summary pruneNow itemNow items) items') :
      Entered settings (entry :: entries) items items'

theorem entered_nil {items items' : List ActivityItem} (h : Entered settings [] items items') :
    items' = items := by
  cases h
  rfl

theorem entered_singleton {entry : Entry} {items items' : List ActivityItem}
    (h : Entered settings [entry] items items') :
    ∃ pruneNow itemNow, items' = ActivityLog.add settings entry.type entry.target entry.summary
      pruneNow itemNow items := by
  cases h with
  | cons pruneNow itemNow tail => exact ⟨pruneNow, itemNow, entered_nil tail⟩

/-- What one call does to the gauge is what it does to the ledger. -/
theorem active_of_effect {e : Event (Relay.sum Hasher)} (h : effect settings s e s') :
    s'.active = s.active + ((l.next e).active - l.active) := by
  match e, h with
  | ⟨.inl .activeInc, _⟩, h | ⟨.inl .activeDec, _⟩, h =>
    obtain rfl := h
    simp only [Ledger.next]
    omega
  | ⟨.inl (.addActivity _ _ _), _⟩, ⟨_, _, _, _, h⟩ | ⟨.inr _, _⟩, ⟨_, _, h⟩ =>
    obtain rfl := h
    simp only [Ledger.next]
    omega
  | ⟨.inl (.inc _ _), _⟩, h | ⟨.inl (.observeDuration _), _⟩, h | ⟨.inl (.post _ _ _), _⟩, h
  | ⟨.inl (.log _), _⟩, h =>
    obtain rfl := h
    simp only [Ledger.next]
    omega

/-- A call leaves the items alone, or it is one of the activity log. -/
theorem items_of_effect {e : Event (Relay.sum Hasher)} (h : effect settings s e s') :
    ((l.next e).entries = l.entries ∧ s'.items = s.items) ∨
      ∃ entry pruneNow itemNow, (l.next e).entries = l.entries ++ [entry] ∧
        s'.items = ActivityLog.add settings entry.type entry.target entry.summary pruneNow itemNow
          s.items := by
  match e, h with
  | ⟨.inl (.addActivity type target summary), _⟩, ⟨pruneNow, itemNow, _, _, h⟩ =>
    exact .inr ⟨⟨type, target, summary⟩, pruneNow, itemNow, rfl, by rw [h]⟩
  | ⟨.inr _, _⟩, ⟨_, _, h⟩ => exact .inl ⟨rfl, by rw [h]⟩
  | ⟨.inl .activeInc, _⟩, h | ⟨.inl .activeDec, _⟩, h => exact .inl ⟨rfl, by rw [h]⟩
  | ⟨.inl (.inc _ _), _⟩, h | ⟨.inl (.observeDuration _), _⟩, h | ⟨.inl (.post _ _ _), _⟩, h
  | ⟨.inl (.log _), _⟩, h => exact .inl ⟨rfl, by rw [h]⟩

/-- What the calls of a request do to the state, one right after the other, is in its ledger. -/
theorem ledger_of_effects {es : List (Event (Relay.sum Hasher))} (l : Ledger)
    (h : (system rt crypto policy settings).Effects s es s') :
    s'.active = s.active + ((es.foldl Ledger.next l).active - l.active) ∧
      ∃ entries, (es.foldl Ledger.next l).entries = l.entries ++ entries ∧
        Entered settings entries s.items s'.items := by
  induction h generalizing l with
  | nil s => exact ⟨by simp, [], by simp, .nil _⟩
  | @cons s s' s'' e es heffect tail ih =>
    obtain ⟨hactive, entries, hentries, hentered⟩ := ih (l.next e)
    refine ⟨?_, ?_⟩
    · have hstep := active_of_effect (l := l) heffect
      rw [List.foldl_cons]
      omega
    · rw [List.foldl_cons, hentries]
      rcases items_of_effect (l := l) heffect with ⟨hnone, hitems⟩ | ⟨entry, t₁, t₂, hone, hitems⟩
      · exact ⟨entries, by rw [hnone], hitems ▸ hentered⟩
      · refine ⟨entry :: entries, by rw [hone, List.append_assoc, List.singleton_append], ?_⟩
        exact .cons t₁ t₂ (hitems ▸ hentered)

/-- What a request leaves behind that runs without others in between. What it says of the items
could not be said otherwise, as others may push them out in the meantime. -/
structure LeftBehind (settings : ActivityOptions) (kind : DiagnosticKind) (s s' : State)
    (r : Except Exn kind.Response) : Prop where
  active : s'.active = s.active
  returned : settings.enabled = true → ∀ response, r = .ok response →
    ∃ item kept, s'.items = item :: kept ∧ kept.Sublist s.items ∧ item.type = kind.type
  failed : ∀ ex, r = .error ex → s'.items = s.items

theorem leftBehind_of_relayed {kind : DiagnosticKind} {body : Option kind.Body} {requestId : Str}
    {valid : kind.Body → Prop} {es : List (Event (Relay.sum Hasher))}
    {r : Except Exn kind.Response} (hrelayed : Relayed body requestId valid (ledger es) r)
    (h : (system rt crypto policy settings).Effects s es s') : LeftBehind settings kind s s' r := by
  obtain ⟨hactive, entries, hentries, hentered⟩ := ledger_of_effects {} h
  change (ledger es).entries = entries at hentries
  refine ⟨?_, fun henabled response hr => ?_, fun ex hr => ?_⟩
  · have hzero : (es.foldl Ledger.next {}).active = 0 := hrelayed.active
    rw [hactive, hzero]
    simp
  · obtain ⟨-, target, summary, hone⟩ := hrelayed.returned response hr
    rw [hone] at hentries
    subst hentries
    obtain ⟨pruneNow, itemNow, hadd⟩ := entered_singleton hentered
    obtain ⟨kept, hkept, hcons⟩ :=
      ActivityLog.exists_add_eq_cons henabled kind.type target summary pruneNow itemNow s.items
    exact ⟨_, kept, hadd.trans hcons, hkept, rfl⟩
  · rw [hrelayed.failed ex hr] at hentries
    subst hentries
    exact entered_nil hentered

/-- **What a request sends, records and counts**, on every exit: at most one request to the backend,
and that only with a valid body; one entry in the log exactly if there is a response; and a gauge
that is back where it was. -/
theorem relayed_of_runs {context : HttpContext} {traceIdentifier : Str} {kind : DiagnosticKind}
    {body : Option kind.Body} {es : List (Event (Relay.sum Hasher))} {r : Except Exn kind.Response}
    (h : Task.Runs (relay rt crypto policy context traceIdentifier kind body) es r) :
    Relayed body traceIdentifier (Valid rt policy kind) (ledger es) r ∧
      ∀ settings s s', (system rt crypto policy settings).Effects s es s' →
        LeftBehind settings kind s s' r := by
  have hrelayed := (Prog.Follows.run follows_relay h).1
  exact ⟨hrelayed, fun _ _ _ heffects => leftBehind_of_relayed hrelayed heffects⟩

end

/-! A request that is answered. -/

def examplePolicy : DestinationPolicy := .new .reference none none

def exampleBody : DestinationRequest := ⟨some "8.8.8.8", .auto⟩

def exampleReply : Deserialised PingResponse where
  response := {
    requestId := "a1", destination := "8.8.8.8", resolvedAddress := "8.8.8.8", family := .ipv4
    startedAt := 0, durationMs := 4000, transmitted := 4, received := 0, lossPercent := 100
    minMs := none, avgMs := none, maxMs := none, stdDevMs := none, replies := []
    technicalOutput := [], simulated := false }

/-- The backend knows how to ping. -/
def exampleAnswer : ∀ op, (Relay.sum Hasher).Ret op
  | .inl (.post .ping _ _) => .ok exampleReply
  | .inl (.post .traceroute _ _) | .inl (.post .mtr _ _) | .inl (.post .dns _ _) => .error .other
  | .inl (.inc _ _) | .inl (.observeDuration _) | .inl .activeInc | .inl .activeDec
  | .inl (.addActivity _ _ _) | .inl (.log _) => ()
  | .inr .getUtcNow => (0 : ℤ)
  | .inr (.compareAndRotate _) => ([] : Bytes)

theorem relayed_of_ping :
    ∃ (es : List (Event (Relay.sum Hasher))) (r : Except Exn (Deserialised PingResponse)),
      r = .ok exampleReply ∧
        Relayed (some exampleBody) "a1" (Valid .reference examplePolicy .ping)
          (ledger es) r ∧
        ∀ settings s s', (system .reference ClientIpHasher.exampleCrypto examplePolicy
          settings).Effects s es s' → LeftBehind settings .ping s s' r :=
  ⟨_, _, rfl, relayed_of_runs (Prog.run_simulate exampleAnswer
    (relay .reference ClientIpHasher.exampleCrypto examplePolicy ⟨"/api/v1/diagnostics/ping", none⟩
      "a1" .ping (some exampleBody)).run)⟩

/-! ### Any number of requests

Requests interleave in any way. The gauge is what all of them have counted up and not yet down. -/

/-- The ledger of a request so far. -/
abbrev Ledger.of (t : Thread (Relay.sum Hasher) Request) : Ledger := t.phase protocol fun _ => {}

theorem follows_program (rt : Runtime) (crypto : Crypto) (policy : DestinationPolicy)
    (settings : ActivityOptions) (request : Request) :
    ((system rt crypto policy settings).program request).Follows protocol (fun l _ => l.active = 0)
      {} :=
  Prog.follows_bind.mpr (follows_relay.mono fun _ _ h => h.active)

/-- The gauge shows what the requests have counted it up by, each by its own calls. It is an
invariant of all interleavings, since each request changes the gauge only by what its own ledger
says. -/
def Counted (s : State) (ledgers : List Ledger) : Prop :=
  s.active = (ledgers.map Ledger.active).sum

theorem Counted.step {settings : ActivityOptions} {s s' : State} {before after : List Ledger}
    {l : Ledger} {e : Event (Relay.sum Hasher)} (h : Counted s (before ++ l :: after))
    (heffect : effect settings s e s') : Counted s' (before ++ l.next e :: after) := by
  have hstep := active_of_effect (l := l) heffect
  simp only [Counted, List.map_append, List.map_cons, List.sum_append, List.sum_cons] at h ⊢
  omega

/-- **The gauge counts the requests in progress**: one that is done has left nothing on it. -/
theorem active_of_reachable {rt : Runtime} {crypto : Crypto} {policy : DestinationPolicy}
    {settings : ActivityOptions} {c : Config (Relay.sum Hasher) Request State}
    (h : (system rt crypto policy settings).Reachable c) :
    Counted c.shared (c.threads.map Ledger.of) ∧
      ∀ t ∈ c.threads, t.rest = .done () → (Ledger.of t).active = 0 := by
  refine ⟨?_, fun t ht hdone => ?_⟩
  · refine System.invariant_of_reachable (P := protocol) (follows_program rt crypto policy settings)
      ?_ (fun s ledgers _ hinv => ?_) (fun _ _ _ _ _ _ _ _ heffect hinv => hinv.step heffect) h
    · show (0 : ℤ) = 0
      rfl
    · simpa [Counted] using hinv
  · have hfollows := System.follows_of_reachable (follows_program rt crypto policy settings) h t ht
    rwa [hdone] at hfollows

end DiagnosticRelay

end LookingGlass
