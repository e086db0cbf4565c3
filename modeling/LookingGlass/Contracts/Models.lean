import LookingGlass.Contracts.Runtime
import LookingGlass.Foundations.Double
import Mathlib.Data.List.Forall2

/-!
# Requests, responses and failures

The records that travel between the services, and the exceptions that end a request early. A field
that the code may leave out is an `Option`; times are counted in ticks of 100 ns.

## What is modelled of a record

A record has the fields that some modelled function reads or writes, with the types that the code
gives them as far as it depends on them: a count is an integer, a latency a floating-point number, a
list a list. Fields that only pass through are there where a result is about all of a response.

The deserialiser is not modelled. What it may hand over beyond what the type says is: an enumeration
may have a value that names no member, because integers are accepted for it, and a text may be
missing where the type does not say so.

## Exceptions

Code tells exceptions apart by their types, in `catch` clauses and in filters on them. `Exn` has one
constructor for each type that is told apart anywhere, and `other` for all the rest. The exception
of the code's own carries what is in a problem document.

## Main definitions

* `LookingGlassException`, `Exn` — how a call may fail
* `gather` — what several calls come to together
* `Problem` — what a refused request is answered with
-/

namespace LookingGlass

open Utf16

/-! ### Failures

The codes are texts that travel between the services, and each exception has its own code, status
and message. -/

namespace ProblemCodes

def validationFailed : Str := "validation_failed"
def destinationBlocked : Str := "destination_blocked"
def rateLimited : Str := "rate_limited"
def busy : Str := "busy"
def timeout : Str := "timeout"
def diagnosticFailed : Str := "diagnostic_failed"
def serviceUnavailable : Str := "service_unavailable"
def bgpUnavailable : Str := "bgp_unavailable"
def payloadTooLarge : Str := "payload_too_large"
def unsupportedMediaType : Str := "unsupported_media_type"
def cancelled : Str := "cancelled"
def internal : Str := "internal_error"

end ProblemCodes

/-- The exception of the code itself, which has all that a problem document needs. -/
structure LookingGlassException where
  code : Str
  status : ℕ
  message : Str
  retryAfterSeconds : Option ℤ
  deriving DecidableEq

/-- What a call may throw, as far as the code tells exceptions apart. A `catch` clause is a test on
these, and what no clause names is `other`. -/
inductive Exn
  | lookingGlass (ex : LookingGlassException)
  | operationCanceled
  | socket
  | win32
  | format
  | httpRequest
  | json
  | keyNotFound
  | invalidOperation
  | other
  deriving DecidableEq

namespace LookingGlassException

def validation (message : Str) : Exn :=
  .lookingGlass ⟨ProblemCodes.validationFailed, 400, message, none⟩

def blocked (message : Str) : Exn :=
  .lookingGlass ⟨ProblemCodes.destinationBlocked, 422, message, none⟩

def busyError : Exn :=
  .lookingGlass ⟨ProblemCodes.busy, 503,
    "The Looking Glass is handling a lot of diagnostics right now. Please try again in a few seconds.",
    some 5⟩

def timeoutError : Exn :=
  .lookingGlass ⟨ProblemCodes.timeout, 504, "The destination did not respond before the timeout.",
    none⟩

def failed (message : Str) : Exn :=
  .lookingGlass ⟨ProblemCodes.diagnosticFailed, 502, message, none⟩

def unavailable (message : Str) : LookingGlassException :=
  ⟨ProblemCodes.serviceUnavailable, 503, message, some 5⟩

end LookingGlassException

/-! ### Several outcomes at once

Several tasks are awaited together, and one exception is thrown for all of them. -/

/-- The outcome of `Task.WhenAll`: a failure wins over a cancellation, and the first one over the
later ones. -/
def gather {α : Type} (outcomes : List (Except Exn α)) : Except Exn (List α) :=
  match outcomes.find? fun x => match x with
      | .error .operationCanceled => false
      | .error _ => true
      | .ok _ => false with
  | some (.error e) => .error e
  | _ => outcomes.mapM id

/-- A traversal succeeds element by element. -/
theorem forall₂_of_mapM_eq_ok {α β : Type} {f : α → Except Exn β} {xs : List α} {ys : List β}
    (h : xs.mapM f = .ok ys) : List.Forall₂ (fun x y => f x = .ok y) xs ys := by
  induction xs generalizing ys with
  | nil =>
    obtain rfl := Except.ok.inj h
    exact .nil
  | cons x xs ih =>
    rw [List.mapM_cons] at h
    cases hx : f x with
    | error e => exact absurd h (by simp [bind, Except.bind, hx])
    | ok y =>
      cases hrest : xs.mapM f with
      | error e => exact absurd h (by simp [bind, Except.bind, hx, hrest])
      | ok rest =>
        have hys : y :: rest = ys := by
          simpa [bind, Except.bind, hx, hrest, pure, Except.pure] using h
        exact hys ▸ .cons hx (ih hrest)

/-- Every result of a traversal comes from an element, and every element has one. -/
theorem mem_iff_of_mapM_eq_ok {α β : Type} {f : α → Except Exn β} {xs : List α} {ys : List β}
    (h : xs.mapM f = .ok ys) {y : β} : y ∈ ys ↔ ∃ x ∈ xs, f x = .ok y := by
  have hall := forall₂_of_mapM_eq_ok h
  clear h
  induction hall with
  | nil => simp
  | cons hx _ ih => simp [ih, hx, eq_comm]

theorem gather_eq_ok {α : Type} {outcomes : List (Except Exn α)} {results : List α}
    (h : gather outcomes = .ok results) : outcomes = results.map .ok := by
  have hmap : outcomes.mapM id = .ok results := by
    simp only [gather] at h
    split at h
    · exact absurd h (by simp)
    · exact h
  have hall := forall₂_of_mapM_eq_ok hmap
  clear h hmap
  induction hall with
  | nil => rfl
  | cons hx _ ih => rw [List.map_cons, ← ih, ← hx, id]

/-! ### Refusals

A problem has a title that is decided by its code. -/

/-- What is written for a request that is refused: the members of a problem document, and the time
after which the request may be tried again. -/
structure Problem where
  status : ℕ
  code : Str
  title : Str
  detail : Str
  retryAfterSeconds : Option ℤ

def ProblemExceptionHandler.title (code : Str) : Str :=
  if code = ProblemCodes.validationFailed then "Invalid request"
  else if code = ProblemCodes.destinationBlocked then "Destination not allowed"
  else if code = ProblemCodes.rateLimited then "Too many requests"
  else if code = ProblemCodes.busy then "Service busy"
  else if code = ProblemCodes.timeout then "Diagnostic timed out"
  else if code = ProblemCodes.diagnosticFailed then "Diagnostic failed"
  else if code = ProblemCodes.serviceUnavailable then "Service unavailable"
  else if code = ProblemCodes.bgpUnavailable then "BGP unavailable"
  else if code = ProblemCodes.payloadTooLarge then "Request too large"
  else if code = ProblemCodes.unsupportedMediaType then "Unsupported media type"
  else "Unexpected error"

/-! ### Configuration

Lists are given as one text in an environment variable. -/

namespace LookingGlassConfiguration

/-- `','`, `';'` or `' '`. -/
def isListSeparator (c : Char16) : Bool := c == ofChar ',' || c == ofChar ';' || c == ofChar ' '

/-- The entries of a list, trimmed; those that are empty then are left out. -/
def splitList (csv : Option Str) : List Str :=
  if Runtime.isNullOrWhiteSpace csv then []
  else (((csv.getD []).splitOnP isListSeparator).map (trim Runtime.isWhiteSpace)).filter (· ≠ [])

end LookingGlassConfiguration

/-! ### Families and record types

What a visitor may choose. Names of record types are compared in upper case. -/

/-- The deserialiser also lets integers through that name no member. -/
inductive IpFamily
  | auto
  | ipv4
  | ipv6
  | undefined (value : ℤ)
  deriving DecidableEq

/-- `ToString().ToUpperInvariant()`. -/
def IpFamily.upperName : IpFamily → Str
  | auto => "AUTO"
  | ipv4 => "IPV4"
  | ipv6 => "IPV6"
  | undefined value => Double.decimalInt value

inductive IpVersion
  | ipv4
  | ipv6
  deriving DecidableEq

/-- `ToString().ToUpperInvariant()`. -/
def IpVersion.upperName : IpVersion → Str
  | ipv4 => "IPV4"
  | ipv6 => "IPV6"

namespace DiagnosticTypes

def ping : Str := "ping"
def traceroute : Str := "traceroute"
def mtr : Str := "mtr"
def dns : Str := "dns"

end DiagnosticTypes

namespace DnsRecordTypes

def supported : List Str := ["A", "AAAA", "CNAME", "MX", "NS", "TXT", "SOA", "PTR"]

def tryNormalize (rt : Runtime) (value : Option Str) : Option Str :=
  if Runtime.isNullOrWhiteSpace value then none
  else
    let candidate := rt.toUpperInvariant (trim Runtime.isWhiteSpace (value.getD []))
    if candidate ∈ supported then some candidate else none

theorem mem_supported_of_tryNormalize {rt : Runtime} {value : Option Str} {recordType : Str}
    (h : tryNormalize rt value = some recordType) : recordType ∈ supported := by
  simp only [tryNormalize] at h
  split at h
  · exact absurd h (by simp)
  split at h
  · next hmem => exact Option.some.inj h ▸ hmem
  · exact absurd h (by simp)

end DnsRecordTypes

/-! ### Requests and responses

The records of the public interface and of the one between the two services, which are the same. -/

/-- Ticks of 100 ns. -/
abbrev DateTimeOffset := ℤ

structure DestinationRequest where
  destination : Option Str
  family : IpFamily

structure DnsLookupRequest where
  name : Option Str
  recordType : Option Str

structure PingReply where
  seq : ℤ
  ttl : Option ℤ
  timeMs : Double
  deriving DecidableEq

structure PingResponse where
  requestId : Str
  destination : Str
  resolvedAddress : Str
  family : IpVersion
  startedAt : DateTimeOffset
  durationMs : ℤ
  transmitted : ℤ
  received : ℤ
  lossPercent : Double
  minMs : Option Double
  avgMs : Option Double
  maxMs : Option Double
  stdDevMs : Option Double
  replies : List PingReply
  technicalOutput : Str
  simulated : Bool
  deriving DecidableEq

structure TracerouteHop where
  hop : ℤ
  responded : Bool
  redacted : Bool
  address : Option Str
  hostname : Option Str
  rttMs : List (Option Double)
  avgMs : Option Double
  deriving DecidableEq

structure TracerouteResponse where
  requestId : Str
  destination : Str
  resolvedAddress : Str
  family : IpVersion
  startedAt : DateTimeOffset
  durationMs : ℤ
  reachedDestination : Bool
  hops : List TracerouteHop
  technicalOutput : Str
  simulated : Bool
  deriving DecidableEq

structure MtrHop where
  hop : ℤ
  responded : Bool
  redacted : Bool
  address : Option Str
  hostname : Option Str
  lossPercent : Double
  sent : ℤ
  lastMs : Option Double
  avgMs : Option Double
  bestMs : Option Double
  worstMs : Option Double
  stdDevMs : Option Double
  deriving DecidableEq

structure MtrResponse where
  requestId : Str
  destination : Str
  resolvedAddress : Str
  family : IpVersion
  startedAt : DateTimeOffset
  durationMs : ℤ
  cycles : ℤ
  hops : List MtrHop
  technicalOutput : Str
  simulated : Bool
  deriving DecidableEq

structure DnsRecord where
  name : Str
  type : Str
  ttl : ℤ
  value : Str
  deriving DecidableEq

structure DnsResponse where
  requestId : Str
  name : Str
  recordType : Str
  startedAt : DateTimeOffset
  durationMs : ℤ
  status : Str
  records : List DnsRecord
  technicalOutput : Str
  deriving DecidableEq

namespace DnsStatuses

def ok : Str := "ok"
def noData : Str := "nodata"
def nxDomain : Str := "nxdomain"

end DnsStatuses

/-! ### Connectivity

What is reported of the monitor. -/

inductive ServiceStatus
  | operational
  | degraded
  | outage
  | notConfigured
  deriving DecidableEq

structure LatencySample where
  sampledAt : DateTimeOffset
  latencyMs : Option Double
  deriving DecidableEq

structure FamilyPerformance where
  status : ServiceStatus
  avgLatencyMs : Option Double := none
  uptimePercent : Option Double := none
  samples : List LatencySample := []

structure PerformanceResponse where
  generatedAt : DateTimeOffset
  windowSeconds : ℤ
  intervalSeconds : ℤ
  avgLatencyMs : Option Double
  uptimePercent : Option Double
  ipv4 : FamilyPerformance
  ipv6 : FamilyPerformance

/-! ### Traffic

What is reported of the nodes, the cluster, the internet link and the web. -/

structure TrafficPoint where
  time : DateTimeOffset
  bitsPerSecond : Option Double
  deriving DecidableEq

structure DirectionalTraffic where
  rx : List TrafficPoint
  tx : List TrafficPoint
  deriving DecidableEq

structure NodeTraffic where
  label : Str
  capacityBitsPerSecond : Option Double
  rx : List TrafficPoint
  tx : List TrafficPoint
  deriving DecidableEq

structure InternetTraffic where
  available : Bool
  rx : List TrafficPoint
  tx : List TrafficPoint
  deriving DecidableEq

structure WebTraffic where
  available : Bool
  inbound : List TrafficPoint
  outbound : List TrafficPoint
  deriving DecidableEq

structure TrafficCurrent where
  clusterRxBps : Option Double
  clusterTxBps : Option Double
  internetRxBps : Option Double
  internetTxBps : Option Double
  webInBps : Option Double
  webOutBps : Option Double
  deriving DecidableEq

structure TrafficResponse where
  generatedAt : DateTimeOffset
  range : Str
  stepSeconds : ℤ
  current : TrafficCurrent
  cluster : DirectionalTraffic
  nodes : List NodeTraffic
  internet : InternetTraffic
  web : WebTraffic
  deriving DecidableEq

end LookingGlass
