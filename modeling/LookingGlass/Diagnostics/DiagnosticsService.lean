import LookingGlass.Diagnostics.DiagnosticsExecutor
import LookingGlass.Diagnostics.TextRenderer

/-!
# The diagnostics service

A diagnostic resolves its target, runs one probe and builds the response. Traceroute and mtr also
look up the names of the hops they are going to show; hops with blocked addresses are neither
looked up nor, if they are redacted, shown.

Each request runs its work through the executor. The work is a definition of its own: `ping`,
`traceroute` and `mtr` are what is passed to `executeAsync`.

## What the parts are given

The host resolver and the probes are parameters, as they are interfaces in the code. With arbitrary
ones the definitions say in which order things happen; the results about what is sent are for the
resolver and the runner of the repository.

Whether a hop is redacted is decided by `present`, for all tools that show hops. A redacted hop
keeps its number and its times and loses its address and its name. The addresses that are looked up
are those that are not blocked, whether redaction is on or off.
-/

namespace LookingGlass

open Utf16 Interaction

namespace DiagnosticsService

variable (rt : Runtime) (policy : DestinationPolicy) (settings : DiagnosticsOptions)
  (resolver : IHostResolver) (probes : IProbeRunner)

/-- The milliseconds since `started`. -/
def elapsedMs (started : DateTimeOffset) : Task Work Exn ℤ := do
  let now ← Work.getUtcNow
  pure ((now - started).tdiv 10000)

/-- What is shown of a hop address: whether it is redacted, its text and its name. -/
def present (address : Option IPAddress) (names : List (IPAddress × Str)) :
    Bool × Option Str × Option Str :=
  match address with
  | none => (false, none, none)
  | some address =>
    if settings.redactPrivateHops && policy.blocklist.isBlocked address then (true, none, none)
    else (false, some (rt.addressToString address), names.lookup address)

/-- The hop addresses to look up: each address once, in the order of its first hop, and none that is
blocked. -/
def publicAddresses (addresses : List (Option IPAddress)) : List IPAddress :=
  (distinct (addresses.filterMap id)).filter fun a => !policy.blocklist.isBlocked a

/-- One reverse lookup, without a name if the time for lookups runs out. -/
def lookup (address : IPAddress) : Task Work Exn (IPAddress × Option Str) := do
  try
    let name ← resolver.reverseAsync address
    pure (address, name)
  catch ex =>
    match ex with
    | .operationCanceled => do
      let requested ← Work.isCancellationRequested
      if !requested then pure (address, none) else throw Exn.operationCanceled
    | ex => throw ex

/-- The lookups that found a name. -/
def named (lookups : List (IPAddress × Option Str)) : List (IPAddress × Str) :=
  (lookups.filter fun l => !Runtime.isNullOrWhiteSpace l.2).map fun l => (l.1, l.2.getD [])

def reverseLookupAsync (addresses : List (Option IPAddress)) :
    Task Work Exn (List (IPAddress × Str)) :=
  if !settings.reverseDns then pure []
  else do
    let lookups ← whenAll ((publicAddresses policy addresses).map (lookup resolver))
    pure (named lookups)

/-- The target of a request. -/
def target (request : Option DestinationRequest) : Task Work Exn ResolvedTarget :=
  TargetResolver.resolveAsync rt policy resolver (request.bind DestinationRequest.destination)
    (request.elim .auto DestinationRequest.family)

def ping (request : Option DestinationRequest) (requestId : Str) : Task Work Exn PingResponse := do
  let started ← Work.getUtcNow
  let target ← target rt policy resolver request
  let raw ← probes.pingAsync target.address
  let durationMs ← elapsedMs started
  pure {
    requestId
    destination := target.destination
    resolvedAddress := rt.addressToString target.address
    family := target.family
    startedAt := started
    durationMs
    transmitted := raw.transmitted
    received := raw.received
    lossPercent := raw.lossPercent
    minMs := raw.minMs
    avgMs := raw.avgMs
    maxMs := raw.maxMs
    stdDevMs := raw.stdDevMs
    replies := raw.replies
    technicalOutput := TextRenderer.ping rt target raw
    simulated := settings.simulated }

def tracerouteHop (names : List (IPAddress × Str)) (h : TraceHopRaw) : TracerouteHop :=
  let (redacted, address, hostname) := present rt policy settings h.address names
  let values := h.rttMs.filterMap id
  { hop := h.hop
    responded := h.address.isSome || h.rttMs.any Option.isSome
    redacted, address, hostname
    rttMs := h.rttMs
    avgMs := if values.length > 0 then some ((Double.average values).round 3) else none }

/-- Whether the last hop is the target. Nothing is reached by a trace without hops. -/
def reached (target : ResolvedTarget) (raw : List TraceHopRaw) : Bool :=
  raw.getLast?.any fun h => h.address == some target.address

def traceroute (request : Option DestinationRequest) (requestId : Str) :
    Task Work Exn TracerouteResponse := do
  let started ← Work.getUtcNow
  let target ← target rt policy resolver request
  let raw ← probes.tracerouteAsync target.address
  let names ← reverseLookupAsync policy settings resolver (raw.map TraceHopRaw.address)
  let hops := raw.map (tracerouteHop rt policy settings names)
  let durationMs ← elapsedMs started
  pure {
    requestId
    destination := target.destination
    resolvedAddress := rt.addressToString target.address
    family := target.family
    startedAt := started
    durationMs
    reachedDestination := reached target raw
    hops
    technicalOutput := TextRenderer.traceroute rt target hops settings.traceroute.maxHops
    simulated := settings.simulated }

def mtrHop (names : List (IPAddress × Str)) (h : MtrHopRaw) : MtrHop :=
  let (redacted, address, hostname) := present rt policy settings h.address names
  { hop := h.hop
    responded := h.address.isSome
    redacted, address, hostname
    lossPercent := h.lossPercent
    sent := h.sent
    lastMs := h.lastMs
    avgMs := h.avgMs
    bestMs := h.bestMs
    worstMs := h.worstMs
    stdDevMs := h.stdDevMs }

def mtr (request : Option DestinationRequest) (requestId : Str) : Task Work Exn MtrResponse := do
  let started ← Work.getUtcNow
  let target ← target rt policy resolver request
  let raw ← probes.mtrAsync target.address
  let names ← reverseLookupAsync policy settings resolver (raw.hops.map MtrHopRaw.address)
  let hops := raw.hops.map (mtrHop rt policy settings names)
  let durationMs ← elapsedMs started
  pure {
    requestId
    destination := target.destination
    resolvedAddress := rt.addressToString target.address
    family := target.family
    startedAt := started
    durationMs
    cycles := raw.cycles
    hops
    technicalOutput := TextRenderer.mtr rt target hops
    simulated := settings.simulated }

def pingAsync (request : Option DestinationRequest) (requestId : Str) :
    Task (Exec.sum Work) Exn PingResponse :=
  DiagnosticsExecutor.executeAsync settings DiagnosticTypes.ping
    (ping rt policy settings resolver probes request requestId)

def tracerouteAsync (request : Option DestinationRequest) (requestId : Str) :
    Task (Exec.sum Work) Exn TracerouteResponse :=
  DiagnosticsExecutor.executeAsync settings DiagnosticTypes.traceroute
    (traceroute rt policy settings resolver probes request requestId)

def mtrAsync (request : Option DestinationRequest) (requestId : Str) :
    Task (Exec.sum Work) Exn MtrResponse :=
  DiagnosticsExecutor.executeAsync settings DiagnosticTypes.mtr
    (mtr rt policy settings resolver probes request requestId)

end DiagnosticsService

end LookingGlass
