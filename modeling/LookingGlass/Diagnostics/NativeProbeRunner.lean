import LookingGlass.Contracts.DestinationPolicy
import LookingGlass.Diagnostics.Environment

/-!
# The native probe runner

Each of the three probes builds an argument list, runs its tool and parses what the tool prints. A
list is made of the settings and the address family, with the text of the address at its end; the
address is checked against the blocklist once more right before the tool starts.

The parsers are parameters: what is proved here holds whatever they make of the output.

## The second check

The address has been checked when the target was resolved. It is checked again in `runAsync`, which
is the only place where a tool is started, so that no caller can come by it with another address.
For the calls of the repository the second check never refuses anything, and what it answers if it
does is the same as the first one would.

## Arguments

Processes are started without a shell, with a list of arguments. All but the last are numbers and
switches that come from the settings and from the family of the address. The last is the text of an
address, so it does not begin with a hyphen, and nothing that a visitor has typed is ever an
argument.

## Main results

* `NativeProbeRunner.pingAsync_spec`, `tracerouteAsync_spec`, `mtrAsync_spec` — what a probe calls
-/

namespace LookingGlass

open Utf16 Interaction

structure PingRaw where
  transmitted : ℤ
  received : ℤ
  lossPercent : Double
  minMs : Option Double
  avgMs : Option Double
  maxMs : Option Double
  stdDevMs : Option Double
  replies : List PingReply

structure TraceHopRaw where
  hop : ℤ
  address : Option IPAddress
  rttMs : List (Option Double)
  deriving DecidableEq

structure MtrHopRaw where
  hop : ℤ
  address : Option IPAddress
  lossPercent : Double
  sent : ℤ
  lastMs : Option Double
  avgMs : Option Double
  bestMs : Option Double
  worstMs : Option Double
  stdDevMs : Option Double
  deriving DecidableEq

structure MtrRaw where
  cycles : ℤ
  hops : List MtrHopRaw

structure IProbeRunner where
  pingAsync : IPAddress → Task Work Exn PingRaw
  tracerouteAsync : IPAddress → Task Work Exn (List TraceHopRaw)
  mtrAsync : IPAddress → Task Work Exn MtrRaw

/-- `PingParser.Parse`, `TracerouteParser.Parse` and `MtrParser.Parse`, with what they throw. -/
structure Parsers where
  ping : Str → Except Exn (Option PingRaw)
  traceroute : Str → Except Exn (List TraceHopRaw)
  mtr : Str → Except Exn MtrRaw

namespace NativeProbeRunner

variable (rt : Runtime) (policy : DestinationPolicy) (settings : DiagnosticsOptions)
  (parsers : Parsers)

def familyFlag : AddressFamily → Str
  | .interNetworkV6 => "-6"
  | .interNetwork => "-4"

/-- Every argument of `ping` but the last. -/
def pingArguments (family : AddressFamily) : List Str :=
  let ping := settings.ping
  let deadline := (ping.count * (ping.intervalSeconds + ping.packetTimeoutSeconds)).ceil + 1
  ["-n", familyFlag family,
    "-c", Double.decimalInt ping.count,
    "-i", (Double.finite ping.intervalSeconds).format 1 2,
    "-W", Double.decimalInt ping.packetTimeoutSeconds,
    "-w", Double.decimalInt deadline]

/-- Every argument of `traceroute` but the last. -/
def tracerouteArguments (family : AddressFamily) : List Str :=
  let trace := settings.traceroute
  ["-n", familyFlag family,
    "-q", Double.decimalInt trace.queries,
    "-w", Double.decimalInt trace.waitSeconds,
    "-m", Double.decimalInt trace.maxHops]

/-- Every argument of `mtr` but the last. -/
def mtrArguments (family : AddressFamily) : List Str :=
  let mtr := settings.mtr
  ["--json", "--no-dns", familyFlag family,
    "-c", Double.decimalInt mtr.cycles,
    "-i", Double.decimalInt mtr.intervalSeconds,
    "-G", Double.decimalInt mtr.graceSeconds,
    "-m", Double.decimalInt mtr.maxHops]

def runAsync (tool : Str) (arguments : List Str) (target : IPAddress) :
    Task Work Exn ProcessResult :=
  if policy.blocklist.isBlocked target then
    throw (LookingGlassException.blocked
      "That address is in a private, reserved or otherwise restricted range and cannot be tested.")
  else do
    try
      Work.runAsync tool arguments settings.maxOutputBytes
    catch ex =>
      match ex with
      | .win32 =>
        throw (LookingGlassException.failed "The Looking Glass could not run this diagnostic.")
      | ex => throw ex

/-- The exception for a tool that failed. -/
def fail (result : ProcessResult) : Exn :=
  if containsText (rt.toUpperInvariant "unreachable") (rt.toUpperInvariant result.stdErr) then
    LookingGlassException.failed "The Looking Glass has no route to that destination."
  else LookingGlassException.failed "The diagnostic could not be completed."

def pingAsync (target : IPAddress) : Task Work Exn PingRaw := do
  let result ← runAsync policy settings settings.tools.ping
    (pingArguments settings target.addressFamily ++ [rt.addressToString target]) target
  let parsed ← Task.ofExcept (parsers.ping result.stdOut)
  match parsed with
  | none => throw (fail rt result)
  | some parsed => if result.exitCode > 1 then throw (fail rt result) else pure parsed

def tracerouteAsync (target : IPAddress) : Task Work Exn (List TraceHopRaw) := do
  let result ← runAsync policy settings settings.tools.traceroute
    (tracerouteArguments settings target.addressFamily ++ [rt.addressToString target]) target
  let hops ← Task.ofExcept (parsers.traceroute result.stdOut)
  if result.exitCode ≠ 0 ∨ hops.length = 0 then throw (fail rt result) else pure hops

def mtrAsync (target : IPAddress) : Task Work Exn MtrRaw := do
  let result ← runAsync policy settings settings.tools.mtr
    (mtrArguments settings target.addressFamily ++ [rt.addressToString target]) target
  if result.exitCode ≠ 0 then throw (fail rt result)
  else Task.ofExcept (parsers.mtr result.stdOut)

/-! ### What a probe calls

At most one process, and nothing at all if the address is blocked. -/

/-- A run that sends no DNS query and starts at most one process: the tool with these arguments,
for a target that is not blocked. -/
def RunsTool (tool : Str) (arguments : List Str) (target : IPAddress) (es : List (Event Work)) :
    Prop :=
  dnsCalls es = [] ∧ (processCalls es = [] ∨
    processCalls es = [⟨tool, arguments, settings.maxOutputBytes⟩] ∧
      policy.blocklist.isBlocked target = false)

variable {rt policy settings parsers}

theorem runAsync_spec {tool : Str} {arguments : List Str} {target : IPAddress}
    {es : List (Event Work)} {r : Except Exn ProcessResult}
    (h : Task.Runs (runAsync policy settings tool arguments target) es r) :
    RunsTool policy settings tool arguments target es := by
  unfold runAsync at h
  split at h
  · obtain ⟨rfl, -⟩ := Task.runs_throw.mp h
    exact ⟨rfl, .inl rfl⟩
  · next hfree =>
    obtain ⟨_, hrun⟩ := Task.exists_runs_of_tryCatch (fun ex snd r hcatch => by
      cases ex <;> exact (Task.runs_throw.mp hcatch).1) h
    rw [Work.runs_runAsync hrun]
    exact ⟨rfl, .inr ⟨rfl, Bool.eq_false_iff.mpr hfree⟩⟩

/-- A tool that has returned something was started. -/
theorem runProcess_mem_of_runs {tool : Str} {arguments : List Str} {address : IPAddress}
    {es : List (Event Work)} {result : ProcessResult}
    (h : Task.Runs (runAsync policy settings tool arguments address) es
      (.ok result)) :
    ⟨.runProcess tool arguments settings.maxOutputBytes, .ok result⟩ ∈ es := by
  unfold runAsync at h
  split at h
  · exact absurd (Task.runs_throw.mp h).2 (by simp)
  · rcases Task.runs_tryCatch.mp h with ⟨a, hrun, heq⟩ | ⟨_, ex, _, -, -, hcatch⟩
    · obtain rfl := Except.ok.inj heq
      rw [Work.runs_runAsync hrun]
      exact List.mem_singleton_self _
    · cases ex <;> exact absurd (Task.runs_throw.mp hcatch).2 (by simp)

/-- A tool run followed by a part without calls is still that tool run. -/
theorem runsTool_of_bind {α : Type} {tool : Str} {arguments : List Str} {target : IPAddress}
    {f : ProcessResult → Task Work Exn α} {es : List (Event Work)} {r : Except Exn α}
    (hf : ∀ result snd, Task.Runs (f result) snd r → snd = [])
    (h : Task.Runs (runAsync policy settings tool arguments target >>= f) es r) :
    RunsTool policy settings tool arguments target es := by
  rcases Task.runs_bind.mp h with ⟨e, he, -⟩ | ⟨fst, result, snd, rfl, hrun, hrest⟩
  · exact runAsync_spec he
  · rw [hf result snd hrest, List.append_nil]
    exact runAsync_spec hrun

theorem pingAsync_spec {target : IPAddress} {es : List (Event Work)} {r : Except Exn PingRaw}
    (h : Task.Runs (pingAsync rt policy settings parsers target) es r) :
    RunsTool policy settings settings.tools.ping
      (pingArguments settings target.addressFamily ++ [rt.addressToString target]) target es := by
  refine runsTool_of_bind (fun result snd hsnd => ?_) h
  rcases Task.runs_ofExcept_bind.mp hsnd with ⟨_, -, hnil, -⟩ | ⟨parsed, -, hrest⟩
  · exact hnil
  cases parsed with
  | none => exact (Task.runs_throw.mp hrest).1
  | some parsed =>
    dsimp only at hrest
    split at hrest
    · exact (Task.runs_throw.mp hrest).1
    · exact (Task.runs_pure.mp hrest).1

theorem tracerouteAsync_spec {target : IPAddress} {es : List (Event Work)}
    {r : Except Exn (List TraceHopRaw)}
    (h : Task.Runs (tracerouteAsync rt policy settings parsers target) es r) :
    RunsTool policy settings settings.tools.traceroute
      (tracerouteArguments settings target.addressFamily ++ [rt.addressToString target]) target
      es := by
  refine runsTool_of_bind (fun result snd hsnd => ?_) h
  rcases Task.runs_ofExcept_bind.mp hsnd with ⟨_, -, hnil, -⟩ | ⟨hops, -, hrest⟩
  · exact hnil
  split at hrest
  · exact (Task.runs_throw.mp hrest).1
  · exact (Task.runs_pure.mp hrest).1

theorem mtrAsync_spec {target : IPAddress} {es : List (Event Work)} {r : Except Exn MtrRaw}
    (h : Task.Runs (mtrAsync rt policy settings parsers target) es r) :
    RunsTool policy settings settings.tools.mtr
      (mtrArguments settings target.addressFamily ++ [rt.addressToString target]) target es := by
  refine runsTool_of_bind (fun result snd hsnd => ?_) h
  split at hsnd
  · exact (Task.runs_throw.mp hsnd).1
  · exact (Task.runs_ofExcept.mp hsnd).1

end NativeProbeRunner

def nativeProbeRunner (rt : Runtime) (policy : DestinationPolicy) (settings : DiagnosticsOptions)
    (parsers : Parsers) : IProbeRunner where
  pingAsync := NativeProbeRunner.pingAsync rt policy settings parsers
  tracerouteAsync := NativeProbeRunner.tracerouteAsync rt policy settings parsers
  mtrAsync := NativeProbeRunner.mtrAsync rt policy settings parsers

end LookingGlass
