import LookingGlass.Contracts.Models
import LookingGlass.Foundations.Chunks
import LookingGlass.Foundations.Interaction
import Mathlib.Logic.Relation

/-!
# The connectivity monitor

Once per interval the monitor probes both address families, records a sample for each and publishes
three gauges. The probes are a parameter; the recorded samples and the gauges are the state that
`sampleOnceAsync` is given and returns.

A summary shows at most `maxPoints` points, each for a block of samples, and a point has a latency
if any sample of its block has one. The gauge of the most recent probe is taken from the last of
these points. It is therefore right as long as there is a point for every sample, and after that
exactly when the newest sample succeeded or shares its block with no success.

## Runs

A round is one step. It reads the clock when both families have been probed to their ends, and if
either probe throws, it changes nothing. Nothing else changes the state, and a snapshot only reads
it. So a history of the monitor is a sequence of rounds, and what holds after every round from any
state holds after every history.

## Blocks

The samples of a family are cut into blocks of one size from the oldest on, and the newest sample is
in the last block. How many others are in there depends on how many samples there are, and changes
with every round: it may be none. A failure is hidden by a success in its block, and a success is
never hidden.

## Main results

* `ConnectivityMonitor.getLast?_downsample` — when the last point has a latency
* `ConnectivityMonitor.connectivityUp_iff` — when the gauge tells how the most recent probe ended
-/

namespace LookingGlass

open Utf16 Interaction

structure ConnectivityOptions where
  intervalSeconds : ℕ := 60
  windowSeconds : ℕ := 86400
  probeTimeoutSeconds : ℕ := 3
  ipv4Targets : Str := "1.1.1.1:443,8.8.8.8:443"
  ipv6Targets : Str := "[2606:4700:4700::1111]:443,[2001:4860:4860::8888]:443"

structure IPEndPoint where
  address : IPAddress
  port : ℕ
  deriving DecidableEq

namespace IPEndPoint

def addressFamily (endpoint : IPEndPoint) : AddressFamily := endpoint.address.addressFamily

end IPEndPoint

structure IConnectivityProbe (N : Interface) where
  probeAsync : IPEndPoint → ℕ → Task N Exn (Option Double)

inductive ClockOp
  | getUtcNow

abbrev Clock : Interface := ⟨ClockOp, fun _ => DateTimeOffset⟩

/-- What awaiting `Task.WhenAll` of two tasks returns or throws: a failure wins over a cancellation,
and the first one over the second. -/
def both {α : Type} : Except Exn α → Except Exn α → Except Exn (α × α)
  | .ok a, .ok b => .ok (a, b)
  | .ok _, .error e => .error e
  | .error .operationCanceled, .error e => .error e
  | .error e, _ => .error e

theorem both_eq_ok {α : Type} {x y : Except Exn α} {results : α × α}
    (h : both x y = .ok results) : x = .ok results.1 ∧ y = .ok results.2 := by
  match x, y, h with
  | .ok _, .ok _, h => exact Except.ok.inj h ▸ ⟨rfl, rfl⟩
  | .error .operationCanceled, .ok _, h => exact absurd h (by simp [both])

structure ConnectivityMonitor (N : Interface) where
  options : ConnectivityOptions
  probe : IConnectivityProbe N
  ipv4Targets : List IPEndPoint
  ipv6Targets : List IPEndPoint

namespace ConnectivityMonitor

variable {N : Interface}

/-- The values of the gauges, by label. -/
structure Gauges where
  connectivityUp : Str → Option Double
  packetLoss : Str → Option Double
  latency : Str → Option Double

/-- `_samples` and the gauges. The samples of a family are in the order in which they were recorded,
and those that are too old are removed when one is recorded. -/
structure State where
  samples : IpVersion → List LatencySample
  gauges : Gauges

/-- As constructed: no samples, and no gauge set. -/
def State.new : State := ⟨fun _ => [], ⟨fun _ => none, fun _ => none, fun _ => none⟩⟩

def targets (monitor : ConnectivityMonitor N) : IpVersion → List IPEndPoint
  | .ipv4 => monitor.ipv4Targets
  | .ipv6 => monitor.ipv6Targets

/-- The entries that are end points of the family; `tryParse` is `IPEndPoint.TryParse`. -/
def parseTargets (tryParse : Str → Option IPEndPoint) (csv : Str) (family : AddressFamily) :
    List IPEndPoint :=
  (LookingGlassConfiguration.splitList csv).filterMap fun entry =>
    (tryParse entry).filter fun endpoint =>
      endpoint.addressFamily == family && decide (endpoint.port > 0)

def new (tryParse : Str → Option IPEndPoint) (options : ConnectivityOptions)
    (probe : IConnectivityProbe N) : ConnectivityMonitor N where
  options := options
  probe := probe
  ipv4Targets := parseTargets tryParse options.ipv4Targets .interNetwork
  ipv6Targets := parseTargets tryParse options.ipv6Targets .interNetworkV6

/-! ### Summaries

What is shown of a history, and the status that is made of its last samples. -/

def maxPoints : ℕ := 288

/-- The size of a block, for so many samples. -/
def blockSize (count : ℕ) : ℕ := (count + (maxPoints - 1)) / maxPoints

/-- The point shown for a block of samples. No block is empty. -/
def point (block : List LatencySample) : LatencySample :=
  let ok := block.filterMap LatencySample.latencyMs
  { sampledAt := (block.head?.map LatencySample.sampledAt).getD 0
    latencyMs := if ok.length > 0 then some ((Double.average ok).round 2) else none }

def downsample (samples : List LatencySample) : List LatencySample :=
  if samples.length ≤ maxPoints then samples
  else (samples.chunk (blockSize samples.length)).map point

def summarise (state : State) (family : IpVersion) (configured : Bool) : FamilyPerformance :=
  if !configured then { status := .notConfigured }
  else
    let samples := state.samples family
    match samples.getLast? with
    | none => { status := .degraded }
    | some last =>
      let successes := samples.filterMap LatencySample.latencyMs
      let recent := samples.drop (samples.length - 5)
      { status :=
          if last.latencyMs.isSome then .operational
          else if recent.countP (fun s => s.latencyMs.isSome) * 2 ≥ recent.length then .degraded
          else .outage
        avgLatencyMs :=
          if successes.length > 0 then some ((Double.average successes).round 2) else none
        uptimePercent :=
          some ((Double.finite (100 * successes.length / samples.length)).round 2)
        samples := downsample samples }

/-- `(int)Math.Min((now - oldest).TotalSeconds, _options.WindowSeconds)` -/
def coveredSeconds (monitor : ConnectivityMonitor N) (now oldest : DateTimeOffset) : ℤ :=
  (min (now - oldest) (monitor.options.windowSeconds * 10000000)).tdiv 10000000

def performance (monitor : ConnectivityMonitor N) (now : DateTimeOffset) (state : State) :
    PerformanceResponse :=
  let ipv4 := summarise state .ipv4 (decide ((monitor.targets .ipv4).length > 0))
  let ipv6 := summarise state .ipv6 (decide ((monitor.targets .ipv6).length > 0))
  let latencies := [ipv4.avgLatencyMs, ipv6.avgLatencyMs].filterMap id
  let uptimes := [ipv4.uptimePercent, ipv6.uptimePercent].filterMap id
  let firsts := [ipv4.samples.head?, ipv6.samples.head?].filterMap id
  let oldest := (firsts.map LatencySample.sampledAt).min?.getD now
  { generatedAt := now
    windowSeconds := monitor.coveredSeconds now oldest
    intervalSeconds := monitor.options.intervalSeconds
    avgLatencyMs :=
      if latencies.length > 0 then some ((Double.average latencies).round 2) else none
    uptimePercent := if uptimes.length > 0 then some ((Double.maximum uptimes).round 2) else none
    ipv4 := ipv4
    ipv6 := ipv6 }

def snapshot (monitor : ConnectivityMonitor N) (state : State) :
    Task Clock Exn PerformanceResponse := do
  let now ← Task.perform (I := Clock) .getUtcNow
  pure (monitor.performance now state)

/-! ### Sampling

A round as the code has it: probe, record, publish. -/

/-- The first latency of the targets, tried in order. -/
def probeFamilyAsync (monitor : ConnectivityMonitor N) :
    List IPEndPoint → Task (Clock.sum N) Exn (Option Double)
  | [] => pure none
  | target :: targets => do
    let latency ← (monitor.probe.probeAsync target monitor.options.probeTimeoutSeconds).right
    match latency with
    | some latency => pure (some latency)
    | none => probeFamilyAsync monitor targets

/-- The time before which samples are dropped. -/
def cutoff (monitor : ConnectivityMonitor N) (now : DateTimeOffset) : DateTimeOffset :=
  now - monitor.options.windowSeconds * 10000000

def record (monitor : ConnectivityMonitor N) (family : IpVersion) (sample : Option LatencySample)
    (now : DateTimeOffset) (state : State) : State :=
  match sample with
  | none => state
  | some sample =>
    let list := (state.samples family ++ [sample]).filter fun s =>
      !decide (s.sampledAt < monitor.cutoff now)
    { state with samples := Function.update state.samples family list }

def publishMetrics (monitor : ConnectivityMonitor N) (family : IpVersion) (label : Str)
    (state : State) : State :=
  let summary := summarise state family (decide ((monitor.targets family).length > 0))
  if summary.status = .notConfigured then state
  else match summary.samples.getLast? with
    | none => state
    | some last =>
      let gauges := state.gauges
      let uptime := summary.uptimePercent.getD 0
      { state with gauges := {
          connectivityUp := Function.update gauges.connectivityUp label
            (some (if last.latencyMs.isSome then 1 else 0))
          packetLoss := Function.update gauges.packetLoss label (some (100 - uptime))
          latency := match summary.avgLatencyMs with
            | some avg => Function.update gauges.latency label (some (avg.divNat 1000))
            | none => gauges.latency } }

/-- The sample to record for a family, if it has targets. -/
def sampleFor (monitor : ConnectivityMonitor N) (family : IpVersion) (now : DateTimeOffset)
    (latency : Option Double) : Option LatencySample :=
  if (monitor.targets family).length > 0 then some ⟨now, latency⟩ else none

/-- What a completed round of probes changes. -/
def complete (monitor : ConnectivityMonitor N) (v4 v6 : Option Double) (now : DateTimeOffset)
    (state : State) : State :=
  let state := monitor.record .ipv4 (monitor.sampleFor .ipv4 now v4) now state
  let state := monitor.record .ipv6 (monitor.sampleFor .ipv6 now v6) now state
  monitor.publishMetrics .ipv6 "ipv6" (monitor.publishMetrics .ipv4 "ipv4" state)

def sampleOnceAsync (monitor : ConnectivityMonitor N) (state : State) :
    Task (Clock.sum N) Exn State := do
  let v4 ← Task.attempt (monitor.probeFamilyAsync monitor.ipv4Targets)
  let v6 ← Task.attempt (monitor.probeFamilyAsync monitor.ipv6Targets)
  let (v4, v6) ← Task.ofExcept (both v4 v6)
  let now ← Task.perform (I := Clock.sum N) (.inl .getUtcNow)
  pure (monitor.complete v4 v6 now state)

/-! ### The last point of a summary

The size of the last block, by arithmetic on the number of samples. -/

theorem isSome_point (block : List LatencySample) :
    (point block).latencyMs.isSome = block.any fun s => s.latencyMs.isSome := by
  have hlen : 0 < (block.filterMap LatencySample.latencyMs).length ↔
      block.any (fun s => s.latencyMs.isSome) = true := by
    rw [List.length_pos_iff_exists_mem, List.any_eq_true]
    simp only [List.mem_filterMap, Option.isSome_iff_exists]
    constructor
    · rintro ⟨latency, s, hs, hlatency⟩
      exact ⟨s, hs, latency, hlatency⟩
    · rintro ⟨s, hs, latency, hlatency⟩
      exact ⟨latency, s, hs, hlatency⟩
  rw [point]
  by_cases h : 0 < (block.filterMap LatencySample.latencyMs).length
  · rw [hlen.mp h]
    simp [h]
  · rw [Bool.eq_false_iff.mpr fun hany => h (hlen.mpr hany)]
    simp [h]

/-- Of the samples before the newest one, those that share its block. -/
def earlierInBlock (kept : List LatencySample) : List LatencySample :=
  let size := blockSize (kept.length + 1)
  kept.drop (kept.length / size * size)

/-- The last point has a latency if the newest sample or one that shares its block has one. -/
theorem getLast?_downsample (kept : List LatencySample) (sample : LatencySample) :
    ∃ last, (downsample (kept ++ [sample])).getLast? = some last ∧
      last.latencyMs.isSome =
        (sample.latencyMs.isSome || (earlierInBlock kept).any fun s => s.latencyMs.isSome) := by
  have hlen : (kept ++ [sample]).length = kept.length + 1 := by simp
  rw [downsample, hlen]
  by_cases hfew : kept.length + 1 ≤ maxPoints
  · -- Every sample is a block of its own.
    have hsize : blockSize (kept.length + 1) = 1 := by
      rw [blockSize, maxPoints] at *
      omega
    refine ⟨sample, by rw [if_pos hfew]; simp, ?_⟩
    simp [earlierInBlock, hsize]
  · have hsize : 0 < blockSize (kept.length + 1) := by
      rw [blockSize, maxPoints] at *
      omega
    rw [if_neg hfew, List.getLast?_map, List.getLast?_chunk hsize (by omega), hlen,
      Nat.add_sub_cancel, Option.map_some]
    refine ⟨_, rfl, ?_⟩
    rw [isSome_point, List.drop_append_of_le_length (Nat.div_mul_le_self _ _), List.any_append,
      Bool.or_comm]
    simp [earlierInBlock]

/-! ### The gauge of the most recent probe

What one round does to the samples and to the gauge of a family, and that it leaves the other family
alone. -/

variable {monitor : ConnectivityMonitor N} {state : State} {family : IpVersion} {label : Str}

/-- The samples that are not dropped at a time. -/
def kept (monitor : ConnectivityMonitor N) (now : DateTimeOffset) (samples : List LatencySample) :
    List LatencySample :=
  samples.filter fun s => !decide (s.sampledAt < monitor.cutoff now)

/-- A sample is never dropped when it is recorded. -/
theorem samples_record (hconf : (monitor.targets family).length > 0) (now : DateTimeOffset)
    (latency : Option Double) :
    (monitor.record family (monitor.sampleFor family now latency) now state).samples family =
      monitor.kept now (state.samples family) ++ [⟨now, latency⟩] := by
  have hnow : ¬ now < monitor.cutoff now :=
    not_lt.mpr (sub_le_self now (mul_nonneg (Int.natCast_nonneg _) (by decide)))
  rw [sampleFor, if_pos hconf]
  simp only [record, kept, List.filter_append, Function.update_self]
  simp [hnow]

theorem samples_record_of_ne {other : IpVersion} (hne : other ≠ family)
    {sample : Option LatencySample} {now : DateTimeOffset} :
    (monitor.record family sample now state).samples other = state.samples other := by
  cases sample with
  | none => rfl
  | some sample => exact Function.update_of_ne hne _ _

/-- The summary of a configured family with samples. -/
theorem summarise_of_samples {before : List LatencySample} {sample : LatencySample}
    (h : state.samples family = before ++ [sample]) :
    (summarise state family true).status ≠ .notConfigured ∧
      (summarise state family true).samples = downsample (before ++ [sample]) := by
  have hlast : (state.samples family).getLast? = some sample := by rw [h]; simp
  simp only [summarise, hlast, Bool.not_true, Bool.false_eq_true, if_false]
  refine ⟨?_, by rw [h]⟩
  split
  · simp
  · split <;> simp

theorem publishMetrics_eq (hconf : (monitor.targets family).length > 0)
    {before : List LatencySample} {sample : LatencySample}
    (h : state.samples family = before ++ [sample]) :
    (monitor.publishMetrics family label state).gauges.connectivityUp =
      Function.update state.gauges.connectivityUp label
        (some (if (sample.latencyMs.isSome ||
          (earlierInBlock before).any fun s => s.latencyMs.isSome) then 1 else 0)) := by
  obtain ⟨last, hlast, hsome⟩ := getLast?_downsample before sample
  obtain ⟨hstatus, hsamples⟩ := summarise_of_samples h
  rw [publishMetrics, decide_eq_true hconf]
  simp only [if_neg hstatus, hsamples, hlast, hsome]

theorem samples_publishMetrics :
    (monitor.publishMetrics family label state).samples = state.samples := by
  simp only [publishMetrics]
  split
  · rfl
  · split <;> rfl

/-- A family that is not published keeps its gauges. -/
theorem publishMetrics_of_ne {label' : Str} (hne : label' ≠ label) :
    (monitor.publishMetrics family label state).gauges.connectivityUp label' =
      state.gauges.connectivityUp label' := by
  simp only [publishMetrics]
  split
  · rfl
  · split
    · rfl
    · exact Function.update_of_ne hne _ _

/-- The label of a family. -/
def labelOf : IpVersion → Str
  | .ipv4 => "ipv4"
  | .ipv6 => "ipv6"

/-- The latency of a family in a round of probes. -/
def latencyOf (v4 v6 : Option Double) : IpVersion → Option Double
  | .ipv4 => v4
  | .ipv6 => v6

/-- **A completed round of probes**, for a family with targets: the sample that is recorded, and
what the gauge is set to. -/
theorem complete_spec (hconf : (monitor.targets family).length > 0) (v4 v6 : Option Double)
    (now : DateTimeOffset) (state : State) :
    let before := monitor.kept now (state.samples family)
    let latency := latencyOf v4 v6 family
    (monitor.complete v4 v6 now state).samples family = before ++ [⟨now, latency⟩] ∧
      (monitor.complete v4 v6 now state).gauges.connectivityUp (labelOf family) =
        some (if (latency.isSome ||
          (earlierInBlock before).any fun s => s.latencyMs.isSome) then 1 else 0) := by
  intro before latency
  cases family with
  | ipv4 =>
    have hsamples : (monitor.record .ipv6 (monitor.sampleFor .ipv6 now v6) now
        (monitor.record .ipv4 (monitor.sampleFor .ipv4 now v4) now state)).samples .ipv4 =
          before ++ [⟨now, latency⟩] := by
      rw [samples_record_of_ne (by decide), samples_record hconf]
      rfl
    constructor
    · rw [complete, samples_publishMetrics, samples_publishMetrics, hsamples]
    · rw [complete, publishMetrics_of_ne (by decide), publishMetrics_eq hconf hsamples]
      exact Function.update_self ..
  | ipv6 =>
    have hsamples : (monitor.publishMetrics .ipv4 "ipv4"
        (monitor.record .ipv6 (monitor.sampleFor .ipv6 now v6) now
          (monitor.record .ipv4 (monitor.sampleFor .ipv4 now v4) now state))).samples .ipv6 =
          before ++ [⟨now, latency⟩] := by
      rw [samples_publishMetrics, samples_record hconf, samples_record_of_ne (by decide)]
      rfl
    constructor
    · rw [complete, samples_publishMetrics, hsamples]
    · rw [complete, publishMetrics_eq hconf hsamples]
      exact Function.update_self ..

/-- **A round of probes**: both families are probed to the end, and where neither fails the round is
completed at the time the clock shows then. -/
theorem runs_sampleOnceAsync {es : List (Event (Clock.sum N))} {r : Except Exn State} :
    Task.Runs (monitor.sampleOnceAsync state) es r ↔
      ∃ fst v4 snd v6, Task.Runs (monitor.probeFamilyAsync monitor.ipv4Targets) fst v4 ∧
        Task.Runs (monitor.probeFamilyAsync monitor.ipv6Targets) snd v6 ∧
        ((∃ ex, both v4 v6 = .error ex ∧ es = fst ++ snd ∧ r = .error ex) ∨
          ∃ latency4 latency6 now, v4 = .ok latency4 ∧ v6 = .ok latency6 ∧
            es = fst ++ (snd ++ [⟨.inl .getUtcNow, now⟩]) ∧
            r = .ok (monitor.complete latency4 latency6 now state)) := by
  constructor
  · intro h
    obtain ⟨fst, v4, _, rfl, h₄, hrest⟩ := Task.runs_attempt_bind.mp h
    obtain ⟨snd, v6, _, rfl, h₆, hrest⟩ := Task.runs_attempt_bind.mp hrest
    refine ⟨fst, v4, snd, v6, h₄, h₆, ?_⟩
    rcases Task.runs_ofExcept_bind.mp hrest with ⟨ex, hex, rfl, rfl⟩ | ⟨⟨v4, v6⟩, hok, hrest⟩
    · exact .inl ⟨ex, hex, by rw [List.append_nil], rfl⟩
    · obtain ⟨now, _, rfl, hcomplete⟩ := Task.runs_perform_bind.mp hrest
      obtain ⟨rfl, rfl⟩ := Task.runs_pure.mp hcomplete
      obtain ⟨rfl, rfl⟩ := both_eq_ok hok
      exact .inr ⟨_, _, now, rfl, rfl, rfl, rfl⟩
  · rintro ⟨fst, v4, snd, v6, h₄, h₆, ⟨ex, hex, rfl, rfl⟩ | ⟨_, _, now, rfl, rfl, rfl, rfl⟩⟩
    · refine Task.runs_attempt_bind.mpr ⟨fst, v4, snd, rfl, h₄, Task.runs_attempt_bind.mpr
        ⟨snd, v6, [], (List.append_nil snd).symm, h₆, Task.runs_ofExcept_bind.mpr (.inl ?_)⟩⟩
      exact ⟨ex, hex, rfl, rfl⟩
    · refine Task.runs_attempt_bind.mpr ⟨fst, _, _, rfl, h₄, Task.runs_attempt_bind.mpr
        ⟨snd, _, _, rfl, h₆, Task.runs_ofExcept_bind.mpr (.inr ⟨_, rfl, ?_⟩)⟩⟩
      exact Task.runs_perform_bind.mpr ⟨now, [], rfl, Task.runs_pure.mpr ⟨rfl, rfl⟩⟩

theorem sampleOnceAsync_eq_ok {es : List (Event (Clock.sum N))} {state' : State}
    (h : Task.Runs (monitor.sampleOnceAsync state) es (.ok state')) :
    ∃ v4 v6 now, state' = monitor.complete v4 v6 now state := by
  obtain ⟨_, _, _, _, -, -, hfail | ⟨v4, v6, now, -, -, -, hstate⟩⟩ := runs_sampleOnceAsync.mp h
  · obtain ⟨_, -, -, hr⟩ := hfail
    exact absurd hr (by simp)
  · exact ⟨v4, v6, now, Except.ok.inj hstate⟩

/-! ### Histories

The condition is on the raw samples of the newest block. It is exact after one round, and so it is
enough after any number of them. -/

/-- The gauge of a family tells how its most recent probe ended. A family that has no samples has no
gauge to be wrong. -/
def UpToDate (state : State) (family : IpVersion) : Prop :=
  ∀ sample, (state.samples family).getLast? = some sample →
    state.gauges.connectivityUp (labelOf family) = some (if sample.latencyMs.isSome then 1 else 0)

/-- The sample is a success, or no sample that shares its block is one. The gauge is set from the
last block, which is shown as a success if there is one in it. -/
def Unmixed (monitor : ConnectivityMonitor N) (before : State) (family : IpVersion)
    (sample : LatencySample) : Prop :=
  sample.latencyMs.isSome = true ∨
    ∀ s ∈ earlierInBlock (monitor.kept sample.sampledAt (before.samples family)),
      s.latencyMs.isSome = false

/-- A completed round of sampling. -/
def Sampled (monitor : ConnectivityMonitor N) (state state' : State) : Prop :=
  ∃ es, Task.Runs (monitor.sampleOnceAsync state) es (.ok state')

/-- A completed round that leaves no success and its failure in one block. It is a condition on the
state before the round and on what the round has measured. -/
def SampledUnmixed (monitor : ConnectivityMonitor N) (state state' : State) : Prop :=
  monitor.Sampled state state' ∧ ∀ family, (monitor.targets family).length > 0 →
    ∀ sample, (state'.samples family).getLast? = some sample → monitor.Unmixed state family sample

/-- One round, from any state. -/
theorem upToDate_iff {state' : State} (h : monitor.Sampled state state')
    (hconf : (monitor.targets family).length > 0) :
    ∃ sample, (state'.samples family).getLast? = some sample ∧
      (UpToDate state' family ↔ monitor.Unmixed state family sample) := by
  obtain ⟨es, hrun⟩ := h
  obtain ⟨v4, v6, now, rfl⟩ := sampleOnceAsync_eq_ok hrun
  obtain ⟨hsamples, hgauge⟩ := complete_spec hconf v4 v6 now state
  have hlast : ((monitor.complete v4 v6 now state).samples family).getLast? =
      some ⟨now, latencyOf v4 v6 family⟩ := by
    rw [hsamples, List.getLast?_concat]
  refine ⟨_, hlast, ?_⟩
  rw [UpToDate, Unmixed, hlast]
  simp only [Option.some.injEq, forall_eq', hgauge]
  cases hlatency : (latencyOf v4 v6 family).isSome with
  | true => simp
  | false =>
    cases hany : (earlierInBlock (monitor.kept now (state.samples family))).any
        fun s => s.latencyMs.isSome with
    | true =>
      obtain ⟨s, hs, hsome⟩ := List.any_eq_true.mp hany
      have hne : (1 : Double) ≠ 0 := by decide
      simp only [Bool.or_true, if_true, Bool.false_eq_true, if_false, hne, false_or, false_iff]
      exact fun hall => absurd (hall s hs) (by simp [hsome])
    | false => simpa using hany

/-- **When the gauge is right.** After a completed round from any state, so after any history, the
gauge of a configured family tells whether the recorded sample has a latency exactly if that sample
has one or no sample that shares its block has one. In particular it is right in every state that
is reached by such rounds only. -/
theorem connectivityUp_iff (monitor : ConnectivityMonitor N) :
    (∀ state state' family, monitor.Sampled state state' → (monitor.targets family).length > 0 →
      ∃ sample, (state'.samples family).getLast? = some sample ∧
        (UpToDate state' family ↔ monitor.Unmixed state family sample)) ∧
    ∀ state, Relation.ReflTransGen monitor.SampledUnmixed State.new state →
      ∀ family, (monitor.targets family).length > 0 → UpToDate state family := by
  refine ⟨fun _ _ _ h hconf => upToDate_iff h hconf, fun state h family hconf => ?_⟩
  cases h with
  | refl => exact fun sample hsample => absurd hsample (by simp [State.new])
  | tail _ hstep =>
    obtain ⟨sample, hlast, hiff⟩ := upToDate_iff hstep.1 hconf
    exact hiff.mpr (hstep.2 family hconf sample hlast)

/-! ### A hidden failure

A day of successes, one a minute, is built by induction. Then the next round fails. -/

/-- Probes whose outcomes the environment chooses. -/
abbrev Outcomes : Interface := ⟨Unit, fun _ => Option Double⟩

def exampleMonitor : ConnectivityMonitor Outcomes where
  options := {}
  probe := ⟨fun _ _ => Task.perform (I := Outcomes) ()⟩
  ipv4Targets := [⟨.v4 (Octets.four 1 1 1 1), 443⟩]
  ipv6Targets := []

theorem hasTargets_exampleMonitor : (exampleMonitor.targets .ipv4).length > 0 := Nat.one_pos

theorem sampled_exampleMonitor (state : State) (latency : Option Double) (now : DateTimeOffset) :
    exampleMonitor.Sampled state (exampleMonitor.complete latency none now state) := by
  refine ⟨[⟨.inr (), latency⟩, ⟨.inl .getUtcNow, now⟩], ?_⟩
  cases latency <;> exact .call _ (.call _ (.done _))

/-- So many successes, one a minute. -/
def successes (count : ℕ) : List LatencySample :=
  (List.range count).map fun i : ℕ => ⟨(i : ℤ) * 600000000, some 5⟩

/-- For a day, none of them is dropped. -/
theorem kept_successes {count : ℕ} (h : count ≤ 1440) :
    exampleMonitor.kept (count * 600000000) (successes count) = successes count := by
  rw [kept, List.filter_eq_self]
  intro s hs
  obtain ⟨i, -, rfl⟩ := List.mem_map.mp hs
  have hcutoff : exampleMonitor.cutoff (count * 600000000) ≤ (i : ℤ) * 600000000 := by
    show (count : ℤ) * 600000000 - (86400 : ℕ) * 10000000 ≤ (i : ℤ) * 600000000
    omega
  simpa using hcutoff

theorem exists_successes (count : ℕ) (h : count ≤ 1440) :
    ∃ state, Relation.ReflTransGen exampleMonitor.Sampled State.new state ∧
      state.samples .ipv4 = successes count := by
  induction count with
  | zero => exact ⟨_, .refl, rfl⟩
  | succ count ih =>
    obtain ⟨state, hreach, hsamples⟩ := ih (by omega)
    refine ⟨_, hreach.tail (sampled_exampleMonitor state (some 5) (count * 600000000)), ?_⟩
    have hspec := complete_spec hasTargets_exampleMonitor (some 5) none (count * 600000000) state
    rw [hspec.1, hsamples, kept_successes (by omega), successes, successes, List.range_succ,
      List.map_append]
    rfl

/-- After 289 successes, a failure shares its block with a success: the probe has just failed, and
the gauge says that it succeeded. -/
theorem failure_hidden :
    ∃ state state', Relation.ReflTransGen exampleMonitor.Sampled State.new state ∧
      exampleMonitor.Sampled state state' ∧
      (state'.samples .ipv4).getLast? = some ⟨289 * 600000000, none⟩ ∧
      state'.gauges.connectivityUp "ipv4" = some 1 := by
  obtain ⟨state, hreach, hsamples⟩ := exists_successes 289 (by decide)
  refine ⟨state, _, hreach, sampled_exampleMonitor state none ((289 : ℕ) * 600000000), ?_⟩
  obtain ⟨hlast, hgauge⟩ := complete_spec hasTargets_exampleMonitor none none
    ((289 : ℕ) * 600000000) state
  rw [hsamples, kept_successes (by decide)] at hlast hgauge
  refine ⟨by rw [hlast, List.getLast?_concat]; rfl, hgauge.trans ?_⟩
  have hany : (earlierInBlock (successes 289)).any (fun s => s.latencyMs.isSome) = true := by
    decide +kernel
  rw [hany]
  rfl

end ConnectivityMonitor

end LookingGlass
