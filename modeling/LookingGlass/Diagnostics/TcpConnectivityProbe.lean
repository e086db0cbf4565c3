import LookingGlass.Diagnostics.ConnectivityMonitor
import LookingGlass.Foundations.Interleaving

/-!
# The TCP probe

The probe creates a socket and connects it. What the connection throws is caught: a failure to
connect and a connection that takes too long are measurements without a latency. The socket is
created before the `try` block, though, so where a host cannot create sockets of one family the
exception leaves the probe and fails the round, and the other family is not recorded either.

## Rounds

Both families are probed at the same time, and the round waits for both. What one of them throws
ends the round, after the other one has come to its end, and nothing is recorded. So the condition
is on all sockets that a round asks for, of whichever family, and it is read off the calls.

Within a family the targets are tried in turn, up to the first that connects. That a family has no
connection is recorded as a sample without a latency, and is no failure of anything.

## Main results

* `TcpConnectivityProbe.probed_of_runs` — everything a probe can do
* `TcpConnectivityProbe.runs_probeFamilyAsync` — the targets of a family in turn
* `TcpConnectivityProbe.recordsBoth_iff` — when a round records both families
-/

namespace LookingGlass

open Utf16 Interaction

/-- How `Socket.ConnectAsync` ends. -/
inductive ConnectOutcome
  /-- Connected, with the time on the stopwatch. -/
  | connected (elapsedMs : Double)
  | operationCanceled
  | socketException

inductive SocketOp
  /-- `new Socket(target.AddressFamily, …)`, which may throw a `SocketException`. -/
  | create (target : IPEndPoint)
  | connect (target : IPEndPoint) (timeoutSeconds : ℕ)
  | isCancellationRequested

abbrev SocketOp.Ret : SocketOp → Type
  | create _ => Bool
  | connect _ _ => ConnectOutcome
  | isCancellationRequested => Bool

abbrev Sockets : Interface := ⟨SocketOp, SocketOp.Ret⟩

namespace TcpConnectivityProbe

/-- What creating a socket returns or throws. -/
def created : Bool → Except Exn Unit
  | true => .ok ()
  | false => .error .socket

/-- What awaiting a connection returns or throws. -/
def connected : ConnectOutcome → Except Exn Double
  | .connected elapsedMs => .ok elapsedMs
  | .operationCanceled => .error .operationCanceled
  | .socketException => .error .socket

/-- The `catch` clauses around the connection. -/
def handle : Exn → Task Sockets Exn (Option Double)
  | .operationCanceled => do
    let requested : Bool ← Task.perform (I := Sockets) .isCancellationRequested
    if !requested then pure none else throw Exn.operationCanceled
  | .socket => pure none
  | ex => throw ex

def probeAsync (target : IPEndPoint) (timeoutSeconds : ℕ) : Task Sockets Exn (Option Double) := do
  Task.call (I := Sockets) (.create target) created
  try
    let elapsedMs ← Task.call (I := Sockets) (.connect target timeoutSeconds) connected
    pure (some elapsedMs)
  catch ex => handle ex

end TcpConnectivityProbe

def TcpConnectivityProbe : IConnectivityProbe Sockets := ⟨TcpConnectivityProbe.probeAsync⟩

namespace TcpConnectivityProbe

open ConnectivityMonitor

/-! ### The calls of a probe

What is read off the calls: a socket that could not be created, a cancelled round, and the latency
of a connection to a target of one family. -/

def failsToCreate : Event Sockets → Bool
  | ⟨.create _, false⟩ => true
  | _ => false

def isCancelled : Event Sockets → Bool
  | ⟨.isCancellationRequested, true⟩ => true
  | _ => false

/-- The latency of a connection to a target of the family. -/
def latencyFor (family : AddressFamily) : Event Sockets → Option Double
  | ⟨.connect target _, .connected elapsedMs⟩ =>
    if target.addressFamily = family then some elapsedMs else none
  | _ => none

/-- What a probe can do: its calls, and how it ends. There are five ways, and in two of them it ends
with an exception. -/
inductive Probed (target : IPEndPoint) (timeout : ℕ) :
    List (Event Sockets) → Except Exn (Option Double) → Prop
  | notCreated : Probed target timeout [⟨.create target, false⟩] (.error .socket)
  | connected (elapsedMs : Double) : Probed target timeout
      [⟨.create target, true⟩, ⟨.connect target timeout, .connected elapsedMs⟩]
      (.ok (some elapsedMs))
  | refused : Probed target timeout
      [⟨.create target, true⟩, ⟨.connect target timeout, .socketException⟩] (.ok none)
  | timedOut : Probed target timeout
      [⟨.create target, true⟩, ⟨.connect target timeout, .operationCanceled⟩,
        ⟨.isCancellationRequested, false⟩] (.ok none)
  | cancelled : Probed target timeout
      [⟨.create target, true⟩, ⟨.connect target timeout, .operationCanceled⟩,
        ⟨.isCancellationRequested, true⟩] (.error .operationCanceled)

theorem probed_of_runs {target : IPEndPoint} {timeout : ℕ} {calls : List (Event Sockets)}
    {r : Except Exn (Option Double)} (h : Task.Runs (probeAsync target timeout) calls r) :
    Probed target timeout calls r := by
  refine Task.post_of_runs ?_ h
  refine Task.follows_bind.mpr ⟨trivial, Bool.forall_bool.mpr ⟨.notCreated, ?_⟩⟩
  refine Task.follows_tryCatch.mpr (Task.follows_bind.mpr ⟨trivial, fun outcome => ?_⟩)
  cases outcome with
  | connected elapsedMs => exact .connected elapsedMs
  | operationCanceled =>
    exact Task.follows_bind.mpr ⟨trivial, Bool.forall_bool.mpr ⟨.timedOut, .cancelled⟩⟩
  | socketException => exact .refused

/-- A probe that is not cancelled ends as its calls say: it fails if the socket was not created, and
returns the latency of its connection otherwise. -/
theorem Probed.outcome {target : IPEndPoint} {timeout : ℕ} {calls : List (Event Sockets)}
    {r : Except Exn (Option Double)} (h : Probed target timeout calls r)
    (hcancel : ∀ e ∈ calls, isCancelled e = false) :
    (∃ e ∈ calls, failsToCreate e = true) ∧ r = .error .socket ∨
      (∀ e ∈ calls, failsToCreate e = false) ∧
        r = .ok (calls.findSome? (latencyFor target.addressFamily)) := by
  cases h with
  | notCreated => exact .inl ⟨⟨_, List.mem_singleton_self _, rfl⟩, rfl⟩
  | connected elapsedMs =>
    exact .inr ⟨by simp [failsToCreate], by simp [List.findSome?, latencyFor]⟩
  | refused => exact .inr ⟨by simp [failsToCreate], rfl⟩
  | timedOut => exact .inr ⟨by simp [failsToCreate], rfl⟩
  | cancelled =>
    have hrequested := hcancel ⟨.isCancellationRequested, true⟩ (by simp)
    exact absurd hrequested (by simp [isCancelled])

theorem Probed.latencyFor_of_ne {target : IPEndPoint} {timeout : ℕ} {calls : List (Event Sockets)}
    {r : Except Exn (Option Double)} (h : Probed target timeout calls r) {family : AddressFamily}
    (hne : target.addressFamily ≠ family) : ∀ e ∈ calls, latencyFor family e = none := by
  cases h <;> simp [latencyFor, hne]

/-! ### The targets of a family

By induction over the targets. Those behind the first connection are not tried. -/

variable {monitor : ConnectivityMonitor Sockets}

/-- **The targets of a family in turn**: the calls are for these targets only, and without a
cancellation they decide how the family ends. -/
theorem runs_probeFamilyAsync (hprobe : monitor.probe = TcpConnectivityProbe)
    {family : AddressFamily} {targets : List IPEndPoint}
    (htargets : ∀ target ∈ targets, target.addressFamily = family)
    {es : List (Event (Clock.sum Sockets))} {r : Except Exn (Option Double)}
    (h : Task.Runs (monitor.probeFamilyAsync targets) es r) :
    ∃ calls : List (Event Sockets), es = calls.map Event.right ∧
      (∀ other ≠ family, ∀ e ∈ calls, latencyFor other e = none) ∧
      ((∀ e ∈ calls, isCancelled e = false) →
        (∃ e ∈ calls, failsToCreate e = true) ∧ r = .error .socket ∨
          (∀ e ∈ calls, failsToCreate e = false) ∧
            r = .ok (calls.findSome? (latencyFor family))) := by
  induction targets generalizing es r with
  | nil =>
    obtain ⟨rfl, rfl⟩ := Task.runs_pure.mp h
    exact ⟨[], rfl, by simp, fun _ => .inr ⟨by simp, rfl⟩⟩
  | cons target targets ih =>
    obtain ⟨htarget, htargets⟩ := List.forall_mem_cons.mp htargets
    rw [probeFamilyAsync, hprobe] at h
    rcases Task.runs_bind.mp h with ⟨ex, hrun, rfl⟩ | ⟨_, latency, snd, rfl, hrun, hrest⟩
    · -- The probe fails, and the rest of the targets is not tried.
      obtain ⟨calls, rfl, hprobed⟩ := Task.runs_right.mp hrun
      have hprobed := probed_of_runs hprobed
      refine ⟨calls, rfl, fun other hne => hprobed.latencyFor_of_ne (htarget ▸ hne.symm), ?_⟩
      intro hcancel
      rcases hprobed.outcome hcancel with ⟨hfails, hr⟩ | ⟨-, hr⟩
      · exact .inl ⟨hfails, Except.error.inj hr ▸ rfl⟩
      · exact absurd hr (by simp)
    · obtain ⟨calls, rfl, hprobed⟩ := Task.runs_right.mp hrun
      have hprobed := probed_of_runs hprobed
      have hother : ∀ other ≠ family, ∀ e ∈ calls, latencyFor other e = none :=
        fun other hne => hprobed.latencyFor_of_ne (htarget ▸ hne.symm)
      cases latency with
      | some latency =>
        obtain ⟨rfl, rfl⟩ := Task.runs_pure.mp hrest
        refine ⟨calls, List.append_nil _, hother, fun hcancel => ?_⟩
        rcases hprobed.outcome hcancel with ⟨-, hr⟩ | ⟨hcreated, hr⟩
        · exact absurd hr (by simp)
        · exact .inr ⟨hcreated, by rw [← htarget, ← hr]⟩
      | none =>
        obtain ⟨tail, rfl, hother', htail⟩ := ih htargets hrest
        refine ⟨calls ++ tail, by simp, fun other hne => ?_, fun hcancel => ?_⟩
        · exact List.forall_mem_append.mpr ⟨hother other hne, hother' other hne⟩
        · obtain ⟨hcancel, hcancel'⟩ := List.forall_mem_append.mp hcancel
          rcases hprobed.outcome hcancel with ⟨-, hr⟩ | ⟨hcreated, hr⟩
          · exact absurd hr (by simp)
          rw [htarget] at hr
          rcases htail hcancel' with ⟨⟨e, he, hfails⟩, hr'⟩ | ⟨hcreated', hr'⟩
          · exact .inl ⟨⟨e, List.mem_append_right _ he, hfails⟩, hr'⟩
          · refine .inr ⟨List.forall_mem_append.mpr ⟨hcreated, hcreated'⟩, ?_⟩
            rw [List.findSome?_append, ← Except.ok.inj hr, hr', Option.none_or]

/-! ### A round

What a family is recorded with comes from its own probes, whatever the others do. -/

/-- The calls of the probes in a round. -/
def probes (es : List (Event (Clock.sum Sockets))) : List (Event Sockets) :=
  es.filterMap Event.right?

/-- The first latency that the probes of the family measured. -/
def measured (family : AddressFamily) (calls : List (Event Sockets)) : Option Double :=
  calls.findSome? (latencyFor family)

def addressFamilyOf : IpVersion → AddressFamily
  | .ipv4 => .interNetwork
  | .ipv6 => .interNetworkV6

/-- One new sample for every family with targets, and in it what the probes of that family alone
measured. The samples before it are those that are not too old. -/
def RecordsBoth (monitor : ConnectivityMonitor Sockets) (state : State)
    (calls : List (Event Sockets)) (r : Except Exn State) : Prop :=
  ∃ state' now, r = .ok state' ∧ ∀ family, (monitor.targets family).length > 0 →
    state'.samples family = monitor.kept now (state.samples family) ++
      [⟨now, measured (addressFamilyOf family) calls⟩]

theorem addressFamily_of_mem_parseTargets {tryParse : Str → Option IPEndPoint} {csv : Str}
    {family : AddressFamily} :
    ∀ target ∈ parseTargets tryParse csv family, target.addressFamily = family := by
  intro target htarget
  obtain ⟨entry, -, hentry⟩ := List.mem_filterMap.mp htarget
  obtain ⟨-, hfamily⟩ := Option.filter_eq_some_iff.mp hentry
  simp only [Bool.and_eq_true, beq_iff_eq] at hfamily
  exact hfamily.1

theorem measured_append {family : AddressFamily} {fst snd : List (Event Sockets)} :
    measured family (fst ++ snd) = (measured family fst).or (measured family snd) :=
  List.findSome?_append

theorem measured_eq_none {family : AddressFamily} {calls : List (Event Sockets)}
    (h : ∀ e ∈ calls, latencyFor family e = none) : measured family calls = none :=
  List.findSome?_eq_none_iff.mpr h

/-- What is measured for a family is measured by its own probes. -/
theorem latencyOf_measured {fst snd : List (Event Sockets)}
    (hfst : ∀ e ∈ fst, latencyFor .interNetworkV6 e = none)
    (hsnd : ∀ e ∈ snd, latencyFor .interNetwork e = none) (family : IpVersion) :
    latencyOf (measured .interNetwork fst) (measured .interNetworkV6 snd) family =
      measured (addressFamilyOf family) (fst ++ snd) := by
  rw [measured_append]
  cases family with
  | ipv4 =>
    show measured .interNetwork fst = (measured .interNetwork fst).or (measured .interNetwork snd)
    rw [measured_eq_none hsnd, Option.or_none]
  | ipv6 =>
    show measured .interNetworkV6 snd =
      (measured .interNetworkV6 fst).or (measured .interNetworkV6 snd)
    rw [measured_eq_none hfst, Option.none_or]

/-- The calls of the probes, behind which the clock may have been read. -/
theorem probes_append {fst snd : List (Event Sockets)} {rest : List (Event (Clock.sum Sockets))}
    (hrest : probes rest = []) :
    probes (fst.map Event.right ++ (snd.map Event.right ++ rest)) = fst ++ snd := by
  rw [probes, List.filterMap_append, List.filterMap_append, Event.filterMap_right?_map_right,
    Event.filterMap_right?_map_right]
  show fst ++ (snd ++ probes rest) = fst ++ snd
  rw [hrest, List.append_nil]

/-- **When a round records both families.** Unless it is cancelled, a round from any state records
one new sample for each family with targets, with what the probes of that family measured, exactly
if every socket it asks for is created. -/
theorem recordsBoth_iff {tryParse : Str → Option IPEndPoint} {options : ConnectivityOptions}
    {state : State} {es : List (Event (Clock.sum Sockets))} {r : Except Exn State}
    (h : Task.Runs ((ConnectivityMonitor.new tryParse options TcpConnectivityProbe).sampleOnceAsync
      state) es r)
    (hcancel : ∀ e ∈ probes es, isCancelled e = false) :
    RecordsBoth (ConnectivityMonitor.new tryParse options TcpConnectivityProbe) state
      (probes es) r ↔
      ∀ e ∈ probes es, failsToCreate e = false := by
  obtain ⟨_, v4, _, v6, h₄, h₆, hround⟩ := runs_sampleOnceAsync.mp h
  obtain ⟨fst, rfl, hother₄, hends₄⟩ :=
    runs_probeFamilyAsync rfl addressFamily_of_mem_parseTargets h₄
  obtain ⟨snd, rfl, hother₆, hends₆⟩ :=
    runs_probeFamilyAsync rfl addressFamily_of_mem_parseTargets h₆
  have hprobes : probes es = fst ++ snd := by
    rcases hround with ⟨_, -, rfl, -⟩ | ⟨_, _, _, -, -, rfl, -⟩
    · rw [← List.append_nil (snd.map Event.right)]
      exact probes_append rfl
    · exact probes_append rfl
  rw [hprobes] at hcancel ⊢
  obtain ⟨hcancel₄, hcancel₆⟩ := List.forall_mem_append.mp hcancel
  constructor
  · rintro ⟨state', now, rfl, -⟩
    rcases hround with ⟨_, -, -, hr⟩ | ⟨_, _, _, rfl, rfl, -, -⟩
    · exact absurd hr (by simp)
    refine List.forall_mem_append.mpr ⟨?_, ?_⟩
    · rcases hends₄ hcancel₄ with ⟨-, hr⟩ | ⟨hcreated, -⟩
      · exact absurd hr (by simp)
      · exact hcreated
    · rcases hends₆ hcancel₆ with ⟨-, hr⟩ | ⟨hcreated, -⟩
      · exact absurd hr (by simp)
      · exact hcreated
  · intro hcreated
    obtain ⟨hcreated₄, hcreated₆⟩ := List.forall_mem_append.mp hcreated
    rcases hends₄ hcancel₄ with ⟨⟨e, he, hfails⟩, -⟩ | ⟨-, rfl⟩
    · exact absurd (hcreated₄ e he) (by simp [hfails])
    rcases hends₆ hcancel₆ with ⟨⟨e, he, hfails⟩, -⟩ | ⟨-, rfl⟩
    · exact absurd (hcreated₆ e he) (by simp [hfails])
    rcases hround with ⟨_, hex, -, -⟩ | ⟨_, _, now, hlatency₄, hlatency₆, -, rfl⟩
    · exact absurd hex (by simp [both])
    obtain rfl := Except.ok.inj hlatency₄
    obtain rfl := Except.ok.inj hlatency₆
    refine ⟨_, now, rfl, fun family hconf => ?_⟩
    rw [← latencyOf_measured (hother₄ _ (by decide)) (hother₆ _ (by decide)) family]
    exact (complete_spec hconf _ _ now state).1

/-! ### A host without IPv6

One target in each family, on a host that cannot create sockets for one of them. -/

def exampleAddress6 : IPAddress :=
  .v6 ⟨[0x26, 0x06, 0x47, 0, 0x47, 0, 0, 0, 0, 0, 0, 0, 0, 0, 0x11, 0x11], rfl⟩ 0

/-- `IPEndPoint.TryParse`, on the targets below. -/
def exampleTryParse (entry : Str) : Option IPEndPoint :=
  if entry = ofString "1.1.1.1:443" then some ⟨.v4 (Octets.four 1 1 1 1), 443⟩
  else if entry = ofString "[2606:4700:4700::1111]:443" then some ⟨exampleAddress6, 443⟩
  else none

def exampleOptions : ConnectivityOptions where
  ipv4Targets := "1.1.1.1:443"
  ipv6Targets := "[2606:4700:4700::1111]:443"

def exampleMonitor : ConnectivityMonitor Sockets :=
  ConnectivityMonitor.new exampleTryParse exampleOptions TcpConnectivityProbe

def exampleTarget4 : IPEndPoint := ⟨.v4 (Octets.four 1 1 1 1), 443⟩

def exampleTarget6 : IPEndPoint := ⟨exampleAddress6, 443⟩

theorem targets_exampleMonitor :
    exampleMonitor.ipv4Targets = [exampleTarget4] ∧
      exampleMonitor.ipv6Targets = [exampleTarget6] := by
  decide

/-- A connection that takes so long. -/
def connects (target : IPEndPoint) (elapsedMs : Double) : List (Event Sockets) :=
  [⟨.create target, true⟩, ⟨.connect target 3, .connected elapsedMs⟩]

/-- A socket that cannot be created. -/
def lacksSocket (target : IPEndPoint) : List (Event Sockets) := [⟨.create target, false⟩]

theorem runs_connects (target : IPEndPoint) (elapsedMs : Double) :
    Task.Runs (exampleMonitor.probeFamilyAsync [target])
      ((connects target elapsedMs).map Event.right)
      (.ok (some elapsedMs)) :=
  .call _ (.call _ (.done _))

theorem runs_lacksSocket (target : IPEndPoint) :
    Task.Runs (exampleMonitor.probeFamilyAsync [target]) ((lacksSocket target).map Event.right)
      (.error .socket) :=
  .call _ (.done _)

/-- Both families connect, and both are recorded. -/
theorem recordsBoth_of_connects :
    ∃ es r, RecordsBoth exampleMonitor State.new es r := by
  have hrun : Task.Runs (exampleMonitor.sampleOnceAsync State.new) _ _ :=
    runs_sampleOnceAsync.mpr ⟨_, _, _, _,
      targets_exampleMonitor.1 ▸ runs_connects exampleTarget4 5,
      targets_exampleMonitor.2 ▸ runs_connects exampleTarget6 7,
      .inr ⟨_, _, 0, rfl, rfl, rfl, rfl⟩⟩
  refine ⟨_, _, (recordsBoth_iff hrun ?_).mpr ?_⟩
  · intro e he
    simp [probes, connects, Event.right, Event.right?] at he
    rcases he with rfl | rfl | rfl | rfl <;> rfl
  · intro e he
    simp [probes, connects, Event.right, Event.right?] at he
    rcases he with rfl | rfl | rfl | rfl <;> rfl

/-- IPv4 connects in 5 ms, and IPv6 sockets cannot be created: the round fails, and nothing is
recorded for IPv4 either. -/
theorem socket_failure_hides_ipv4 :
    ∃ es, Task.Runs (exampleMonitor.sampleOnceAsync State.new) es (.error .socket) ∧
      (∀ e ∈ probes es, isCancelled e = false) ∧
      measured .interNetwork (probes es) = some 5 ∧
      ¬ RecordsBoth exampleMonitor State.new (probes es) (.error .socket) := by
  have hrun : Task.Runs (exampleMonitor.sampleOnceAsync State.new) _ (.error .socket) :=
    runs_sampleOnceAsync.mpr ⟨_, _, _, _,
      targets_exampleMonitor.1 ▸ runs_connects exampleTarget4 5,
      targets_exampleMonitor.2 ▸ runs_lacksSocket exampleTarget6, .inl ⟨_, rfl, rfl, rfl⟩⟩
  refine ⟨_, hrun, ?_, rfl, ?_⟩
  · intro e he
    simp [probes, connects, lacksSocket, Event.right, Event.right?] at he
    rcases he with rfl | rfl | rfl <;> rfl
  · rintro ⟨_, _, hr, -⟩
    exact absurd hr (by simp)

end TcpConnectivityProbe

end LookingGlass
