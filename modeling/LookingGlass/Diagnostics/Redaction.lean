import LookingGlass.Diagnostics.DiagnosticsService

/-!
# Redaction as noninterference

With `RedactPrivateHops` on, a response must not depend on which blocked addresses the tool saw.
Two raw results that differ in nothing else, `SameTrace` or `SameMtr`, give the same hops and the
same text. An address can reach a response in four ways: shown as a hop, as the key of a name,
compared with the target, and printed. For the second and the third it matters that blocked
addresses are not looked up, and that a target is never blocked.

The host resolver is any function of what is looked up, so that the two runs see the same network.

## Same program, same fields

The two requests differ in the raw result of their tool. What is shown is that they are the same
program if redaction is on, so that they do the same against any environment. In addition, whenever
both return, whatever their environments did, the hops and the text are the same; the times and the
request IDs are those of each request.

For this the network has to be the same for both, and so the resolver is a function. With a resolver
that may change its mind, a name could differ between two requests for any reason.

## Main results

* `DiagnosticsService.redaction` — two raw results that differ in blocked addresses only are
  presented alike
-/

namespace LookingGlass

open Utf16 Interaction

namespace DiagnosticsService

/-- A resolver whose answers are a function of what is looked up. -/
def resolverOf (resolve : Str → IpFamily → Except Exn (List IPAddress))
    (reverse : IPAddress → Except Exn (Option Str)) : IHostResolver :=
  ⟨fun host family => Task.ofExcept (resolve host family),
    fun address => Task.ofExcept (reverse address)⟩

/-- A probe runner that returns the given results. -/
def probesOf (ping : PingRaw) (trace : List TraceHopRaw) (mtr : MtrRaw) : IProbeRunner :=
  ⟨fun _ => pure ping, fun _ => pure trace, fun _ => pure mtr⟩

/-- The same address, or blocked addresses on both sides. Nobody who is shown the response should be
able to tell these apart. -/
def SameAddress (policy : DestinationPolicy) (a b : Option IPAddress) : Prop :=
  a = b ∨ ∃ x y, a = some x ∧ b = some y ∧ policy.blocklist.isBlocked x = true ∧
    policy.blocklist.isBlocked y = true

structure SameTraceHop (policy : DestinationPolicy) (h k : TraceHopRaw) : Prop where
  hop : h.hop = k.hop
  rttMs : h.rttMs = k.rttMs
  address : SameAddress policy h.address k.address

/-- Two traceroute results, equal up to their blocked addresses. -/
def SameTrace (policy : DestinationPolicy) : List TraceHopRaw → List TraceHopRaw → Prop :=
  List.Forall₂ (SameTraceHop policy)

structure SameMtrHop (policy : DestinationPolicy) (h k : MtrHopRaw) : Prop where
  rest : { h with address := none } = { k with address := none }
  address : SameAddress policy h.address k.address

/-- Two mtr results, equal up to their blocked addresses. The figures of a hop are the same in both,
also of one with such an address. -/
structure SameMtr (policy : DestinationPolicy) (a b : MtrRaw) : Prop where
  cycles : a.cycles = b.cycles
  hops : List.Forall₂ (SameMtrHop policy) a.hops b.hops

variable {rt : Runtime} {policy : DestinationPolicy} {settings : DiagnosticsOptions}

theorem map_eq_of_forall₂ {α β : Type} {R : α → α → Prop} {f : α → β} {xs ys : List α}
    (h : List.Forall₂ R xs ys) (hf : ∀ x y, R x y → f x = f y) : xs.map f = ys.map f := by
  rw [← List.forall₂_eq_eq_eq, List.forall₂_map_left_iff, List.forall₂_map_right_iff]
  exact h.imp hf

/-- What is the same for all blocked addresses is the same for both. -/
theorem SameAddress.congr {α : Type} {f : Option IPAddress → α} {a b : Option IPAddress}
    (h : SameAddress policy a b)
    (hf : ∀ x y, policy.blocklist.isBlocked x = true → policy.blocklist.isBlocked y = true →
      f (some x) = f (some y)) : f a = f b := by
  rcases h with rfl | ⟨x, y, rfl, rfl, hx, hy⟩
  · rfl
  · exact hf x y hx hy

/-! ### The parts of a response

What is made of a hop does not depend on which blocked address it has. -/

/-- A redacted hop is shown without its address. -/
theorem present_eq (hredact : settings.redactPrivateHops = true) {a b : Option IPAddress}
    (h : SameAddress policy a b) (names : List (IPAddress × Str)) :
    present rt policy settings a names = present rt policy settings b names := by
  refine h.congr (f := fun a => present rt policy settings a names) ?_
  intro x y hx hy
  simp only [present, hredact, hx, hy]
  rfl

theorem SameAddress.isSome_eq {a b : Option IPAddress} (h : SameAddress policy a b) :
    a.isSome = b.isSome :=
  h.congr fun _ _ _ _ => rfl

theorem tracerouteHop_eq (hredact : settings.redactPrivateHops = true)
    (names : List (IPAddress × Str)) {h k : TraceHopRaw} (hsame : SameTraceHop policy h k) :
    tracerouteHop rt policy settings names h = tracerouteHop rt policy settings names k := by
  simp only [tracerouteHop, present_eq hredact hsame.address, hsame.hop, hsame.rttMs,
    hsame.address.isSome_eq]

theorem mtrHop_eq (hredact : settings.redactPrivateHops = true)
    (names : List (IPAddress × Str)) {h k : MtrHopRaw} (hsame : SameMtrHop policy h k) :
    mtrHop rt policy settings names h = mtrHop rt policy settings names k := by
  have hrest := hsame.rest
  simp only [MtrHopRaw.mk.injEq, true_and] at hrest
  obtain ⟨hhop, hloss, hsent, hlast, havg, hbest, hworst, hdev⟩ := hrest
  simp only [mtrHop, present_eq hredact hsame.address, hsame.address.isSome_eq, hhop, hloss, hsent,
    hlast, havg, hbest, hworst, hdev]

/-- Blocked addresses are not looked up. -/
theorem publicAddresses_eq {as bs : List (Option IPAddress)}
    (h : List.Forall₂ (SameAddress policy) as bs) :
    publicAddresses policy as = publicAddresses policy bs := by
  simp only [publicAddresses, filter_distinct, List.filter_filterMap, id]
  refine congrArg distinct ?_
  let free (a : Option IPAddress) : Option IPAddress :=
    a.filter fun a => !policy.blocklist.isBlocked a
  have hmap : as.map free = bs.map free := by
    refine map_eq_of_forall₂ h fun a b hab => hab.congr ?_
    intro x y hx hy
    simp [free, Option.filter, hx, hy]
  have hfree := congrArg (List.filterMap id) hmap
  rwa [List.filterMap_map, List.filterMap_map, Function.id_comp] at hfree

/-- A target is not blocked, so it tells no two blocked addresses apart. -/
theorem reached_eq {target : ResolvedTarget}
    (hfree : policy.blocklist.isBlocked target.address = false) {raw₁ raw₂ : List TraceHopRaw}
    (h : SameTrace policy raw₁ raw₂) : reached target raw₁ = reached target raw₂ := by
  have hne : ∀ a, policy.blocklist.isBlocked a = true →
      (some a == some target.address) = false := by
    intro a ha
    rw [beq_eq_false_iff_ne]
    intro heq
    rw [Option.some.inj heq, hfree] at ha
    exact absurd ha (by simp)
  have hmap : raw₁.map (fun h => h.address == some target.address) =
      raw₂.map (fun h => h.address == some target.address) := by
    refine map_eq_of_forall₂ h fun x y hxy => ?_
    refine hxy.address.congr (f := fun a => a == some target.address) ?_
    intro a b ha hb
    show (some a == some target.address) = (some b == some target.address)
    rw [hne a ha, hne b hb]
  have hlast := congrArg List.getLast? hmap
  have hany : ∀ raw : List TraceHopRaw, reached target raw =
      ((raw.map fun h => h.address == some target.address).getLast?).any id := by
    intro raw
    rw [List.getLast?_map, reached]
    cases raw.getLast? <;> rfl
  rw [hany, hany, hlast]

/-! ### A request against such a network

The lookups of names, the target and the response, each as a function of the network. -/

section Requests

variable {resolve : Str → IpFamily → Except Exn (List IPAddress)}
  {reverse : IPAddress → Except Exn (Option Str)}

/-- The name shown for an address: none if its lookup does not return. -/
def nameOf (reverse : IPAddress → Except Exn (Option Str)) (address : IPAddress) :
    IPAddress × Option Str :=
  (address, (reverse address).toOption.join)

/-- The names of the addresses that are looked up. -/
def namesOf (policy : DestinationPolicy) (settings : DiagnosticsOptions)
    (reverse : IPAddress → Except Exn (Option Str)) (addresses : List (Option IPAddress)) :
    List (IPAddress × Str) :=
  if settings.reverseDns then named ((publicAddresses policy addresses).map (nameOf reverse))
  else []

theorem lookup_eq_ok {address : IPAddress} {es : List (Event Work)} {l : IPAddress × Option Str}
    (h : Task.Runs (lookup (resolverOf resolve reverse) address) es (.ok l)) :
    l = nameOf reverse address := by
  rcases Task.runs_tryCatch.mp h with ⟨a, hrun, ha⟩ | ⟨fst, ex, snd, -, hrun, hcatch⟩
  · obtain rfl := Except.ok.inj ha
    obtain ⟨_, name, _, -, hname, hpure⟩ := Task.runs_bind_ok.mp hrun
    obtain rfl := Except.ok.inj (Task.runs_pure.mp hpure).2
    rw [nameOf, ← (Task.runs_ofExcept.mp hname).2]
    rfl
  · rcases Task.runs_ofExcept_bind.mp hrun with ⟨e, hname, -, he⟩ | ⟨_, _, hpure⟩
    · obtain rfl := Except.error.inj he
      cases ex with
      | operationCanceled =>
        obtain ⟨_, requested, _, -, -, hrest⟩ := Task.runs_bind_ok.mp hcatch
        split at hrest
        · obtain rfl := Except.ok.inj (Task.runs_pure.mp hrest).2
          rw [nameOf, hname]
          rfl
        · exact absurd (Task.runs_throw.mp hrest).2 (by simp)
      | _ => exact absurd (Task.runs_throw.mp hcatch).2 (by simp)
    · exact absurd (Task.runs_pure.mp hpure).2 (by simp)

/-- Lookups that all return have found the names of this network. -/
theorem lookups_eq {asked : List IPAddress} {lookups : List (IPAddress × Option Str)}
    {runs : List (List (Event Work) × Except Exn (IPAddress × Option Str))}
    (hruns : List.Forall₂ (fun t run => Task.Runs t run.1 run.2)
      (asked.map (lookup (resolverOf resolve reverse))) runs)
    (hoks : runs.map Prod.snd = lookups.map .ok) : lookups = asked.map (nameOf reverse) := by
  induction asked generalizing runs lookups with
  | nil =>
    cases hruns
    exact List.map_eq_nil_iff.mp hoks.symm
  | cons a asked ih =>
    obtain ⟨run, rest, hrun, hrest, rfl⟩ := List.forall₂_cons_left_iff.mp hruns
    cases lookups with
    | nil => exact absurd hoks (by simp)
    | cons l lookups =>
      obtain ⟨hl, htail⟩ := List.cons.inj hoks
      rw [hl] at hrun
      rw [List.map_cons, ← ih hrest htail, lookup_eq_ok hrun]

/-- The names do not depend on the run. -/
theorem reverseLookupAsync_eq_ok {addresses : List (Option IPAddress)} {es : List (Event Work)}
    {names : List (IPAddress × Str)}
    (h : Task.Runs (reverseLookupAsync policy settings (resolverOf resolve reverse) addresses) es
      (.ok names)) :
    names = namesOf policy settings reverse addresses := by
  unfold reverseLookupAsync at h
  cases hdns : settings.reverseDns with
  | false =>
    rw [hdns] at h
    rw [namesOf, hdns]
    exact Except.ok.inj (Task.runs_pure.mp h).2
  | true =>
    rw [hdns] at h
    rw [namesOf, hdns]
    obtain ⟨fst, lookups, snd, -, hall, hpure⟩ := Task.runs_bind_ok.mp h
    obtain rfl := Except.ok.inj (Task.runs_pure.mp hpure).2
    obtain ⟨runs, hruns, -, hgather⟩ := runs_whenAll hall
    exact congrArg named (lookups_eq hruns (gather_eq_ok hgather.symm))

/-- Against such a network the target of a request is a value. -/
theorem exists_target_eq (rt : Runtime) (policy : DestinationPolicy)
    (resolve : Str → IpFamily → Except Exn (List IPAddress))
    (reverse : IPAddress → Except Exn (Option Str)) (request : Option DestinationRequest) :
    ∃ x, target rt policy (resolverOf resolve reverse) request = Task.ofExcept x := by
  unfold target TargetResolver.resolveAsync
  split
  · exact ⟨.error _, rfl⟩
  · split
    · exact ⟨.error _, rfl⟩
    · exact ⟨.ok _, rfl⟩
  · next name _ =>
    show ∃ x, Task.ofExcept (resolve name _) >>= _ = Task.ofExcept x
    cases resolve name _ with
    | error ex => exact ⟨.error ex, rfl⟩
    | ok addresses =>
      cases addresses with
      | nil => exact ⟨.error _, rfl⟩
      | cons first rest =>
        show ∃ x, ite _ _ _ = Task.ofExcept x
        split
        · exact ⟨.error _, rfl⟩
        · exact ⟨.ok _, rfl⟩

variable {ping : PingRaw} {request : Option DestinationRequest} {requestId : Str}
  {x : Except Exn ResolvedTarget}

theorem isBlocked_of_target_eq {t : ResolvedTarget}
    (hx : target rt policy (resolverOf resolve reverse) request = Task.ofExcept (.ok t)) :
    policy.blocklist.isBlocked t.address = false :=
  TargetResolver.isBlocked_of_resolveAsync
    (hx ▸ Task.runs_ofExcept.mpr ⟨rfl, rfl⟩ : Task.Runs (target ..) [] (.ok t))

theorem reverseLookupAsync_eq {resolver : IHostResolver} {as bs : List (Option IPAddress)}
    (h : List.Forall₂ (SameAddress policy) as bs) :
    reverseLookupAsync policy settings resolver as =
      reverseLookupAsync policy settings resolver bs := by
  rw [reverseLookupAsync, reverseLookupAsync, publicAddresses_eq h]

theorem SameTrace.addresses {raw₁ raw₂ : List TraceHopRaw} (h : SameTrace policy raw₁ raw₂) :
    List.Forall₂ (SameAddress policy) (raw₁.map TraceHopRaw.address)
      (raw₂.map TraceHopRaw.address) :=
  List.forall₂_map_left_iff.mpr (List.forall₂_map_right_iff.mpr (h.imp fun _ _ => (·.address)))

theorem SameMtr.addresses {raw₁ raw₂ : MtrRaw} (h : SameMtr policy raw₁ raw₂) :
    List.Forall₂ (SameAddress policy) (raw₁.hops.map MtrHopRaw.address)
      (raw₂.hops.map MtrHopRaw.address) :=
  List.forall₂_map_left_iff.mpr (List.forall₂_map_right_iff.mpr (h.hops.imp fun _ _ => (·.address)))

/-- The work of a traceroute is the same program for both results. -/
theorem traceroute_eq (hredact : settings.redactPrivateHops = true) {mtr : MtrRaw}
    {raw₁ raw₂ : List TraceHopRaw} (hsame : SameTrace policy raw₁ raw₂) :
    traceroute rt policy settings (resolverOf resolve reverse) (probesOf ping raw₁ mtr) request
        requestId =
      traceroute rt policy settings (resolverOf resolve reverse) (probesOf ping raw₂ mtr) request
        requestId := by
  obtain ⟨x, hx⟩ := exists_target_eq rt policy resolve reverse request
  have hhops : ∀ names, raw₁.map (tracerouteHop rt policy settings names) =
      raw₂.map (tracerouteHop rt policy settings names) := fun names =>
    map_eq_of_forall₂ hsame fun _ _ h => tracerouteHop_eq hredact names h
  unfold traceroute
  refine congrArg _ (funext fun started => ?_)
  rw [hx]
  cases x with
  | error ex => rfl
  | ok t =>
    show reverseLookupAsync .. >>= _ = reverseLookupAsync .. >>= _
    rw [reverseLookupAsync_eq hsame.addresses, reached_eq (isBlocked_of_target_eq hx) hsame]
    simp only [hhops]

theorem mtr_eq (hredact : settings.redactPrivateHops = true) {trace : List TraceHopRaw}
    {raw₁ raw₂ : MtrRaw} (hsame : SameMtr policy raw₁ raw₂) :
    mtr rt policy settings (resolverOf resolve reverse) (probesOf ping trace raw₁) request
        requestId =
      mtr rt policy settings (resolverOf resolve reverse) (probesOf ping trace raw₂) request
        requestId := by
  have hhops : ∀ names, raw₁.hops.map (mtrHop rt policy settings names) =
      raw₂.hops.map (mtrHop rt policy settings names) := fun names =>
    map_eq_of_forall₂ hsame.hops fun _ _ h => mtrHop_eq hredact names h
  unfold mtr
  refine congrArg _ (funext fun started => congrArg _ (funext fun t => ?_))
  show reverseLookupAsync .. >>= _ = reverseLookupAsync .. >>= _
  rw [reverseLookupAsync_eq hsame.addresses, hsame.cycles]
  simp only [hhops]

/-- What a traceroute response shows of its raw result. -/
theorem traceroute_eq_ok (hx : target rt policy (resolverOf resolve reverse) request =
      Task.ofExcept x) {raw : List TraceHopRaw} {mtr : MtrRaw} {es : List (Event Work)}
    {response : TracerouteResponse}
    (h : Task.Runs (traceroute rt policy settings (resolverOf resolve reverse)
      (probesOf ping raw mtr) request requestId) es (.ok response)) :
    ∃ t, x = .ok t ∧ response.reachedDestination = reached t raw ∧
      response.hops = raw.map (tracerouteHop rt policy settings
        (namesOf policy settings reverse (raw.map TraceHopRaw.address))) ∧
      response.technicalOutput =
        TextRenderer.traceroute rt t response.hops settings.traceroute.maxHops := by
  obtain ⟨_, started, _, -, -, h₁⟩ := Task.runs_bind_ok.mp h
  obtain ⟨_, t, _, -, htarget, h₂⟩ := Task.runs_bind_ok.mp h₁
  obtain ⟨_, _, _, -, hraw, h₃⟩ := Task.runs_bind_ok.mp h₂
  obtain ⟨_, names, _, -, hnames, h₄⟩ := Task.runs_bind_ok.mp h₃
  obtain ⟨_, durationMs, _, -, -, h₅⟩ := Task.runs_bind_ok.mp h₄
  obtain rfl := Except.ok.inj (Task.runs_pure.mp hraw).2
  obtain rfl := Except.ok.inj (Task.runs_pure.mp h₅).2
  obtain rfl := reverseLookupAsync_eq_ok hnames
  exact ⟨t, (Task.runs_ofExcept.mp (hx ▸ htarget)).2.symm, rfl, rfl, rfl⟩

theorem mtr_eq_ok (hx : target rt policy (resolverOf resolve reverse) request = Task.ofExcept x)
    {trace : List TraceHopRaw} {raw : MtrRaw} {es : List (Event Work)} {response : MtrResponse}
    (h : Task.Runs (mtr rt policy settings (resolverOf resolve reverse) (probesOf ping trace raw)
      request requestId) es (.ok response)) :
    ∃ t, x = .ok t ∧ response.cycles = raw.cycles ∧
      response.hops = raw.hops.map (mtrHop rt policy settings
        (namesOf policy settings reverse (raw.hops.map MtrHopRaw.address))) ∧
      response.technicalOutput = TextRenderer.mtr rt t response.hops := by
  obtain ⟨_, started, _, -, -, h₁⟩ := Task.runs_bind_ok.mp h
  obtain ⟨_, t, _, -, htarget, h₂⟩ := Task.runs_bind_ok.mp h₁
  obtain ⟨_, _, _, -, hraw, h₃⟩ := Task.runs_bind_ok.mp h₂
  obtain ⟨_, names, _, -, hnames, h₄⟩ := Task.runs_bind_ok.mp h₃
  obtain ⟨_, durationMs, _, -, -, h₅⟩ := Task.runs_bind_ok.mp h₄
  obtain rfl := Except.ok.inj (Task.runs_pure.mp hraw).2
  obtain rfl := Except.ok.inj (Task.runs_pure.mp h₅).2
  obtain rfl := reverseLookupAsync_eq_ok hnames
  exact ⟨t, (Task.runs_ofExcept.mp (hx ▸ htarget)).2.symm, rfl, rfl, rfl⟩

/-- A response that the executor returns is the work's. -/
theorem runs_of_executeAsync {α : Type} {type : Str} {work : Task Work Exn α}
    {es : List (Event (Exec.sum Work))} {response : α}
    (h : Task.Runs (DiagnosticsExecutor.executeAsync settings type work) es (.ok response)) :
    Task.Runs work (DiagnosticsExecutor.workEvents es) (.ok response) := by
  rcases DiagnosticsExecutor.executeAsync_spec h with ⟨-, _, he⟩ | ⟨_, hwork, hx⟩
  · exact absurd he (by simp)
  · exact hx response rfl ▸ hwork

end Requests

/-- **Redaction is noninterference.** With redaction on, two raw results that differ only in which
blocked addresses they contain give the same program, so under the same circumstances the same
outcome; and whenever both requests return, whatever else happened to each, the responses show the
same hops and the same text. -/
theorem redaction (hredact : settings.redactPrivateHops = true) (rt : Runtime)
    (policy : DestinationPolicy) (resolve : Str → IpFamily → Except Exn (List IPAddress))
    (reverse : IPAddress → Except Exn (Option Str)) (ping : PingRaw)
    (request : Option DestinationRequest) (requestId : Str) :
    (∀ raw₁ raw₂ mtr, SameTrace policy raw₁ raw₂ →
      let run (raw : List TraceHopRaw) := tracerouteAsync rt policy settings
        (resolverOf resolve reverse) (probesOf ping raw mtr) request requestId
      run raw₁ = run raw₂ ∧ ∀ es₁ es₂ r₁ r₂, Task.Runs (run raw₁) es₁ (.ok r₁) →
        Task.Runs (run raw₂) es₂ (.ok r₂) → r₁.reachedDestination = r₂.reachedDestination ∧
          r₁.hops = r₂.hops ∧ r₁.technicalOutput = r₂.technicalOutput) ∧
    ∀ raw₁ raw₂ trace, SameMtr policy raw₁ raw₂ →
      let run (raw : MtrRaw) := mtrAsync rt policy settings
        (resolverOf resolve reverse) (probesOf ping trace raw) request requestId
      run raw₁ = run raw₂ ∧ ∀ es₁ es₂ r₁ r₂, Task.Runs (run raw₁) es₁ (.ok r₁) →
        Task.Runs (run raw₂) es₂ (.ok r₂) → r₁.cycles = r₂.cycles ∧ r₁.hops = r₂.hops ∧
          r₁.technicalOutput = r₂.technicalOutput := by
  obtain ⟨x, hx⟩ := exists_target_eq rt policy resolve reverse request
  constructor
  · intro raw₁ raw₂ mtr hsame run
    have heq : run raw₁ = run raw₂ := congrArg
      (DiagnosticsExecutor.executeAsync settings DiagnosticTypes.traceroute)
      (traceroute_eq hredact hsame)
    refine ⟨heq, fun es₁ es₂ r₁ r₂ h₁ h₂ => ?_⟩
    rw [heq] at h₁
    obtain ⟨t₁, rfl, hreached₁, hhops₁, htext₁⟩ := traceroute_eq_ok hx (runs_of_executeAsync h₁)
    obtain ⟨t₂, ht, hreached₂, hhops₂, htext₂⟩ := traceroute_eq_ok hx (runs_of_executeAsync h₂)
    obtain rfl := Except.ok.inj ht
    exact ⟨hreached₁.trans hreached₂.symm, hhops₁.trans hhops₂.symm,
      by rw [htext₁, htext₂, hhops₁, hhops₂]⟩
  · intro raw₁ raw₂ trace hsame run
    have heq : run raw₁ = run raw₂ := congrArg
      (DiagnosticsExecutor.executeAsync settings DiagnosticTypes.mtr) (mtr_eq hredact hsame)
    refine ⟨heq, fun es₁ es₂ r₁ r₂ h₁ h₂ => ?_⟩
    rw [heq] at h₁
    obtain ⟨t₁, rfl, hcycles₁, hhops₁, htext₁⟩ := mtr_eq_ok hx (runs_of_executeAsync h₁)
    obtain ⟨t₂, ht, hcycles₂, hhops₂, htext₂⟩ := mtr_eq_ok hx (runs_of_executeAsync h₂)
    obtain rfl := Except.ok.inj ht
    exact ⟨hcycles₁.trans hcycles₂.symm, hhops₁.trans hhops₂.symm,
      by rw [htext₁, htext₂, hhops₁, hhops₂]⟩

/-- An environment in which a slot is free and nothing is cancelled. -/
def idle : ∀ op, (Exec.sum Work).Ret op
  | .inl .tryEnter => .granted
  | .inl .awaitSlot => .granted
  | .inl .release => true
  | .inl .incrementWaiting => (1 : ℤ)
  | .inl .isCancellationRequested => false
  | .inl (.inc _ _) | .inl (.observeDuration _) | .inl .activeInc | .inl .activeDec
  | .inl (.enqueue _) | .inl .decrementWaiting | .inl (.cancelAfter _) | .inl .startWork => ()
  | .inr .getUtcNow => (0 : ℤ)
  | .inr .stopwatchElapsed => (0 : ℤ)
  | .inr .isCancellationRequested => false
  | .inr (.dnsQuery _ _) => Except.error Exn.other
  | .inr (.runProcess _ _ _) => Except.error Exn.other

theorem exists_ok_of_simulate {α : Type} {t : Task (Exec.sum Work) Exn α}
    (h : (t.run.simulate idle).2.isOk = true) : ∃ es a, Task.Runs t es (.ok a) := by
  have hrun := Prog.run_simulate idle t.run
  generalize t.run.simulate idle = result at h hrun
  obtain ⟨es, x⟩ := result
  cases x with
  | error ex => exact absurd h (by simp [Except.isOk, Except.toBool])
  | ok a => exact ⟨es, a, hrun⟩

/-- What traceroute finds behind a gateway. -/
def traceBehind (gateway : IPAddress) : List TraceHopRaw :=
  [⟨1, some gateway, [some 1]⟩, ⟨2, some (.v4 (Octets.four 8 8 8 8)), [some 2]⟩]

/-- A traceroute to `8.8.8.8`, by a visitor behind the gateway. -/
def tracerouteBehind (gateway : IPAddress) : Task (Exec.sum Work) Exn TracerouteResponse :=
  tracerouteAsync Runtime.reference (DestinationPolicy.new Runtime.reference none none) {}
    (resolverOf (fun _ _ => .ok []) fun _ => .ok none)
    (probesOf ⟨0, 0, 0, none, none, none, none, []⟩ (traceBehind gateway) ⟨0, []⟩)
    (some ⟨some "8.8.8.8", .auto⟩) []

/-- Behind `10.0.0.1` and behind `192.168.0.1` a visitor gets a response, and the same one. -/
theorem redaction_private_gateway :
    ∃ es₁ es₂ r₁ r₂,
      Task.Runs (tracerouteBehind (.v4 (Octets.four 10 0 0 1))) es₁ (.ok r₁) ∧
        Task.Runs (tracerouteBehind (.v4 (Octets.four 192 168 0 1))) es₂ (.ok r₂) ∧
          r₁.reachedDestination = r₂.reachedDestination ∧ r₁.hops = r₂.hops ∧
            r₁.technicalOutput = r₂.technicalOutput := by
  obtain ⟨es₁, r₁, h₁⟩ := exists_ok_of_simulate
    (t := tracerouteBehind (.v4 (Octets.four 10 0 0 1))) (by decide +kernel)
  obtain ⟨es₂, r₂, h₂⟩ := exists_ok_of_simulate
    (t := tracerouteBehind (.v4 (Octets.four 192 168 0 1))) (by decide +kernel)
  have hsame : SameTrace (DestinationPolicy.new Runtime.reference none none)
      (traceBehind (.v4 (Octets.four 10 0 0 1))) (traceBehind (.v4 (Octets.four 192 168 0 1))) :=
    .cons ⟨rfl, rfl, .inr ⟨_, _, rfl, rfl, by decide, by decide⟩⟩
      (.cons ⟨rfl, rfl, .inl rfl⟩ .nil)
  exact ⟨es₁, es₂, r₁, r₂, h₁, h₂,
    ((redaction rfl _ _ _ _ _ _ _).1 _ _ _ hsame).2 es₁ es₂ r₁ r₂ h₁ h₂⟩

end DiagnosticsService

end LookingGlass
