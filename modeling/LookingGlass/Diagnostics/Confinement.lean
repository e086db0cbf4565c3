import LookingGlass.Diagnostics.DiagnosticsService
import LookingGlass.Diagnostics.DnsLookupService

/-!
# What leaves the service

The calls of a request that reach the outside are DNS queries and processes. This module collects
what each part of a diagnostic sends and puts the parts together: `Confined` says of a whole
request that it starts at most one process, for an address that was checked, and that it discloses
nothing but the accepted hostname and the reverse names of addresses that are not blocked.

The service is wired as in production, with the real host resolver and the native probe runner;
what the DNS client and the tools answer is arbitrary, and so are the parsers.

## Parts of a request

Every diagnostic has the same order: the clock is read, the target is resolved, the tool runs, names
are looked up, and the response is built. `Parts` is a run that is cut in this way, and each of the
three cases (a refused input, a literal, a hostname) is about which parts there are. A change to one
diagnostic changes its own parts and nothing else.

## Which names are asked for

That every query is for the name of an address that is not blocked does not say that an address is
asked for once. Two queries for one name may belong to two addresses, as the name of an IPv6 address
leaves its scope out. So `NamesHops` says which addresses these are: those that the parser has read
from what the run's own tool has printed, without the blocked ones, each of them once.

## What is deliberately absent

Nothing is assumed of the answers. A resolver may answer with records of any type and name, and a
tool may print anything; the parsers are arbitrary functions here. What the processes do once they
run is outside of the model.

## Main results

* `DiagnosticsService.probes_confined` — one process, for one checked address
* `DiagnosticsService.queries_permitted` — every DNS query is one that may be sent
-/

namespace LookingGlass

open Utf16 Interaction

namespace DiagnosticsService

variable {rt : Runtime} {policy : DestinationPolicy} {settings : DiagnosticsOptions}
  {parsers : Parsers}

/-! ### Reverse lookups

A reverse lookup is one query. Those of a request are made for a list without duplicates and without
blocked addresses. -/

/-- The query for the name of an address. -/
def reverseQuery (address : IPAddress) : Str × Str :=
  (HostResolver.reverseName address, ofString "PTR")

theorem lookup_spec {address : IPAddress} {es : List (Event Work)}
    {r : Except Exn (IPAddress × Option Str)}
    (h : Task.Runs (lookup (hostResolver rt) address) es r) :
    processCalls es = [] ∧ dnsQueries es = [reverseQuery address] := by
  rcases Task.runs_tryCatch.mp h with ⟨_, hok, -⟩ | ⟨fst, ex, snd, rfl, hfail, hcatch⟩
  · obtain ⟨_, hrun, -⟩ := Task.runs_bind_pure.mp hok
    exact HostResolver.reverseAsync_spec hrun
  · obtain ⟨_, hrun, -⟩ := Task.runs_bind_pure.mp hfail
    have hfst : processCalls fst = [] ∧ dnsQueries fst = [reverseQuery address] :=
      HostResolver.reverseAsync_spec hrun
    have hsnd : processCalls snd = [] ∧ dnsQueries snd = [] := by
      cases ex with
      | operationCanceled =>
        rcases Task.runs_bind.mp hcatch with ⟨_, hreq, -⟩ | ⟨pre, _, post, rfl, hreq, hrest⟩
        · obtain ⟨hdns, hproc⟩ := Work.silent_of_runs_isCancellationRequested hreq
          exact ⟨hproc, by rw [dnsQueries, hdns]; rfl⟩
        · obtain ⟨hdns, hproc⟩ := Work.silent_of_runs_isCancellationRequested hreq
          have hpost : post = [] := by
            split at hrest
            · exact (Task.runs_pure.mp hrest).1
            · exact (Task.runs_throw.mp hrest).1
          rw [hpost, List.append_nil]
          exact ⟨hproc, by rw [dnsQueries, hdns]; rfl⟩
      | _ =>
        rw [(Task.runs_throw.mp hcatch).1]
        exact ⟨rfl, rfl⟩
    rw [processCalls_append, dnsQueries_append, hfst.1, hfst.2, hsnd.1, hsnd.2]
    exact ⟨rfl, rfl⟩

/-- A run that asks for nothing but the names of distinct addresses that are not blocked. -/
def ReverseOnly (policy : DestinationPolicy) (es : List (Event Work)) : Prop :=
  processCalls es = [] ∧ ∃ addresses : List IPAddress, addresses.Nodup ∧
    (∀ a ∈ addresses, policy.blocklist.isBlocked a = false) ∧
      dnsQueries es = addresses.map reverseQuery

theorem reverseOnly_of_silent {es : List (Event Work)} (h : Silent es) : ReverseOnly policy es :=
  ⟨h.2, [], List.nodup_nil, by simp, by rw [dnsQueries, h.1]; rfl⟩

theorem nodup_publicAddresses (policy : DestinationPolicy) (addresses : List (Option IPAddress)) :
    (publicAddresses policy addresses).Nodup :=
  (nodup_distinct _).filter _

theorem isBlocked_of_mem_publicAddresses {addresses : List (Option IPAddress)} {a : IPAddress}
    (h : a ∈ publicAddresses policy addresses) : policy.blocklist.isBlocked a = false := by
  simpa using (List.mem_filter.mp h).2

/-- A run that asks for the names of these addresses, once for each that is not blocked, or for no
names at all. -/
def AsksNames (policy : DestinationPolicy) (addresses : List (Option IPAddress))
    (es : List (Event Work)) : Prop :=
  processCalls es = [] ∧
    (dnsQueries es = [] ∨ dnsQueries es = (publicAddresses policy addresses).map reverseQuery)

/-- However many hops share an address, it is looked up once, and not at all if it is blocked. -/
theorem reverseLookupAsync_spec {addresses : List (Option IPAddress)} {es : List (Event Work)}
    {r : Except Exn (List (IPAddress × Str))}
    (h : Task.Runs (reverseLookupAsync policy settings (hostResolver rt) addresses) es r) :
    AsksNames policy addresses es := by
  unfold reverseLookupAsync at h
  split at h
  · rw [(Task.runs_pure.mp h).1]
    exact ⟨rfl, .inl rfl⟩
  obtain ⟨_, hrun, -⟩ := Task.runs_bind_pure.mp h
  obtain ⟨runs, hruns, rfl, -⟩ := runs_whenAll hrun
  obtain ⟨hproc, hqueries⟩ := Work.dnsQueries_of_forall₂ (fun _ _ _ => lookup_spec) hruns
  exact ⟨hproc, .inr (by rw [hqueries, List.map_eq_flatMap])⟩

theorem AsksNames.reverseOnly {addresses : List (Option IPAddress)} {es : List (Event Work)}
    (h : AsksNames policy addresses es) : ReverseOnly policy es := by
  obtain ⟨hproc, hnone | hqueries⟩ := h
  · exact ⟨hproc, [], List.nodup_nil, by simp, hnone⟩
  · exact ⟨hproc, publicAddresses policy addresses, nodup_publicAddresses _ _,
      fun a => isBlocked_of_mem_publicAddresses, hqueries⟩

/-! ### A whole diagnostic

The same statement for each of the three tools, which differ in their arguments and in what they do
at the end. -/

/-- What the visitor typed. -/
def input (request : Option DestinationRequest) : Option Str :=
  request.bind DestinationRequest.destination

/-- The requested family. -/
def family (request : Option DestinationRequest) : IpFamily :=
  request.elim .auto DestinationRequest.family

/-- What a diagnostic may send: processes for `tool` with the `arguments` of a family and the text
of an address, and queries for the hostname and for the names of addresses. -/
structure Confined (rt : Runtime) (policy : DestinationPolicy) (settings : DiagnosticsOptions)
    (request : Option DestinationRequest) (tool : Str) (arguments : AddressFamily → List Str)
    (es : List (Event Work)) : Prop where
  /-- A process runs at most once. -/
  process_once : (processCalls es).length ≤ 1
  /-- It runs for an address that is not blocked: the literal, or one of the answers. -/
  checked : ∀ call ∈ processCalls es, ∃ address,
    call = ⟨tool, arguments address.addressFamily ++ [rt.addressToString address],
      settings.maxOutputBytes⟩ ∧
    policy.blocklist.isBlocked address = false ∧
    ((∃ text, policy.parse rt (input request) false = .ok (.ipAddress address text)) ∨
      ∃ name, policy.parse rt (input request) false = .ok (.hostname name) ∧
        HostResolver.Answered rt (dnsCalls es) address)
  /-- It does not run if any answer is blocked. -/
  answers_free : ∀ a, HostResolver.Answered rt (dnsCalls es) a →
    policy.blocklist.isBlocked a = true → processCalls es = []
  /-- Nothing is sent for an input that is refused. -/
  refused : ∀ error, policy.parse rt (input request) false = .error error →
    dnsCalls es = [] ∧ processCalls es = []
  /-- The hostname is looked up once, then come the names of the hops. -/
  queries : ∃ (forward : List (Str × Str)) (reverse : List IPAddress),
    dnsQueries es = forward ++ reverse.map reverseQuery ∧
    (forward = [] ∨ ∃ name, policy.parse rt (input request) false = .ok (.hostname name) ∧
      forward = (HostResolver.queryTypes (family request)).map (name, ·)) ∧
    reverse.Nodup ∧ ∀ a ∈ reverse, policy.blocklist.isBlocked a = false

/-- The answers to reverse lookups are not addresses the request goes by. -/
theorem answered_append_reverseOnly {calls : List DnsCall} {es : List (Event Work)}
    (h : ReverseOnly policy es) {a : IPAddress} :
    HostResolver.Answered rt (calls ++ dnsCalls es) a ↔ HostResolver.Answered rt calls a := by
  obtain ⟨-, addresses, -, -, hqueries⟩ := h
  constructor
  · rintro ⟨call, hcall, htype, hrest⟩
    rcases List.mem_append.mp hcall with hcall | hcall
    · exact ⟨call, hcall, htype, hrest⟩
    · have hmem : call.query ∈ dnsQueries es := List.mem_map_of_mem hcall
      rw [hqueries, List.mem_map] at hmem
      obtain ⟨b, -, hb⟩ := hmem
      have hptr : call.recordType = ofString "PTR" := (congrArg Prod.snd hb).symm
      rw [hptr] at htype
      exact absurd htype (by decide)
  · rintro ⟨call, hcall, hrest⟩
    exact ⟨call, List.mem_append_left _ hcall, hrest⟩

/-- Resolving a target starts no process. -/
theorem processCalls_of_runs_target {request : Option DestinationRequest} {es : List (Event Work)}
    {r : Except Exn ResolvedTarget}
    (h : Task.Runs (target rt policy (hostResolver rt) request) es r) :
    processCalls es = [] := by
  rcases TargetResolver.resolveAsync_cases h with ⟨_, -, rfl, -⟩ | ⟨_, _, -, rfl, -⟩ |
    ⟨_, _, -, hlookup, -⟩
  · rfl
  · rfl
  · exact (HostResolver.resolveAsync_spec hlookup).1

/-- The parts of a diagnostic: its target is resolved in `es₁`, with outcome `r`, its tool runs for
that target if there is one, and the rest, `es₃`, only asks for names. -/
structure Parts (rt : Runtime) (policy : DestinationPolicy) (settings : DiagnosticsOptions)
    (request : Option DestinationRequest) (tool : Str) (arguments : AddressFamily → List Str)
    (r : Except Exn ResolvedTarget) (es es₁ es₃ : List (Event Work)) : Prop where
  dnsCalls_eq : dnsCalls es = dnsCalls es₁ ++ dnsCalls es₃
  process_once : (processCalls es).length ≤ 1
  process : ∀ call ∈ processCalls es, ∃ t, r = .ok t ∧
    call = ⟨tool, arguments t.address.addressFamily ++ [rt.addressToString t.address],
      settings.maxOutputBytes⟩
  resolved : Task.Runs (target rt policy (hostResolver rt) request) es₁ r
  names : ReverseOnly policy es₃
  names_of_error : ∀ ex, r = .error ex → dnsCalls es₃ = []

namespace Parts

variable {request : Option DestinationRequest} {tool : Str} {arguments : AddressFamily → List Str}
  {r : Except Exn ResolvedTarget} {es es₁ es₃ : List (Event Work)}

theorem answered_iff (h : Parts rt policy settings request tool arguments r es es₁ es₃)
    (a : IPAddress) :
    HostResolver.Answered rt (dnsCalls es) a ↔ HostResolver.Answered rt (dnsCalls es₁) a := by
  rw [h.dnsCalls_eq, answered_append_reverseOnly h.names]

theorem dnsQueries_eq (h : Parts rt policy settings request tool arguments r es es₁ es₃) :
    dnsQueries es = dnsQueries es₁ ++ dnsQueries es₃ := by
  rw [dnsQueries, h.dnsCalls_eq, List.map_append, dnsQueries, dnsQueries]

/-- The tool runs for the target, which is not blocked. -/
theorem started (h : Parts rt policy settings request tool arguments r es es₁ es₃) :
    ∀ call ∈ processCalls es, ∃ t, r = .ok t ∧
      call = ⟨tool, arguments t.address.addressFamily ++ [rt.addressToString t.address],
        settings.maxOutputBytes⟩ ∧ policy.blocklist.isBlocked t.address = false := by
  intro call hcall
  obtain ⟨t, rfl, hcall⟩ := h.process call hcall
  exact ⟨t, rfl, hcall, TargetResolver.isBlocked_of_resolveAsync h.resolved⟩

theorem processCalls_eq_nil (h : Parts rt policy settings request tool arguments r es es₁ es₃)
    (hr : ∀ t, r ≠ .ok t) : processCalls es = [] := by
  rw [List.eq_nil_iff_forall_not_mem]
  intro call hcall
  obtain ⟨t, ht, -⟩ := h.process call hcall
  exact hr t ht

/-- Refused: nothing is resolved, and nothing runs. -/
theorem confined_of_refused {ex : Exn}
    (h : Parts rt policy settings request tool arguments (.error ex) es [] es₃) :
    Confined rt policy settings request tool arguments es := by
  have hdns : dnsCalls es = [] := by
    rw [h.dnsCalls_eq, h.names_of_error ex rfl]
    rfl
  have hproc : processCalls es = [] := h.processCalls_eq_nil (by simp)
  exact {
    process_once := h.process_once
    checked := by simp [hproc]
    answers_free := fun _ _ _ => hproc
    refused := fun _ _ => ⟨hdns, hproc⟩
    queries := ⟨[], [], by rw [dnsQueries, hdns]; rfl, .inl rfl, List.nodup_nil, by simp⟩ }

/-- A literal: it is not looked up, and it is itself the target. -/
theorem confined_of_literal {address : IPAddress} {text : Str}
    (h : Parts rt policy settings request tool arguments r es [] es₃)
    (hparse : policy.parse rt (input request) false = .ok (.ipAddress address text))
    (htarget : ∀ t, r = .ok t → t.address = address) :
    Confined rt policy settings request tool arguments es := by
  obtain ⟨-, reverse, hnodup, hfree, hreverse⟩ := h.names
  exact {
    process_once := h.process_once
    checked := by
      intro call hcall
      obtain ⟨t, ht, hcall, hblocked⟩ := h.started call hcall
      refine ⟨t.address, hcall, hblocked, .inl ⟨text, ?_⟩⟩
      rw [htarget t ht]
      exact hparse
    answers_free := by
      intro a ha _
      obtain ⟨_, hmem, -⟩ := (h.answered_iff a).mp ha
      exact absurd hmem List.not_mem_nil
    refused := fun error he => absurd (hparse.symm.trans he) (by simp)
    queries := ⟨[], reverse, by rw [h.dnsQueries_eq, hreverse]; rfl, .inl rfl, hnodup, hfree⟩ }

/-- A hostname: it is looked up once, and the answer has no blocked address if there is a
target. -/
theorem confined_of_hostname {name : Str} {lookup : Except Exn (List IPAddress)}
    (h : Parts rt policy settings request tool arguments r es es₁ es₃)
    (hparse : policy.parse rt (input request) false = .ok (.hostname name))
    (hlookup : Task.Runs (HostResolver.resolveAsync rt name (family request)) es₁ lookup)
    (htarget : ∀ t, r = .ok t → ∃ addresses, lookup = .ok addresses ∧ t.address ∈ addresses ∧
      ∀ a ∈ addresses, policy.blocklist.isBlocked a = false) :
    Confined rt policy settings request tool arguments es := by
  obtain ⟨-, reverse, hnodup, hfree, hreverse⟩ := h.names
  obtain ⟨-, hforward, hanswers⟩ := HostResolver.resolveAsync_spec hlookup
  exact {
    process_once := h.process_once
    checked := by
      intro call hcall
      obtain ⟨t, ht, hcall, hblocked⟩ := h.started call hcall
      obtain ⟨addresses, hok, hmem, -⟩ := htarget t ht
      refine ⟨t.address, hcall, hblocked, .inr ⟨name, hparse, ?_⟩⟩
      exact (h.answered_iff _).mpr ((hanswers addresses hok _).mp hmem)
    answers_free := by
      intro a ha hblocked
      refine h.processCalls_eq_nil fun t ht => ?_
      obtain ⟨addresses, hok, -, hall⟩ := htarget t ht
      have hmem := (hanswers addresses hok a).mpr ((h.answered_iff a).mp ha)
      rw [hall a hmem] at hblocked
      exact absurd hblocked (by simp)
    refused := fun error he => absurd (hparse.symm.trans he) (by simp)
    queries := ⟨_, reverse, by rw [h.dnsQueries_eq, hreverse], .inr ⟨name, hparse, hforward⟩,
      hnodup, hfree⟩ }

/-- A diagnostic of such parts is confined, whatever the resolution of its target does. -/
theorem confined (h : Parts rt policy settings request tool arguments r es es₁ es₃) :
    Confined rt policy settings request tool arguments es := by
  rcases TargetResolver.resolveAsync_cases h.resolved with ⟨error, hparse, rfl, rfl⟩ |
    ⟨address, text, hparse, rfl, htarget⟩ | ⟨name, lookup, hparse, hlookup, htarget⟩
  · exact h.confined_of_refused
  · refine h.confined_of_literal hparse fun t ht => ?_
    rw [htarget t ht]
  · refine h.confined_of_hostname hparse hlookup fun t ht => ?_
    obtain ⟨addresses, hok, hmem, hall, -⟩ := htarget t ht
    exact ⟨addresses, hok, hmem, hall⟩

end Parts

/-- A run that sends nothing is confined. -/
theorem confined_of_silent {request : Option DestinationRequest} {tool : Str}
    {arguments : AddressFamily → List Str} {es : List (Event Work)} (h : Silent es) :
    Confined rt policy settings request tool arguments es where
  process_once := by simp [h.2]
  checked := by simp [h.2]
  answers_free _ _ _ := h.2
  refused _ _ := h
  queries := ⟨[], [], by rw [dnsQueries, h.1]; rfl, .inl rfl, List.nodup_nil, by simp⟩

theorem silent_of_runs_elapsedMs {started : DateTimeOffset} {es : List (Event Work)}
    {r : Except Exn ℤ} (h : Task.Runs (elapsedMs started) es r) : Silent es := by
  obtain ⟨_, hnow, -⟩ := Task.runs_bind_pure.mp h
  exact Work.silent_of_runs_getUtcNow hnow

/-- Building the response after the last lookup takes no more than the time. -/
theorem silent_of_runs_response {started : DateTimeOffset} {β : Type} {response : ℤ → β}
    {es : List (Event Work)} {r : Except Exn β}
    (h : Task.Runs (elapsedMs started >>= fun durationMs => pure (response durationMs)) es r) :
    Silent es := by
  obtain ⟨_, helapsed, -⟩ := Task.runs_bind_pure.mp h
  exact silent_of_runs_elapsedMs helapsed

/-- Looking up the hops and building the response only asks for the names of the hops. -/
theorem asksNames_of_runs_response {addresses : List (Option IPAddress)}
    {started : DateTimeOffset} {β : Type} {response : List (IPAddress × Str) → ℤ → β}
    {es : List (Event Work)} {r : Except Exn β}
    (h : Task.Runs (reverseLookupAsync policy settings (hostResolver rt) addresses >>= fun names =>
      elapsedMs started >>= fun durationMs => pure (response names durationMs)) es r) :
    AsksNames policy addresses es := by
  rcases Task.runs_bind.mp h with ⟨_, hnames, -⟩ | ⟨fst, _, snd, rfl, hnames, hrest⟩
  · exact reverseLookupAsync_spec hnames
  · obtain ⟨hdns, hproc⟩ := silent_of_runs_response hrest
    obtain ⟨hproc', hqueries⟩ := reverseLookupAsync_spec hnames
    refine ⟨by rw [processCalls_append, hproc, hproc']; rfl, ?_⟩
    rw [dnsQueries_append, dnsQueries, dnsQueries, hdns, List.map_nil, List.append_nil]
    exact hqueries

/-- The order of a diagnostic: read the clock, resolve the target, run the probe, look up names. -/
theorem confined_of_runs {ρ β : Type} {request : Option DestinationRequest} {tool : Str}
    {arguments : AddressFamily → List Str} {probe : IPAddress → Task Work Exn ρ}
    {finish : DateTimeOffset → ResolvedTarget → ρ → Task Work Exn β}
    (hprobe : ∀ address es r, Task.Runs (probe address) es r →
      NativeProbeRunner.RunsTool policy settings tool
        (arguments address.addressFamily ++ [rt.addressToString address]) address es)
    (hfinish : ∀ started target raw es r, Task.Runs (finish started target raw) es r →
      ReverseOnly policy es)
    {es : List (Event Work)} {r : Except Exn β}
    (h : Task.Runs (Work.getUtcNow >>= fun started =>
      target rt policy (hostResolver rt) request >>= fun target =>
        probe target.address >>= finish started target) es r) :
    Confined rt policy settings request tool arguments es := by
  have hnil : ReverseOnly policy [] := reverseOnly_of_silent ⟨rfl, rfl⟩
  rcases Task.runs_bind.mp h with ⟨_, hnow, -⟩ | ⟨es₀, started, rest, rfl, hnow, h⟩
  · exact confined_of_silent (Work.silent_of_runs_getUtcNow hnow)
  obtain ⟨hdns₀, hproc₀⟩ := Work.silent_of_runs_getUtcNow hnow
  rcases Task.runs_bind.mp h with ⟨ex, htarget, -⟩ | ⟨es₁, t, _, rfl, htarget, h⟩
  · have hproc : processCalls (es₀ ++ rest) = [] := by
      rw [processCalls_append, hproc₀, processCalls_of_runs_target htarget]
      rfl
    exact Parts.confined ⟨by simp [hdns₀], by simp [hproc], by simp [hproc], htarget, hnil,
      fun _ _ => rfl⟩
  have hproc₁ := processCalls_of_runs_target htarget
  have hprocess : ∀ {es₂ raw}, Task.Runs (probe t.address) es₂ raw →
      (processCalls es₂).length ≤ 1 ∧
        ∀ call ∈ processCalls es₂, ∃ t', Except.ok (ε := Exn) t = .ok t' ∧
          call = ⟨tool, arguments t'.address.addressFamily ++ [rt.addressToString t'.address],
            settings.maxOutputBytes⟩ := by
    intro es₂ raw hrun
    obtain ⟨-, hnone | ⟨hone, -⟩⟩ := hprobe _ _ _ hrun
    · simp [hnone]
    · simp [hone]
  rcases Task.runs_bind.mp h with ⟨_, hrun, -⟩ | ⟨es₂, raw, es₃, rfl, hrun, hrest⟩
  · obtain ⟨honce, hcall⟩ := hprocess hrun
    have hdns := (hprobe _ _ _ hrun).1
    refine Parts.confined ⟨?_, ?_, ?_, htarget, hnil, fun _ he => absurd he (by simp)⟩
    · simp [hdns₀, hdns]
    · simpa [hproc₀, hproc₁] using honce
    · simpa [hproc₀, hproc₁] using hcall
  · obtain ⟨honce, hcall⟩ := hprocess hrun
    have hdns := (hprobe _ _ _ hrun).1
    have hnames := hfinish _ _ _ _ _ hrest
    refine Parts.confined ⟨?_, ?_, ?_, htarget, hnames, fun _ he => absurd he (by simp)⟩
    · simp [hdns₀, hdns]
    · simpa [hproc₀, hproc₁, hnames.1] using honce
    · simpa [hproc₀, hproc₁, hnames.1] using hcall

section Requests

variable {request : Option DestinationRequest} {requestId : Str} {es : List (Event (Exec.sum Work))}

theorem pingAsync_confined {r : Except Exn PingResponse}
    (h : Task.Runs (pingAsync rt policy settings (hostResolver rt)
      (nativeProbeRunner rt policy settings parsers) request requestId) es r) :
    Confined rt policy settings request settings.tools.ping
      (NativeProbeRunner.pingArguments settings) (DiagnosticsExecutor.workEvents es) := by
  rcases DiagnosticsExecutor.executeAsync_spec h with ⟨hnil, -⟩ | ⟨x, hwork, -⟩
  · exact hnil ▸ confined_of_silent ⟨rfl, rfl⟩
  · exact confined_of_runs (fun _ _ _ => NativeProbeRunner.pingAsync_spec)
      (fun _ _ _ _ _ hrest => reverseOnly_of_silent (silent_of_runs_response hrest)) hwork

theorem tracerouteAsync_confined {r : Except Exn TracerouteResponse}
    (h : Task.Runs (tracerouteAsync rt policy settings (hostResolver rt)
      (nativeProbeRunner rt policy settings parsers) request requestId) es r) :
    Confined rt policy settings request settings.tools.traceroute
      (NativeProbeRunner.tracerouteArguments settings) (DiagnosticsExecutor.workEvents es) := by
  rcases DiagnosticsExecutor.executeAsync_spec h with ⟨hnil, -⟩ | ⟨x, hwork, -⟩
  · exact hnil ▸ confined_of_silent ⟨rfl, rfl⟩
  · exact confined_of_runs (fun _ _ _ => NativeProbeRunner.tracerouteAsync_spec)
      (fun _ _ _ _ _ hrest => (asksNames_of_runs_response hrest).reverseOnly) hwork

theorem mtrAsync_confined {r : Except Exn MtrResponse}
    (h : Task.Runs (mtrAsync rt policy settings (hostResolver rt)
      (nativeProbeRunner rt policy settings parsers) request requestId) es r) :
    Confined rt policy settings request settings.tools.mtr
      (NativeProbeRunner.mtrArguments settings) (DiagnosticsExecutor.workEvents es) := by
  rcases DiagnosticsExecutor.executeAsync_spec h with ⟨hnil, -⟩ | ⟨x, hwork, -⟩
  · exact hnil ▸ confined_of_silent ⟨rfl, rfl⟩
  · exact confined_of_runs (fun _ _ _ => NativeProbeRunner.mtrAsync_spec)
      (fun _ _ _ _ _ hrest => (asksNames_of_runs_response hrest).reverseOnly) hwork

end Requests

/-- **A probe request is confined.** Whatever the DNS answers and the tools print, `ping`,
`traceroute` and `mtr` start at most one process, for one address that was checked; every argument
but the last depends on the settings and the address family alone, and the last one is the text of
the address. -/
theorem probes_confined (rt : Runtime) (policy : DestinationPolicy) (settings : DiagnosticsOptions)
    (parsers : Parsers) (request : Option DestinationRequest) (requestId : Str) :
    (∀ es r, Task.Runs (pingAsync rt policy settings (hostResolver rt)
        (nativeProbeRunner rt policy settings parsers) request requestId) es r →
      Confined rt policy settings request settings.tools.ping
        (NativeProbeRunner.pingArguments settings) (DiagnosticsExecutor.workEvents es)) ∧
    (∀ es r, Task.Runs (tracerouteAsync rt policy settings (hostResolver rt)
        (nativeProbeRunner rt policy settings parsers) request requestId) es r →
      Confined rt policy settings request settings.tools.traceroute
        (NativeProbeRunner.tracerouteArguments settings) (DiagnosticsExecutor.workEvents es)) ∧
    ∀ es r, Task.Runs (mtrAsync rt policy settings (hostResolver rt)
        (nativeProbeRunner rt policy settings parsers) request requestId) es r →
      Confined rt policy settings request settings.tools.mtr
        (NativeProbeRunner.mtrArguments settings) (DiagnosticsExecutor.workEvents es) :=
  ⟨fun _ _ h => pingAsync_confined h, fun _ _ h => tracerouteAsync_confined h,
    fun _ _ h => mtrAsync_confined h⟩

/-! ### The queries of a request

All four endpoints, and for those that show a route also which addresses their names are asked for.
-/

/-- A query that may be sent to the public resolvers: a hostname the policy accepts, with one of the
record types for names, or the reverse name of an address that is not blocked. There is no third
kind. -/
def Permitted (rt : Runtime) (policy : DestinationPolicy) (query : Str × Str) : Prop :=
  (query.2 ∈ [ofString "A", ofString "AAAA", ofString "CNAME", ofString "MX", ofString "NS",
      ofString "TXT", ofString "SOA"] ∧
    ∃ allowUnderscore, policy.parse rt (some query.1) allowUnderscore = .ok (.hostname query.1)) ∨
  ∃ address, policy.blocklist.isBlocked address = false ∧ query = reverseQuery address

theorem Confined.permitted {request : Option DestinationRequest} {tool : Str}
    {arguments : AddressFamily → List Str} {es : List (Event Work)}
    (h : Confined rt policy settings request tool arguments es) :
    ∀ query ∈ dnsQueries es, Permitted rt policy query := by
  obtain ⟨forward, reverse, hqueries, hforward, -, hfree⟩ := h.queries
  intro query hquery
  rcases List.mem_append.mp (hqueries ▸ hquery) with hquery | hquery
  · rcases hforward with rfl | ⟨name, hparse, rfl⟩
    · exact absurd hquery List.not_mem_nil
    · obtain ⟨recordType, hrecord, rfl⟩ := List.mem_map.mp hquery
      have haddress : ∀ t ∈ [ofString "A", ofString "AAAA"],
          t ∈ [ofString "A", ofString "AAAA", ofString "CNAME", ofString "MX", ofString "NS",
            ofString "TXT", ofString "SOA"] := by decide
      refine .inl ⟨haddress _ ?_, false, DestinationPolicy.parse_hostname_self hparse⟩
      simpa using HostResolver.mem_queryTypes hrecord
  · obtain ⟨address, haddress, rfl⟩ := List.mem_map.mp hquery
    exact .inr ⟨address, hfree address haddress, rfl⟩

/-- The queries for names of addresses. -/
def reverseQueries (es : List (Event Work)) : List (Str × Str) :=
  (dnsQueries es).filter fun query => query.2 == ofString "PTR"

theorem reverseQueries_append (fst snd : List (Event Work)) :
    reverseQueries (fst ++ snd) = reverseQueries fst ++ reverseQueries snd := by
  rw [reverseQueries, dnsQueries_append, List.filter_append, reverseQueries, reverseQueries]

theorem reverseQueries_of_dnsCalls {es : List (Event Work)} (h : dnsCalls es = []) :
    reverseQueries es = [] := by
  rw [reverseQueries, dnsQueries, h]
  rfl

/-- Resolving a target asks for no name of an address. -/
theorem reverseQueries_of_runs_target {request : Option DestinationRequest}
    {es : List (Event Work)} {r : Except Exn ResolvedTarget}
    (h : Task.Runs (target rt policy (hostResolver rt) request) es r) : reverseQueries es = [] := by
  rcases TargetResolver.resolveAsync_cases h with ⟨_, -, rfl, -⟩ | ⟨_, _, -, rfl, -⟩ |
    ⟨name, _, -, hlookup, -⟩
  · rfl
  · rfl
  · rw [reverseQueries, (HostResolver.resolveAsync_spec hlookup).2.1, List.filter_eq_nil_iff]
    intro query hquery
    obtain ⟨recordType, hrecord, rfl⟩ := List.mem_map.mp hquery
    rcases HostResolver.mem_queryTypes hrecord with rfl | rfl <;> exact Bool.false_ne_true

theorem AsksNames.reverseQueries {addresses : List (Option IPAddress)} {es : List (Event Work)}
    (h : AsksNames policy addresses es) :
    reverseQueries es = [] ∨
      reverseQueries es = (publicAddresses policy addresses).map reverseQuery := by
  rw [DiagnosticsService.reverseQueries]
  rcases h.2 with hnone | hqueries
  · exact .inl (by rw [hnone]; rfl)
  · refine .inr ?_
    rw [hqueries, List.filter_eq_self]
    intro query hquery
    obtain ⟨address, -, rfl⟩ := List.mem_map.mp hquery
    rfl

/-- The names that a request asks for: none, or those of the hops that its own tool has printed, as
the parser reads them; each address that is not blocked once, however many hops share it. -/
def NamesHops (policy : DestinationPolicy) (hops : Str → Except Exn (List (Option IPAddress)))
    (es : List (Event Work)) : Prop :=
  reverseQueries es = [] ∨
    ∃ fileName arguments maxOutputBytes result addresses,
      ⟨.runProcess fileName arguments maxOutputBytes, .ok result⟩ ∈ es ∧
        hops result.stdOut = .ok addresses ∧ (publicAddresses policy addresses).Nodup ∧
          reverseQueries es = (publicAddresses policy addresses).map reverseQuery

/-- What a probe that looks at the route returns is what the parser reads of what the tool has
printed. -/
def Returns {ρ : Type} (hops : Str → Except Exn (List (Option IPAddress)))
    (addresses : ρ → List (Option IPAddress)) (probe : IPAddress → Task Work Exn ρ) : Prop :=
  ∀ address es raw, Task.Runs (probe address) es (.ok raw) →
    ∃ fileName arguments maxOutputBytes result,
      ⟨.runProcess fileName arguments maxOutputBytes, .ok result⟩ ∈ es ∧
        hops result.stdOut = .ok (addresses raw)

/-- The hops that a parser reads. -/
def hopsOf {ρ : Type} (parse : Str → Except Exn ρ) (addresses : ρ → List (Option IPAddress))
    (stdOut : Str) : Except Exn (List (Option IPAddress)) :=
  (parse stdOut).map addresses

theorem returns_tracerouteAsync :
    Returns (hopsOf parsers.traceroute (List.map TraceHopRaw.address))
      (List.map TraceHopRaw.address)
      (NativeProbeRunner.tracerouteAsync rt policy settings parsers) := by
  intro address es raw h
  obtain ⟨fst, result, snd, rfl, hrun, hrest⟩ := Task.runs_bind_ok.mp h
  have hran := NativeProbeRunner.runProcess_mem_of_runs hrun
  refine ⟨_, _, _, result, List.mem_append_left _ hran, ?_⟩
  rcases Task.runs_ofExcept_bind.mp hrest with ⟨_, -, -, hfail⟩ | ⟨hops, hparse, hrest⟩
  · exact absurd hfail (by simp)
  split at hrest
  · exact absurd (Task.runs_throw.mp hrest).2 (by simp)
  · obtain rfl := Except.ok.inj (Task.runs_pure.mp hrest).2
    rw [hopsOf, hparse]
    rfl

theorem returns_mtrAsync :
    Returns (hopsOf parsers.mtr fun raw => raw.hops.map MtrHopRaw.address)
      (fun raw => raw.hops.map MtrHopRaw.address)
      (NativeProbeRunner.mtrAsync rt policy settings parsers) := by
  intro address es raw h
  obtain ⟨fst, result, snd, rfl, hrun, hrest⟩ := Task.runs_bind_ok.mp h
  have hran := NativeProbeRunner.runProcess_mem_of_runs hrun
  refine ⟨_, _, _, result, List.mem_append_left _ hran, ?_⟩
  split at hrest
  · exact absurd (Task.runs_throw.mp hrest).2 (by simp)
  · rw [hopsOf, ← (Task.runs_ofExcept.mp hrest).2]
    rfl

/-- The names that a diagnostic asks for it asks for at its end, when its probe has returned. -/
theorem reverseQueries_cases {ρ β : Type} {request : Option DestinationRequest}
    {probe : IPAddress → Task Work Exn ρ}
    {finish : DateTimeOffset → ResolvedTarget → ρ → Task Work Exn β}
    (hprobe : ∀ address es r, Task.Runs (probe address) es r → dnsCalls es = [])
    {es : List (Event Work)} {r : Except Exn β}
    (h : Task.Runs (Work.getUtcNow >>= fun started =>
      target rt policy (hostResolver rt) request >>= fun target =>
        probe target.address >>= finish started target) es r) :
    reverseQueries es = [] ∨ ∃ started t raw probed rest, probed ⊆ es ∧
      Task.Runs (probe t.address) probed (.ok raw) ∧ Task.Runs (finish started t raw) rest r ∧
        reverseQueries es = reverseQueries rest := by
  rcases Task.runs_bind.mp h with ⟨_, hnow, -⟩ | ⟨es₀, started, rest, rfl, hnow, h⟩
  · exact .inl (reverseQueries_of_dnsCalls (Work.silent_of_runs_getUtcNow hnow).1)
  have hnow := reverseQueries_of_dnsCalls (Work.silent_of_runs_getUtcNow hnow).1
  rw [reverseQueries_append, hnow, List.nil_append]
  rcases Task.runs_bind.mp h with ⟨_, htarget, -⟩ | ⟨es₁, t, _, rfl, htarget, h⟩
  · exact .inl (reverseQueries_of_runs_target htarget)
  rw [reverseQueries_append, reverseQueries_of_runs_target htarget, List.nil_append]
  rcases Task.runs_bind.mp h with ⟨_, hrun, -⟩ | ⟨es₂, raw, es₃, rfl, hrun, hrest⟩
  · exact .inl (reverseQueries_of_dnsCalls (hprobe _ _ _ hrun))
  rw [reverseQueries_append, reverseQueries_of_dnsCalls (hprobe _ _ _ hrun), List.nil_append]
  exact .inr ⟨started, t, raw, es₂, es₃, fun e he => by simp [he], hrun, hrest, rfl⟩

/-- A diagnostic that sends nothing at its end asks for no names. -/
theorem reverseQueries_of_runs {ρ β : Type} {request : Option DestinationRequest}
    {probe : IPAddress → Task Work Exn ρ}
    {finish : DateTimeOffset → ResolvedTarget → ρ → Task Work Exn β}
    {es : List (Event Work)} {r : Except Exn β}
    (h : Task.Runs (Work.getUtcNow >>= fun started =>
      target rt policy (hostResolver rt) request >>= fun target =>
        probe target.address >>= finish started target) es r)
    (hprobe : ∀ address es r, Task.Runs (probe address) es r → dnsCalls es = [])
    (hfinish : ∀ started target raw es r, Task.Runs (finish started target raw) es r →
      Silent es) : reverseQueries es = [] := by
  rcases reverseQueries_cases hprobe h with hnone | ⟨_, _, _, _, rest, -, -, hrest, hqueries⟩
  · exact hnone
  · rw [hqueries]
    exact reverseQueries_of_dnsCalls (hfinish _ _ _ _ _ hrest).1

/-- A diagnostic that asks for names of hops asks for those that its probe has returned. -/
theorem namesHops_of_runs {ρ β : Type} {request : Option DestinationRequest}
    {hops : Str → Except Exn (List (Option IPAddress))} {addresses : ρ → List (Option IPAddress)}
    {probe : IPAddress → Task Work Exn ρ}
    {finish : DateTimeOffset → ResolvedTarget → ρ → Task Work Exn β}
    {es : List (Event Work)} {r : Except Exn β}
    (h : Task.Runs (Work.getUtcNow >>= fun started =>
      target rt policy (hostResolver rt) request >>= fun target =>
        probe target.address >>= finish started target) es r)
    (hreturns : Returns hops addresses probe)
    (hprobe : ∀ address es r, Task.Runs (probe address) es r → dnsCalls es = [])
    (hfinish : ∀ started target raw es r, Task.Runs (finish started target raw) es r →
      AsksNames policy (addresses raw) es) : NamesHops policy hops es := by
  rcases reverseQueries_cases hprobe h with hnone |
    ⟨started, t, raw, probed, rest, hsubset, hrun, hrest, hqueries⟩
  · exact .inl hnone
  rw [NamesHops, hqueries]
  refine (hfinish _ _ _ _ _ hrest).reverseQueries.imp_right fun hnames => ?_
  obtain ⟨fileName, arguments, maxOutputBytes, result, hran, hread⟩ := hreturns _ _ _ hrun
  exact ⟨fileName, arguments, maxOutputBytes, result, _, hsubset hran, hread,
    nodup_publicAddresses _ _, hnames⟩

/-- A record lookup sends one query at most, for what the policy let through. -/
theorem permitted_of_runs_lookup {request : Option DnsLookupRequest} {requestId : Str}
    {es : List (Event Work)} {r : Except Exn DnsResponse}
    (h : Task.Runs (DnsLookupService.lookup rt policy request requestId) es r) :
    (∀ query ∈ dnsQueries es, Permitted rt policy query) ∧ (dnsQueries es).length ≤ 1 := by
  rcases DnsLookupService.lookup_spec h with hnone | ⟨recordType, hsupported, queryName, _, _, hone,
    hname⟩
  · rw [dnsQueries, hnone]
    exact ⟨by simp, Nat.zero_le _⟩
  rw [dnsQueries, hone]
  refine ⟨fun query hquery => ?_, le_rfl⟩
  obtain rfl := List.mem_singleton.mp hquery
  rcases DnsLookupService.resolveQueryName_eq_ok hname with ⟨hptr, hparse⟩ |
    ⟨rfl, address, hfree, rfl⟩
  · refine .inl ⟨?_, true, DestinationPolicy.parse_hostname_self hparse⟩
    simp only [DnsRecordTypes.supported, List.mem_cons, List.not_mem_nil, or_false] at hsupported
    simp only [DnsCall.query, List.mem_cons, List.not_mem_nil, or_false]
    tauto
  · exact .inr ⟨address, hfree, rfl⟩

/-- **No request discloses more than it may.** For each of the four endpoints, whatever the tools
print and the resolvers answer: every query is for an accepted hostname or for the reverse name of
an address that is not blocked. `ping` asks for no names of addresses; `traceroute` and `mtr` ask
for those of the hops that the parser reads in the output of the tool they have run, for none of
them twice; and a record lookup sends one query at most. -/
theorem queries_permitted (rt : Runtime) (policy : DestinationPolicy)
    (settings : DiagnosticsOptions) (parsers : Parsers) (requestId : Str) :
    (∀ request es r, Task.Runs (pingAsync rt policy settings (hostResolver rt)
        (nativeProbeRunner rt policy settings parsers) request requestId) es r →
      (∀ query ∈ dnsQueries (DiagnosticsExecutor.workEvents es), Permitted rt policy query) ∧
        reverseQueries (DiagnosticsExecutor.workEvents es) = []) ∧
    (∀ request es r, Task.Runs (tracerouteAsync rt policy settings (hostResolver rt)
        (nativeProbeRunner rt policy settings parsers) request requestId) es r →
      (∀ query ∈ dnsQueries (DiagnosticsExecutor.workEvents es), Permitted rt policy query) ∧
        NamesHops policy (hopsOf parsers.traceroute (List.map TraceHopRaw.address))
          (DiagnosticsExecutor.workEvents es)) ∧
    (∀ request es r, Task.Runs (mtrAsync rt policy settings (hostResolver rt)
        (nativeProbeRunner rt policy settings parsers) request requestId) es r →
      (∀ query ∈ dnsQueries (DiagnosticsExecutor.workEvents es), Permitted rt policy query) ∧
        NamesHops policy (hopsOf parsers.mtr fun raw => raw.hops.map MtrHopRaw.address)
          (DiagnosticsExecutor.workEvents es)) ∧
    ∀ request es r, Task.Runs (DnsLookupService.lookupAsync rt policy settings request requestId)
        es r →
      (∀ query ∈ dnsQueries (DiagnosticsExecutor.workEvents es), Permitted rt policy query) ∧
        (dnsQueries (DiagnosticsExecutor.workEvents es)).length ≤ 1 := by
  refine ⟨fun request es r h => ⟨(pingAsync_confined h).permitted, ?_⟩,
    fun request es r h => ⟨(tracerouteAsync_confined h).permitted, ?_⟩,
    fun request es r h => ⟨(mtrAsync_confined h).permitted, ?_⟩, fun request es r h => ?_⟩
  · rcases DiagnosticsExecutor.executeAsync_spec h with ⟨hnil, -⟩ | ⟨x, hwork, -⟩
    · exact reverseQueries_of_dnsCalls (by rw [hnil]; rfl)
    · exact reverseQueries_of_runs hwork
        (fun _ _ _ hrun => (NativeProbeRunner.pingAsync_spec hrun).1)
        fun _ _ _ _ _ hrest => silent_of_runs_response hrest
  · rcases DiagnosticsExecutor.executeAsync_spec h with ⟨hnil, -⟩ | ⟨x, hwork, -⟩
    · exact .inl (reverseQueries_of_dnsCalls (by rw [hnil]; rfl))
    · exact namesHops_of_runs hwork returns_tracerouteAsync
        (fun _ _ _ hrun => (NativeProbeRunner.tracerouteAsync_spec hrun).1)
        fun _ _ _ _ _ => asksNames_of_runs_response
  · rcases DiagnosticsExecutor.executeAsync_spec h with ⟨hnil, -⟩ | ⟨x, hwork, -⟩
    · exact .inl (reverseQueries_of_dnsCalls (by rw [hnil]; rfl))
    · exact namesHops_of_runs hwork returns_mtrAsync
        (fun _ _ _ hrun => (NativeProbeRunner.mtrAsync_spec hrun).1)
        fun _ _ _ _ _ => asksNames_of_runs_response
  · rcases DiagnosticsExecutor.executeAsync_spec h with ⟨hnil, -⟩ | ⟨x, hwork, -⟩
    · rw [hnil]
      exact ⟨by simp, Nat.zero_le _⟩
    · exact permitted_of_runs_lookup hwork

end DiagnosticsService

end LookingGlass
