import LookingGlass.Diagnostics.Environment

/-!
# Host resolution

`resolveAsync` asks for the address records of a name and returns the addresses of all answers;
`reverseAsync` asks for the name of an address. The forward lookup starts its queries together and
waits for all of them, so a failure of one does not keep the other from being sent.

## Queries that run together

`Task.WhenAll` starts its tasks before it awaits any, and then throws one exception for all of them.
In the model they run one after the other, each to its end, and their outcomes are gathered. What is
sent is the same in either case, and so is what is returned; the order of the calls between two
queries is not, and nothing is said about it.

A reverse lookup that fails with an exception of the service has no name, and is no failure of the
diagnostic. Any other exception is passed on to the caller, cancellation among them.

## Main results

* `HostResolver.resolveAsync_spec` — the queries of a forward lookup, and what it returns
* `HostResolver.reverseAsync_spec` — the one query of a reverse lookup
-/

namespace LookingGlass

open Utf16 Interaction

structure IHostResolver where
  resolveAsync : Str → IpFamily → Task Work Exn (List IPAddress)
  reverseAsync : IPAddress → Task Work Exn (Option Str)

/-- `Task.WhenAll`. -/
def whenAll {α : Type} (tasks : List (Task Work Exn α)) : Task Work Exn (List α) := do
  Task.ofExcept (gather (← Task.attemptAll tasks))

theorem runs_whenAll {α : Type} {tasks : List (Task Work Exn α)} {es : List (Event Work)}
    {r : Except Exn (List α)} (h : Task.Runs (whenAll tasks) es r) :
    ∃ runs : List (List (Event Work) × Except Exn α),
      List.Forall₂ (fun t run => Task.Runs t run.1 run.2) tasks runs ∧
        es = (runs.map Prod.fst).flatten ∧ r = gather (runs.map Prod.snd) := by
  rw [whenAll, Task.runs_bind] at h
  rcases h with ⟨e, h, -⟩ | ⟨fst, outcomes, snd, rfl, h, hgather⟩
  · obtain ⟨_, -, -, he⟩ := Task.runs_attemptAll.mp h
    exact absurd he (by simp)
  · obtain ⟨runs, hruns, rfl, ho⟩ := Task.runs_attemptAll.mp h
    obtain rfl := Except.ok.inj ho
    obtain ⟨rfl, rfl⟩ := Task.runs_ofExcept.mp hgather
    exact ⟨runs, hruns, List.append_nil _, rfl⟩

/-- `IPAddress.Parse`. -/
def Runtime.parseAddress (rt : Runtime) (text : Str) : Except Exn IPAddress :=
  match rt.tryParseAddress text with
  | some address => .ok address
  | none => .error .format

namespace HostResolver

/-- The record types a forward lookup asks for. -/
def queryTypes (family : IpFamily) : List Str :=
  (if family = .auto ∨ family = .ipv4 then [ofString "A"] else []) ++
    if family = .auto ∨ family = .ipv6 then [ofString "AAAA"] else []

/-- A record with an address in it. -/
def isAddressRecord (record : DnsRecord) : Bool :=
  record.type == ofString "A" || record.type == ofString "AAAA"

def resolveAsync (rt : Runtime) (host : Str) (family : IpFamily) :
    Task Work Exn (List IPAddress) := do
  let results ← whenAll ((queryTypes family).map (Work.queryAsync host))
  let records := (results.flatMap DnsQueryResult.answers).filter isAddressRecord
  let addresses ← Task.ofExcept (records.mapM fun record => rt.parseAddress record.value)
  return distinct addresses

def reverseName (address : IPAddress) : Str :=
  match address.getAddressBytes with
  | [b0, b1, b2, b3] =>
    concat [join "." ([b3, b2, b1, b0].map fun b => AddressText.decimal b.toNat), ".in-addr.arpa"]
  | bytes =>
    concat (bytes.reverse.map fun (b : UInt8) => concat
      [AddressText.hex (b &&& 0x0f).toNat, ".", AddressText.hex (b >>> 4).toNat, "."]) ++
      ofString "ip6.arpa"

def reverseAsync (address : IPAddress) : Task Work Exn (Option Str) := do
  try
    let result ← Work.queryAsync (reverseName address) "PTR"
    let record := result.answers.find? fun record => record.type == ofString "PTR"
    pure (record.map DnsRecord.value)
  catch ex =>
    match ex with
    | .lookingGlass _ => pure none
    | ex => throw ex

theorem parseAddress_eq_ok {rt : Runtime} {text : Str} {address : IPAddress} :
    rt.parseAddress text = .ok address ↔ rt.tryParseAddress text = some address := by
  rw [Runtime.parseAddress]
  cases rt.tryParseAddress text <;> simp

/-! ### What the lookups send

The queries of a lookup are known from its arguments alone, and its addresses from the answers. -/

/-- `address` is in the answer to one of the forward queries among `calls`. Records of other types
are no answers, and neither are values that are no addresses. -/
def Answered (rt : Runtime) (calls : List DnsCall) (address : IPAddress) : Prop :=
  ∃ call ∈ calls, (call.recordType = ofString "A" ∨ call.recordType = ofString "AAAA") ∧
    ∃ result, call.answer = .ok result ∧ ∃ record ∈ result.answers, isAddressRecord record ∧
      rt.tryParseAddress record.value = some address

theorem mem_queryTypes {family : IpFamily} {recordType : Str} (h : recordType ∈ queryTypes family) :
    recordType = ofString "A" ∨ recordType = ofString "AAAA" := by
  rw [queryTypes, List.mem_append] at h
  rcases h with h | h <;> split at h
  · exact .inl (List.mem_singleton.mp h)
  · exact absurd h List.not_mem_nil
  · exact .inr (List.mem_singleton.mp h)
  · exact absurd h List.not_mem_nil

/-- Queries for one name, one after the other. -/
theorem runs_queries {host : Str} {types : List Str}
    {runs : List (List (Event Work) × Except Exn DnsQueryResult)}
    (h : List.Forall₂ (fun t run => Task.Runs t run.1 run.2) (types.map (Work.queryAsync host))
      runs) :
    processCalls (runs.map Prod.fst).flatten = [] ∧
      dnsQueries (runs.map Prod.fst).flatten = types.map (host, ·) ∧
      (dnsCalls (runs.map Prod.fst).flatten).map DnsCall.answer = runs.map Prod.snd := by
  have hquery : ∀ t es r, Task.Runs (Work.queryAsync host t) es r →
      processCalls es = [] ∧ dnsQueries es = [(host, t)] := by
    intro t es r hrun
    rw [Work.runs_queryAsync hrun]
    exact ⟨rfl, rfl⟩
  obtain ⟨hproc, hqueries⟩ := Work.dnsQueries_of_forall₂ hquery h
  refine ⟨hproc, by rw [hqueries, List.map_eq_flatMap], ?_⟩
  clear hproc hqueries
  induction types generalizing runs with
  | nil =>
    cases h
    rfl
  | cons t types ih =>
    obtain ⟨run, runs, hrun, hruns, rfl⟩ := List.forall₂_cons_left_iff.mp h
    rw [List.map_cons, List.flatten_cons, dnsCalls_append, List.map_append, ih hruns,
      Work.runs_queryAsync hrun]
    rfl

/-- **A forward lookup** asks once for every record type of the family, starts no process, and
returns the addresses in the answers. -/
theorem resolveAsync_spec {rt : Runtime} {host : Str} {family : IpFamily} {es : List (Event Work)}
    {r : Except Exn (List IPAddress)} (h : Task.Runs (resolveAsync rt host family) es r) :
    processCalls es = [] ∧
      dnsQueries es = (queryTypes family).map (host, ·) ∧
      ∀ addresses, r = .ok addresses → ∀ a, a ∈ addresses ↔ Answered rt (dnsCalls es) a := by
  rw [resolveAsync, Task.runs_bind] at h
  rcases h with ⟨e, h, rfl⟩ | ⟨fst, results, snd, rfl, h, hrest⟩
  · obtain ⟨runs, hruns, rfl, -⟩ := runs_whenAll h
    obtain ⟨hproc, hnames, -⟩ := runs_queries hruns
    exact ⟨hproc, hnames, fun _ he => absurd he (by simp)⟩
  obtain ⟨runs, hruns, rfl, hgather⟩ := runs_whenAll h
  obtain ⟨hproc, hnames, hanswers⟩ := runs_queries hruns
  rw [gather_eq_ok hgather.symm] at hanswers
  simp only [Task.runs_bind, Task.runs_ofExcept, Task.runs_pure] at hrest
  rcases hrest with ⟨e, ⟨rfl, -⟩, rfl⟩ | ⟨_, parsed, _, rfl, ⟨rfl, hparsed⟩, rfl, rfl⟩
  · rw [List.append_nil]
    exact ⟨hproc, hnames, fun _ he => absurd he (by simp)⟩
  rw [List.append_nil, List.append_nil]
  refine ⟨hproc, hnames, fun addresses haddr a => ?_⟩
  obtain rfl := Except.ok.inj haddr
  rw [dnsQueries] at hnames
  generalize dnsCalls (runs.map Prod.fst).flatten = calls at hnames hanswers
  have hresult : ∀ result, result ∈ results ↔ ∃ call ∈ calls, call.answer = .ok result := by
    intro result
    rw [← List.mem_map, hanswers, List.mem_map]
    simp
  have htype : ∀ call ∈ calls,
      call.recordType = ofString "A" ∨ call.recordType = ofString "AAAA" := by
    intro call hcall
    have hmem := List.mem_map_of_mem (f := DnsCall.query) hcall
    rw [hnames, List.mem_map] at hmem
    obtain ⟨t, ht, heq⟩ := hmem
    exact (Prod.mk.inj heq).2 ▸ mem_queryTypes ht
  rw [mem_distinct, mem_iff_of_mapM_eq_ok hparsed.symm]
  simp only [List.mem_filter, List.mem_flatMap, hresult, parseAddress_eq_ok]
  constructor
  · rintro ⟨record, ⟨⟨result, ⟨call, hcall, hok⟩, hrecord⟩, haddr⟩, hparse⟩
    exact ⟨call, hcall, htype call hcall, result, hok, record, hrecord, haddr, hparse⟩
  · rintro ⟨call, hcall, -, result, hok, record, hrecord, haddr, hparse⟩
    exact ⟨record, ⟨⟨result, ⟨call, hcall, hok⟩, hrecord⟩, haddr⟩, hparse⟩

/-- **A reverse lookup** sends one query, for the reverse name of the address. -/
theorem reverseAsync_spec {address : IPAddress} {es : List (Event Work)}
    {r : Except Exn (Option Str)} (h : Task.Runs (reverseAsync address) es r) :
    processCalls es = [] ∧
      dnsQueries es = [(reverseName address, ofString "PTR")] := by
  rw [reverseAsync] at h
  obtain ⟨_, hrun⟩ := Task.exists_runs_of_tryCatch (fun ex snd r hcatch => by
    cases ex with
    | lookingGlass ex => exact (Task.runs_pure.mp hcatch).1
    | _ => exact (Task.runs_throw.mp hcatch).1) h
  obtain ⟨_, hquery, -⟩ := Task.runs_bind_pure.mp hrun
  rw [Work.runs_queryAsync hquery]
  exact ⟨rfl, rfl⟩

end HostResolver

def hostResolver (rt : Runtime) : IHostResolver :=
  ⟨HostResolver.resolveAsync rt, HostResolver.reverseAsync⟩

end LookingGlass
