import LookingGlass.Contracts.HostnameGrammar
import LookingGlass.Diagnostics.DiagnosticsExecutor
import LookingGlass.Diagnostics.HostResolver
import LookingGlass.Diagnostics.TextRenderer

/-!
# Record lookups

A lookup sends one query: the name as the policy accepted it, or the reverse name of an address
that the policy let through. Which of the two it is depends on the record type, and an input of the
other kind is refused.

## One query

The other diagnostics look up the addresses of a name, in one query for each family; this one asks
once, for the type that was chosen, and shows what is answered. What was not answered as asked is a
status and not a failure: a name that does not exist, or a name without records of the type. Any
other response code is a failure of the diagnostic.

The text below the records is put together from the answer as it is. That lines of it may be more
than were appended, because a record may contain the end of a line, is dealt with where the text is
rendered.

## Main results

* `DnsLookupService.resolveQueryName_eq_ok` — what can be queried
* `DnsLookupService.lookup_spec` — a lookup sends at most that query
-/

namespace LookingGlass

open Utf16 Interaction

namespace DnsLookupService

variable (rt : Runtime) (policy : DestinationPolicy)

/-- The name to query and the name to show. -/
def resolveQueryName (input : Option Str) (recordType : Str) : Except Exn (Str × Str) :=
  match policy.parse rt input true with
  | .error error => .error (TargetResolver.rejection error)
  | .ok destination =>
    if recordType = ofString "PTR" then
      match destination with
      | .ipAddress address text => .ok (HostResolver.reverseName address, text)
      | .hostname _ =>
        .error (LookingGlassException.validation "Enter an IP address for a PTR (reverse) lookup.")
    else
      match destination with
      | .ipAddress _ _ =>
        .error (LookingGlassException.validation
          "Enter a domain name for this record type, or choose PTR for an IP address.")
      | .hostname text => .ok (text, text)

def render (name recordType status : Str) (answers : List DnsRecord) (elapsedMs : ℤ) : Str :=
  let records : List Str :=
    if answers.length = 0 then ["(none)"]
    else answers.map fun answer => concat [answer.name, ". ", Double.decimalInt answer.ttl, " IN ",
      answer.type, " ", answer.value]
  let question : List Str := [";; QUESTION", concat [name, ". IN ", recordType], [], ";; ANSWER"]
  TextRenderer.normalise (question ++ records ++
    [[], concat [";; STATUS: ", rt.toUpperInvariant status,
    "  QUERY TIME: ", Double.decimalInt elapsedMs, " ms"]])

/-- The status of an answer, or the failure of a query that was not answered. -/
def statusOf (recordType : Str) (result : DnsQueryResult) : Except Exn Str :=
  if result.responseCode = ofString "NotExistentDomain" then .ok DnsStatuses.nxDomain
  else if result.responseCode = ofString "NoError" then
    if result.answers.any fun a => a.type == recordType then .ok DnsStatuses.ok
    else .ok DnsStatuses.noData
  else .error (LookingGlassException.failed "The DNS resolver could not answer this query.")

def lookup (request : Option DnsLookupRequest) (requestId : Str) : Task Work Exn DnsResponse :=
  match DnsRecordTypes.tryNormalize rt (request.bind DnsLookupRequest.recordType) with
  | none =>
    throw (LookingGlassException.validation
      (concat ["Record type must be one of ", join ", " DnsRecordTypes.supported, "."]))
  | some recordType => do
    let started ← Work.getUtcNow
    let (queryName, displayName) ← Task.ofExcept
      (resolveQueryName rt policy (request.bind DnsLookupRequest.name) recordType)
    let result ← Work.queryAsync queryName recordType
    let elapsed ← Work.stopwatchElapsed
    let status ← Task.ofExcept (statusOf recordType result)
    pure {
      requestId
      name := displayName
      recordType
      startedAt := started
      durationMs := elapsed
      status
      records := result.answers
      technicalOutput := render rt queryName recordType status result.answers elapsed }

def lookupAsync (settings : DiagnosticsOptions) (request : Option DnsLookupRequest)
    (requestId : Str) : Task (Exec.sum Work) Exn DnsResponse :=
  DiagnosticsExecutor.executeAsync settings DiagnosticTypes.dns (lookup rt policy request requestId)

/-! ### What a lookup sends

The name is checked by the policy before anything is sent, in the form that the record type asks
for. -/

variable {rt policy}

/-- A name that was accepted is queried as it is, an address under its reverse name. -/
theorem resolveQueryName_eq_ok {input : Option Str} {recordType queryName displayName : Str}
    (h : resolveQueryName rt policy input recordType = .ok (queryName, displayName)) :
    (recordType ≠ ofString "PTR" ∧ policy.parse rt input true = .ok (.hostname queryName)) ∨
      (recordType = ofString "PTR" ∧ ∃ address, policy.blocklist.isBlocked address = false ∧
        queryName = HostResolver.reverseName address) := by
  unfold resolveQueryName at h
  split at h
  · exact absurd h (by simp)
  next destination hparse =>
  split at h
  · next hptr =>
    rcases DestinationPolicy.parse_eq_ok_cases hparse with ⟨address, hfree, rfl⟩ | ⟨name, rfl⟩
    · obtain ⟨rfl, -⟩ := Prod.mk.inj (Except.ok.inj h)
      exact .inr ⟨hptr, address, hfree, rfl⟩
    · exact absurd h (by simp)
  · next hptr =>
    rcases DestinationPolicy.parse_eq_ok_cases hparse with ⟨address, hfree, rfl⟩ | ⟨name, rfl⟩
    · exact absurd h (by simp)
    · obtain ⟨rfl, -⟩ := Prod.mk.inj (Except.ok.inj h)
      exact .inl ⟨hptr, hparse⟩

theorem lookup_spec {request : Option DnsLookupRequest} {requestId : Str} {es : List (Event Work)}
    {r : Except Exn DnsResponse} (h : Task.Runs (lookup rt policy request requestId) es r) :
    dnsCalls es = [] ∨ ∃ recordType ∈ DnsRecordTypes.supported, ∃ queryName displayName answer,
      dnsCalls es = [⟨queryName, recordType, answer⟩] ∧
        resolveQueryName rt policy (request.bind DnsLookupRequest.name) recordType =
          .ok (queryName, displayName) := by
  unfold lookup at h
  split at h
  · obtain ⟨rfl, -⟩ := Task.runs_throw.mp h
    exact .inl rfl
  next recordType htype =>
  rcases Task.runs_bind.mp h with ⟨_, hnow, -⟩ | ⟨es₁, started, es₂, rfl, hnow, h₂⟩
  · exact .inl (Work.silent_of_runs_getUtcNow hnow).1
  rw [dnsCalls_append, (Work.silent_of_runs_getUtcNow hnow).1, List.nil_append]
  rcases Task.runs_ofExcept_bind.mp h₂ with ⟨_, -, rfl, -⟩ | ⟨⟨queryName, displayName⟩, hname, h₃⟩
  · exact .inl rfl
  refine .inr ⟨recordType, DnsRecordTypes.mem_supported_of_tryNormalize htype, queryName,
    displayName, ?_⟩
  rcases Task.runs_bind.mp h₃ with ⟨ex, hquery, -⟩ | ⟨es₃, result, es₄, rfl, hquery, h₄⟩
  · exact ⟨.error ex, by rw [Work.runs_queryAsync hquery]; rfl, hname⟩
  refine ⟨.ok result, ?_, hname⟩
  rw [dnsCalls_append, Work.runs_queryAsync hquery]
  have hrest : dnsCalls es₄ = [] := by
    rcases Task.runs_bind.mp h₄ with ⟨_, helapsed, -⟩ | ⟨es₅, elapsed, es₆, rfl, helapsed, h₅⟩
    · exact (Work.silent_of_runs_stopwatchElapsed helapsed).1
    rw [dnsCalls_append, (Work.silent_of_runs_stopwatchElapsed helapsed).1, List.nil_append]
    obtain ⟨_, hstatus, -⟩ := Task.runs_bind_pure.mp h₅
    rw [(Task.runs_ofExcept.mp hstatus).1, dnsCalls_nil]
  rw [hrest]
  rfl

end DnsLookupService

end LookingGlass
