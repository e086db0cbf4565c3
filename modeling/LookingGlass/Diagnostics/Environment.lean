import LookingGlass.Contracts.Models
import LookingGlass.Foundations.Interaction
import Mathlib.Data.List.Dedup

/-!
# What the diagnostics service calls

`Work` are the calls a diagnostic makes: the clock, the cancellation token, the DNS client and the
process runner. Each is answered by the environment, and the answers to DNS queries and process
runs may be exceptions, so a run of a diagnostic stands for one behaviour of the network, the tools
and the caller.

`dnsQueries` and `processCalls` read the calls of a run that leave the service.

## Answers, not behaviour

The DNS client and the process runner are interfaces of the code with implementations in the
repository, and the latter has a model of its own in `ToolProcess`. For a diagnostic, though, all
that matters of a process is that it was started with these arguments and has ended with this
result, or with an exception. So each is one call here, and the results about a diagnostic hold for
any implementation.

The arguments are part of the call. What leaves the service is read off the calls of a run, so that
nothing can be sent without being seen.

## Main definitions

* `Work` — the calls, with their answers
* `dnsQueries`, `processCalls` — what leaves the service in a run
-/

namespace LookingGlass

open Utf16 Interaction

/-! ### Settings

The options, with the defaults of the source. Those that no modelled function reads are left out. -/

structure PingOptions where
  count : ℤ := 5
  intervalSeconds : ℚ := 1 / 2
  packetTimeoutSeconds : ℤ := 2

structure TracerouteOptions where
  maxHops : ℤ := 30
  queries : ℤ := 3
  waitSeconds : ℤ := 2

structure MtrOptions where
  cycles : ℤ := 5
  intervalSeconds : ℤ := 1
  graceSeconds : ℤ := 2
  maxHops : ℤ := 30

structure ToolPaths where
  ping : Str := "/usr/bin/ping"
  traceroute : Str := "/usr/bin/traceroute"
  mtr : Str := "/usr/bin/mtr"

structure DiagnosticsOptions where
  timeoutSeconds : ℤ := 45
  maxConcurrent : ℕ := 4
  maxQueued : ℕ := 16
  queueWaitSeconds : ℤ := 10
  maxOutputBytes : ℤ := 65536
  redactPrivateHops : Bool := true
  reverseDns : Bool := true
  simulated : Bool := false
  ping : PingOptions := {}
  traceroute : TracerouteOptions := {}
  mtr : MtrOptions := {}
  tools : ToolPaths := {}

/-! ### Calls

One operation for each, and the functions of the code that make it. -/

structure DnsQueryResult where
  responseCode : Str
  answers : List DnsRecord

structure ProcessResult where
  exitCode : ℤ
  stdOut : Str
  stdErr : Str
  truncated : Bool

inductive WorkOp
  | getUtcNow
  /-- Milliseconds on a stopwatch that was started before the previous call. -/
  | stopwatchElapsed
  | isCancellationRequested
  | dnsQuery (name recordType : Str)
  | runProcess (fileName : Str) (arguments : List Str) (maxOutputBytes : ℤ)

abbrev WorkOp.Ret : WorkOp → Type
  | getUtcNow => DateTimeOffset
  | stopwatchElapsed => ℤ
  | isCancellationRequested => Bool
  | dnsQuery _ _ => Except Exn DnsQueryResult
  | runProcess _ _ _ => Except Exn ProcessResult

abbrev Work : Interface := ⟨WorkOp, WorkOp.Ret⟩

namespace Work

variable {α : Type}

def getUtcNow : Task Work Exn DateTimeOffset := Task.perform (I := Work) .getUtcNow

def stopwatchElapsed : Task Work Exn ℤ := Task.perform (I := Work) .stopwatchElapsed

def isCancellationRequested : Task Work Exn Bool :=
  Task.perform (I := Work) .isCancellationRequested

/-- `IDnsQuery.QueryAsync`. -/
def queryAsync (name recordType : Str) : Task Work Exn DnsQueryResult :=
  Task.call (I := Work) (.dnsQuery name recordType) fun answer => answer

/-- `IProcessRunner.RunAsync`. -/
def runAsync (fileName : Str) (arguments : List Str) (maxOutputBytes : ℤ) :
    Task Work Exn ProcessResult :=
  Task.call (I := Work) (.runProcess fileName arguments maxOutputBytes) fun answer => answer

end Work

/-- A query sent to the DNS client, with its answer. -/
structure DnsCall where
  name : Str
  recordType : Str
  answer : Except Exn DnsQueryResult

/-- What was asked, without the answer. -/
def DnsCall.query (call : DnsCall) : Str × Str := (call.name, call.recordType)

/-- A process started by the process runner. -/
structure ProcessCall where
  fileName : Str
  arguments : List Str
  maxOutputBytes : ℤ
  deriving DecidableEq

def dnsCall? : Event Work → Option DnsCall
  | ⟨.dnsQuery name recordType, answer⟩ => some ⟨name, recordType, answer⟩
  | _ => none

def processCall? : Event Work → Option ProcessCall
  | ⟨.runProcess fileName arguments maxOutputBytes, _⟩ => some ⟨fileName, arguments, maxOutputBytes⟩
  | _ => none

/-- The DNS queries of a run, in order. -/
def dnsCalls (es : List (Event Work)) : List DnsCall := es.filterMap dnsCall?

/-- What a run asked the DNS client, in order. -/
def dnsQueries (es : List (Event Work)) : List (Str × Str) := (dnsCalls es).map DnsCall.query

/-- The processes started in a run, in order. -/
def processCalls (es : List (Event Work)) : List ProcessCall := es.filterMap processCall?

@[simp] theorem dnsCalls_nil : dnsCalls [] = [] := rfl

@[simp] theorem processCalls_nil : processCalls [] = [] := rfl

@[simp] theorem dnsCalls_append (fst snd : List (Event Work)) :
    dnsCalls (fst ++ snd) = dnsCalls fst ++ dnsCalls snd := List.filterMap_append ..

@[simp] theorem processCalls_append (fst snd : List (Event Work)) :
    processCalls (fst ++ snd) = processCalls fst ++ processCalls snd := List.filterMap_append ..

@[simp] theorem dnsQueries_nil : dnsQueries [] = [] := rfl

@[simp] theorem dnsQueries_append (fst snd : List (Event Work)) :
    dnsQueries (fst ++ snd) = dnsQueries fst ++ dnsQueries snd := by
  rw [dnsQueries, dnsCalls_append, List.map_append, dnsQueries, dnsQueries]

/-- A run without calls that leave the service. -/
def Silent (es : List (Event Work)) : Prop := dnsCalls es = [] ∧ processCalls es = []

namespace Work

theorem silent_of_runs_getUtcNow {es : List (Event Work)} {r : Except Exn DateTimeOffset}
    (h : Task.Runs getUtcNow es r) : Silent es := by
  obtain ⟨now, rfl, -⟩ := Task.runs_call.mp h
  exact ⟨rfl, rfl⟩

theorem silent_of_runs_stopwatchElapsed {es : List (Event Work)} {r : Except Exn ℤ}
    (h : Task.Runs stopwatchElapsed es r) : Silent es := by
  obtain ⟨elapsed, rfl, -⟩ := Task.runs_call.mp h
  exact ⟨rfl, rfl⟩

theorem silent_of_runs_isCancellationRequested {es : List (Event Work)} {r : Except Exn Bool}
    (h : Task.Runs isCancellationRequested es r) : Silent es := by
  obtain ⟨requested, rfl, -⟩ := Task.runs_call.mp h
  exact ⟨rfl, rfl⟩

theorem runs_queryAsync {name recordType : Str} {es : List (Event Work)}
    {r : Except Exn DnsQueryResult} (h : Task.Runs (queryAsync name recordType) es r) :
    es = [⟨.dnsQuery name recordType, r⟩] := by
  obtain ⟨answer, rfl, rfl⟩ := Task.runs_call.mp h
  rfl

theorem runs_runAsync {fileName : Str} {arguments : List Str} {maxOutputBytes : ℤ}
    {es : List (Event Work)} {r : Except Exn ProcessResult}
    (h : Task.Runs (runAsync fileName arguments maxOutputBytes) es r) :
    es = [⟨.runProcess fileName arguments maxOutputBytes, r⟩] := by
  obtain ⟨answer, rfl, rfl⟩ := Task.runs_call.mp h
  rfl

/-- Tasks run one after the other ask what each of them asks. -/
theorem dnsQueries_of_forall₂ {β : Type} {f : β → Task Work Exn α} {queries : β → List (Str × Str)}
    (hf : ∀ b es r, Task.Runs (f b) es r → processCalls es = [] ∧ dnsQueries es = queries b)
    {bs : List β} {runs : List (List (Event Work) × Except Exn α)}
    (h : List.Forall₂ (fun t run => Task.Runs t run.1 run.2) (bs.map f) runs) :
    processCalls (runs.map Prod.fst).flatten = [] ∧
      dnsQueries (runs.map Prod.fst).flatten = bs.flatMap queries := by
  induction bs generalizing runs with
  | nil =>
    cases h
    exact ⟨rfl, rfl⟩
  | cons b bs ih =>
    obtain ⟨run, runs, hrun, hruns, rfl⟩ := List.forall₂_cons_left_iff.mp h
    obtain ⟨hproc, hqueries⟩ := hf b _ _ hrun
    obtain ⟨hproc', hqueries'⟩ := ih hruns
    rw [List.map_cons, List.flatten_cons, processCalls_append, dnsQueries_append, hproc, hproc',
      hqueries, hqueries', List.flatMap_cons]
    exact ⟨rfl, rfl⟩

end Work

/-- `Enumerable.Distinct`: the first occurrence of every element. -/
def distinct {α : Type} [DecidableEq α] (xs : List α) : List α := xs.reverse.dedup.reverse

@[simp] theorem mem_distinct {α : Type} [DecidableEq α] {xs : List α} {a : α} :
    a ∈ distinct xs ↔ a ∈ xs := by
  rw [distinct, List.mem_reverse, List.mem_dedup, List.mem_reverse]

theorem nodup_distinct {α : Type} [DecidableEq α] (xs : List α) : (distinct xs).Nodup :=
  List.nodup_reverse.2 (List.nodup_dedup _)

/-- Removing duplicates commutes with removing elements. -/
theorem filter_distinct {α : Type} [DecidableEq α] (p : α → Bool) (xs : List α) :
    (distinct xs).filter p = distinct (xs.filter p) := by
  have hdedup : ∀ ys : List α, ys.dedup.filter p = (ys.filter p).dedup := by
    intro ys
    induction ys with
    | nil => rfl
    | cons y ys ih =>
      rw [List.dedup_cons]
      by_cases hp : p y
      · rw [List.filter_cons_of_pos hp, List.dedup_cons, ← ih]
        simp only [List.mem_filter, hp, and_true]
        split
        · rfl
        · rw [List.filter_cons_of_pos hp]
      · rw [List.filter_cons_of_neg hp, ← ih]
        split
        · rfl
        · rw [List.filter_cons_of_neg hp]
  rw [distinct, List.filter_reverse, hdedup, List.filter_reverse, distinct]

end LookingGlass
