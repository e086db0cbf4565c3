import LookingGlass.Api.DiagnosticRelay
import LookingGlass.Api.DiagnosticsClient
import LookingGlass.Contracts.ProblemResults
import LookingGlass.Foundations.Utf8

/-!
# Problems from one service to the other

A diagnostic that fails in the diagnostics service is answered with a problem document, read by the
client in the API, thrown there as an exception, counted and logged by the relay, and answered with
a problem document once more. Nothing of it gets lost on the way: the visitor sees the problem that
the diagnostics service had, under the request ID of the API.

The serializer is a parameter, of which only the one document has to be read as it was written.

## Four translations

A problem is a record, then a document, then bytes, then an exception, then a record again. Every
one of the steps could lose something: a member that is not written if it is absent, a code that the
reader expects and does not find, a status that is not one of a refusal, a number that is no `int`.
`sendAsync_sent` and `failed_of_runs` are the two halves, and `handleAsync_of_relayed` is the whole.

The conditions on a problem are those without which it could not be sent at all. A status between
200 and 299 would be taken for success, and a time to wait beyond an `int` could not be read. The
problems of the two services satisfy both, and this is proved of every kind of them.

## Main results

* `DiagnosticsClient.sendAsync_sent` — what the client throws for a problem
* `DiagnosticRelay.failed_of_runs` — a request whose diagnostic failed fails in the same way
* `ProblemExceptionHandler.handleAsync_of_relayed` — a problem is the same at both services
-/

namespace LookingGlass

open Utf16 Interaction

/-- What writes and reads JSON. The two services share it as a parameter, and what is assumed of it
is assumed of single documents. -/
structure JsonFormat (T : Type) where
  reader : JsonReader T
  write : Document → List UInt8

/-- What is written for the document is read as its members, in their order and with their values.
-/
def JsonFormat.Keeps {T : Type} (format : JsonFormat T) (document : Document) : Prop :=
  format.reader.parse (format.write document) = some document.toJson

/-- The response as a client receives it. -/
def ProblemResponse.sent {T : Type} (format : JsonFormat T) (response : ProblemResponse) :
    HttpResponse where
  statusCode := response.status
  content := { bytes := (response.body.map format.write).getD [] }

/-- The status is that of a refusal, and the time to wait is an `int`: what a client needs in order
to read the problem as one. -/
structure Problem.IsSendable (problem : Problem) : Prop where
  status : ¬ (200 ≤ problem.status ∧ problem.status ≤ 299)
  retry : ∀ seconds ∈ problem.retryAfterSeconds, -2147483648 ≤ seconds ∧ seconds ≤ 2147483647

/-- The exception that a problem stands for. -/
def Problem.exception (problem : Problem) : LookingGlassException :=
  ⟨problem.code, problem.status, problem.detail, problem.retryAfterSeconds⟩

namespace DiagnosticsClient

variable {T : Type} {format : JsonFormat T} {traceIdentifier : Str} {problem : Problem}

theorem property_toJson {α : Type} {document : Document} (h : document.names.Nodup) (name : Str)
    (read : Json → Option (Option α)) :
    property document.toJson name read =
      match document.get name with
      | none => .ok none
      | some value => access (read value.toJson) := by
  rw [property_eq, Document.tryGetProperty_toJson h]
  cases document.get name <;> rfl

theorem readProblemAsync_sent
    (hkeeps : format.Keeps (ProblemResults.document traceIdentifier problem []))
    (h : problem.IsSendable) (requestId : Option Str) :
    readProblemAsync format.reader
        ((ProblemResults.create requestId traceIdentifier problem).sent format) =
      .ok problem.exception := by
  let document := ProblemResults.document traceIdentifier problem []
  have hnodup : document.names.Nodup := ProblemResults.nodup_names
  obtain ⟨hcode, -, hdetail, -, hretry, -⟩ :=
    @ProblemResults.get_document traceIdentifier problem []
  have hreadCode : property document.toJson "code" Json.getString = .ok (some problem.code) := by
    rw [property_toJson hnodup, hcode]
    rfl
  have hreadDetail : property document.toJson "detail" Json.getString =
      .ok (some problem.detail) := by
    rw [property_toJson hnodup, hdetail]
    rfl
  have hreadRetry : property document.toJson "retryAfterSeconds" Json.tryGetInt32 =
      .ok problem.retryAfterSeconds := by
    rw [property_toJson hnodup, hretry]
    cases hseconds : problem.retryAfterSeconds with
    | none => rfl
    | some seconds =>
      show access (some (Json.parseInt32 (Double.decimalInt seconds))) = _
      rw [parseInt32_decimalInt (h.retry seconds hseconds)]
      rfl
  show readProblemAsync format.reader ⟨problem.status, none, format.write document, true⟩ = _
  have hparse : format.reader.parse (format.write document) = some document.toJson := hkeeps
  simp only [readProblemAsync, parseAsync_eq, hparse]
  show (tryCatch (property _ _ _ >>= _) _ >>= _) = _
  rw [hreadCode]
  show (tryCatch (property _ _ _ >>= _) _ >>= _) = _
  rw [hreadDetail]
  show (tryCatch (property _ _ _ >>= _) _ >>= _) = _
  rw [hreadRetry]
  rfl

/-- **What the client throws for a problem** is the exception that it stands for. -/
theorem sendAsync_sent
    (hkeeps : format.Keeps (ProblemResults.document traceIdentifier problem []))
    (h : problem.IsSendable) (requestId : Option Str) (isCancellationRequested : Bool) :
    sendAsync format.reader isCancellationRequested
        (.response ((ProblemResults.create requestId traceIdentifier problem).sent format)) =
      .error (.lookingGlass problem.exception) := by
  have hstatus : HttpResponse.isSuccessStatusCode
      ((ProblemResults.create requestId traceIdentifier problem).sent format) = false :=
    decide_eq_false h.status
  show (if _ = true then _ else _) = _
  rw [hstatus, if_neg Bool.false_ne_true, readProblemAsync_sent hkeeps h]
  rfl

end DiagnosticsClient

namespace DiagnosticRelay

/-! ### The relay in between

The exceptions of the backend are read off the calls. A request that has one throws it on, whatever
else it does before it ends. -/

/-- The exception of a request to the backend that failed. -/
def failed? : Event (Relay.sum Hasher) → Option Exn
  | ⟨.inl (.post _ _ _), .error ex⟩ => some ex
  | _ => none

/-- Keep the exceptions of the backend. -/
def failures : Protocol (Relay.sum Hasher) (List Exn) where
  allowed _ _ := True
  next exs e :=
    match failed? e with
    | some ex => exs ++ [ex]
    | none => exs

theorem foldl_failures (es : List (Event (Relay.sum Hasher))) (exs : List Exn) :
    es.foldl failures.next exs = exs ++ es.filterMap failed? := by
  induction es generalizing exs with
  | nil => exact (List.append_nil exs).symm
  | cons e es ih =>
    rw [List.foldl_cons, ih, List.filterMap_cons]
    show (match failed? e with | some ex => exs ++ [ex] | none => exs) ++ _ = _
    cases failed? e with
    | none => rfl
    | some ex => exact List.append_assoc exs [ex] _

/-- The result is the exception, if there was one. As a list it may be empty, so that calls that go
well are covered by the same statement. -/
def Rethrows {α : Type} (exs : List Exn) (r : Except Exn α) : Prop := ∀ ex ∈ exs, r = .error ex

section

variable {rt : Runtime} {crypto : Crypto} {policy : DestinationPolicy} {context : HttpContext}
  {traceIdentifier : Str} {kind : DiagnosticKind} {body : Option kind.Body}

/-- A handler throws what it has caught. -/
theorem follows_handle_failures {α : Type} {entry : Str → Option Str → LogEntry} {type : Str}
    {ex : Exn} {exs : List Exn} {post : List Exn → Except Exn α → Prop}
    (hpost : post exs (.error ex)) : Task.Follows failures post (handle entry type ex) exs := by
  cases ex with
  | lookingGlass ex =>
    refine Task.follows_bind.mpr ⟨trivial, fun _ => Task.follows_ite.mpr ⟨fun _ => ?_, fun _ => ?_⟩⟩
    · exact Task.follows_bind.mpr
        ⟨trivial, fun _ => Task.follows_bind.mpr ⟨trivial, fun _ => hpost⟩⟩
    · exact Task.follows_bind.mpr ⟨trivial, fun _ => hpost⟩
  | operationCanceled =>
    exact Task.follows_bind.mpr
      ⟨trivial, fun _ => Task.follows_bind.mpr ⟨trivial, fun _ => hpost⟩⟩
  | _ => exact hpost

theorem follows_relayAsync_failures {rawInput : Option Str} {validate : Except Exn Unit}
    {describe : kind.Response → Except Exn (Str × Str)} :
    Task.Follows failures Rethrows
      (relayAsync rt crypto context traceIdentifier kind body rawInput validate describe) [] := by
  have hnone : ∀ {r : Except Exn kind.Response}, Rethrows [] r := fun _ h => (nomatch h)
  refine Task.follows_bind.mpr ⟨trivial, fun _ => Task.follows_bind.mpr ⟨trivial, fun _ => ?_⟩⟩
  refine Task.follows_bind.mpr (follows_hash (fun _ => ⟨trivial, fun _ => rfl⟩) fun hash => ?_)
  refine Task.follows_tryFinally.mpr (Task.follows_tryCatch.mpr (Task.follows_bind.mpr ?_))
  -- whatever the `finally` block calls, the outcome stays
  have hfinally : ∀ {exs : List Exn} {r : Except Exn kind.Response}, Rethrows exs r →
      Task.Follows failures (fun exs y => Rethrows exs (y.bind fun _ => r)) (do
        call .activeDec .ok
        call (.observeDuration kind.type) .ok) exs := by
    exact fun h => Task.follows_bind.mpr ⟨trivial, fun _ => ⟨trivial, fun _ => h⟩⟩
  cases validate with
  | error ex => exact follows_handle_failures (hfinally hnone)
  | ok _ =>
  refine Task.follows_bind.mpr ⟨trivial, fun answer => ?_⟩
  cases answer with
  | error ex =>
    exact follows_handle_failures (hfinally fun ex' h => congrArg _ (List.mem_singleton.mp h).symm)
  | ok response =>
  refine Task.follows_bind.mpr ?_
  cases describe response with
  | error ex => exact follows_handle_failures (hfinally hnone)
  | ok described =>
    exact Task.follows_bind.mpr ⟨trivial, fun _ => Task.follows_bind.mpr ⟨trivial, fun _ =>
      hfinally hnone⟩⟩

/-- **A request whose diagnostic failed fails in the same way.** -/
theorem failed_of_runs {es : List (Event (Relay.sum Hasher))} {r : Except Exn kind.Response}
    (h : Task.Runs (relay rt crypto policy context traceIdentifier kind body) es r)
    {sentBody : Option kind.Body} {requestId : Str} {ex : Exn}
    (hpost : (⟨.inl (.post kind sentBody requestId), .error ex⟩ : Event (Relay.sum Hasher)) ∈ es) :
    r = .error ex := by
  have hfollows : Task.Follows failures Rethrows
      (relay rt crypto policy context traceIdentifier kind body) [] := by
    cases kind <;> exact follows_relayAsync_failures
  have hrethrows := (Prog.Follows.run hfollows h).1
  refine hrethrows ex ?_
  rw [foldl_failures, List.nil_append]
  exact List.mem_filterMap.mpr ⟨_, hpost, rfl⟩

end

end DiagnosticRelay

namespace ProblemExceptionHandler

/-- A problem goes by the title of its code. -/
theorem eq_titled_of_problem {isRequestAborted : Bool} {error : RequestError} {p : Problem}
    (h : problem isRequestAborted error = some p) :
    p = titled p.status p.code p.detail p.retryAfterSeconds := by
  cases error with
  | badHttpRequest statusCode =>
    obtain rfl := Option.some.inj h
    simp only [badHttpRequest]
    split
    · rfl
    · split <;> rfl
  | exception ex =>
    cases ex with
    | operationCanceled =>
      cases isRequestAborted with
      | true => exact absurd h nofun
      | false =>
        obtain rfl := Option.some.inj h
        rfl
    | _ =>
      obtain rfl := Option.some.inj h
      rfl

/-- What stands for a problem is answered with the problem. -/
theorem problem_exception {isRequestAborted : Bool} {error : RequestError} {p : Problem}
    (h : problem isRequestAborted error = some p) (isRequestAborted' : Bool) :
    problem isRequestAborted' (.exception (.lookingGlass p.exception)) = some p :=
  congrArg some (eq_titled_of_problem h).symm

section

variable {rt : Runtime} {crypto : Crypto} {policy : DestinationPolicy} {context : HttpContext}
  {traceIdentifier backendIdentifier requestId : Str} {kind : DiagnosticKind}
  {body sentBody : Option kind.Body} {format : JsonFormat kind.Response} {error : RequestError}
  {isBackendAborted isCancellationRequested : Bool} {p : Problem}
  {es : List (Event (Relay.sum Hasher))} {r : Except Exn kind.Response}

/-- The request fails with the exception that the problem of the diagnostics service stands for. -/
theorem rethrown_of_runs (hproblem : problem isBackendAborted error = some p)
    (hsend : p.IsSendable)
    (hkeeps : format.Keeps (ProblemResults.document backendIdentifier p []))
    (hruns : Task.Runs
      (DiagnosticRelay.relay rt crypto policy context traceIdentifier kind body) es r)
    (hpost : (⟨.inl (.post kind sentBody requestId),
      DiagnosticsClient.sendAsync format.reader isCancellationRequested
        (.response ((handleAsync backendIdentifier isBackendAborted error).sent format))⟩ :
      Event (Relay.sum Hasher)) ∈ es) :
    r = .error (.lookingGlass p.exception) := by
  have hanswer : handleAsync backendIdentifier isBackendAborted error =
      ProblemResults.create none backendIdentifier p := by
    rw [handleAsync, hproblem]
  rw [hanswer, DiagnosticsClient.sendAsync_sent hkeeps hsend] at hpost
  exact DiagnosticRelay.failed_of_runs hruns hpost

/-- **A problem is the same at both services**: what the diagnostics service answers a diagnostic
with that failed is what the API answers it with, under its own request ID. -/
theorem handleAsync_of_relayed (hproblem : problem isBackendAborted error = some p)
    (hsend : p.IsSendable)
    (hkeeps : format.Keeps (ProblemResults.document backendIdentifier p []))
    (hruns : Task.Runs
      (DiagnosticRelay.relay rt crypto policy context traceIdentifier kind body) es r)
    (hpost : (⟨.inl (.post kind sentBody requestId),
      DiagnosticsClient.sendAsync format.reader isCancellationRequested
        (.response ((handleAsync backendIdentifier isBackendAborted error).sent format))⟩ :
      Event (Relay.sum Hasher)) ∈ es) (isRequestAborted : Bool) :
    ∃ ex, r = .error ex ∧ handleAsync traceIdentifier isRequestAborted (.exception ex) =
      ProblemResults.create none traceIdentifier p := by
  refine ⟨_, rethrown_of_runs hproblem hsend hkeeps hruns hpost, ?_⟩
  rw [handleAsync, problem_exception hproblem]

end

/-! A ping that times out. -/

def exampleProblem : Problem :=
  titled 504 ProblemCodes.timeout "The destination did not respond before the timeout."

def exampleText : Str :=
  concat ["\x7b\"type\":\"https://lg.geiseit.com/problems/timeout\",",
    "\"title\":\"Diagnostic timed out\",\"status\":504,",
    "\"detail\":\"The destination did not respond before the timeout.\",",
    "\"code\":\"timeout\",\"requestId\":\"a1\"\x7d"]

/-- A serializer that knows one document. -/
def exampleFormat (T : Type) (document : Document) (text : Str) : JsonFormat T where
  reader := {
    parse bytes := if bytes = Utf8.encode text then some document.toJson else none
    deserialize _ _ := none
    refusesEarly _ _ := false
    isCharSet _ := false }
  write other := if other = document then Utf8.encode text else []

theorem keeps_exampleFormat {T : Type} (document : Document) (text : Str) :
    (exampleFormat T document text).Keeps document := by
  simp [JsonFormat.Keeps, exampleFormat]

def pingFormat : JsonFormat (DiagnosticKind.Response .ping) :=
  exampleFormat _ (ProblemResults.document "a1" exampleProblem []) exampleText

/-- The reply of the diagnostics service is the one that has the problem in it. -/
def exampleAnswer : ∀ op, (Relay.sum Hasher).Ret op
  | .inl (.post .ping _ _) =>
    DiagnosticsClient.sendAsync pingFormat.reader false (.response
      ((handleAsync "a1" false (.exception LookingGlassException.timeoutError)).sent pingFormat))
  | op => DiagnosticRelay.exampleAnswer op

set_option maxRecDepth 4096 in
theorem handleAsync_of_timeout :
    ∃ ex, ((DiagnosticRelay.relay .reference ClientIpHasher.exampleCrypto
        DiagnosticRelay.examplePolicy ⟨"/api/v1/diagnostics/ping", none⟩ "a1" .ping
        (some DiagnosticRelay.exampleBody)).run.simulate exampleAnswer).2 = .error ex ∧
      handleAsync "a1" false (.exception ex) = ProblemResults.create none "a1" exampleProblem :=
  handleAsync_of_relayed (p := exampleProblem) rfl ⟨by decide, nofun⟩ (keeps_exampleFormat _ _)
    (Prog.run_simulate exampleAnswer _) (.tail _ (.tail _ (.head _))) false

end ProblemExceptionHandler

end LookingGlass
