import LookingGlass.Api.ConcurrencyGuard
import LookingGlass.Api.ProblemRelay
import LookingGlass.Api.RateLimiting
import LookingGlass.Api.StatusService
import LookingGlass.Web.Errors

/-!
# What the pages show of a problem

A problem has come a long way when it is shown: it is written as a document, by one service or by
two, and read by pages that trust none of it. The page shows the code, the text and the time to wait
that the problem had where it arose.

What the pages need for that is little: that the code is one they know, that neither the title nor
the text is blank, and that the time is not negative. The problems of the API are like that.

## Which problems there are

A problem is written by the handler of exceptions, by the page for a status without a body, or by
the limiter of the rate. The exceptions of the code itself are listed in `IsOwn`: two with a fixed
text, that of the provider that stands for a missing one, and four kinds whose texts are chosen
where they are thrown. Other exceptions come from replies of the other service. These have the texts
that were sent, so it takes a hypothesis to show them, which `IsPresentable` is.

What `IsSendable` asks is what a problem needs to be read back by the API: a status that is not one
of success, and a time to wait of 32 bits.

## The way back

The document is written with the serializer of one service and read with that of the other, or with
that of the browser. That a document comes back as it was is a hypothesis on the format, for the
document that is sent. Nothing is assumed about documents that nobody sends.

## Main results

* `Errors.toApiError_delivered` — a problem of the API is shown as it is
* `Errors.exists_shown_of_isRefusal` — all the ways in which the API refuses a request
* `Errors.toApiError_of_relayed` — what is shown for a diagnostic that failed in the other service
-/

namespace LookingGlass

open Utf16 AddressText Interaction Validation

def DocumentValue.toJs : DocumentValue → JsValue
  | text s => .string s
  | number value => .number (.finite value)
  | lists entries => .object (entries.map fun entry => (entry.1, .array (entry.2.map .string)))

/-- The response as a page receives it, with the headers that are read. -/
def ProblemResponse.delivered (response : ProblemResponse) : AxiosResponse where
  status := response.status
  headers := some (
    (response.retryAfter.map fun text => (ofString "retry-after", JsValue.string text)).toList ++
    (response.requestId.map fun text => (ofString "x-request-id", JsValue.string text)).toList)
  data :=
    match response.body with
    | some document => .object (document.map fun member => (member.1, member.2.toJs))
    | none => .string []

namespace Errors

theorem get_toJs (document : Document) (name : Str) :
    JsValue.get (document.map fun member => (member.1, member.2.toJs)) name =
      ((document.get name).map DocumentValue.toJs).getD .undefined := by
  induction document with
  | nil => rfl
  | cons member rest ih =>
    obtain ⟨other, value⟩ := member
    rw [Document.get_cons]
    by_cases hname : other = name
    · rw [if_pos hname, JsValue.get, List.map_cons, List.find?_cons_of_pos (by simp [hname])]
      rfl
    · rw [if_neg hname, ← ih, JsValue.get, List.map_cons,
        List.find?_cons_of_neg (by simp [hname])]
      rfl

/-- The page can show the problem as it is: it knows the code, no text is blank, and the time to
wait is none that it would drop. -/
structure IsPresentable (problem : Problem) (code : ApiErrorCode) : Prop where
  code : knownCode problem.code = some code
  title : trim Validation.isSpace problem.title ≠ []
  detail : trim Validation.isSpace problem.detail ≠ []
  retry : ∀ seconds ∈ problem.retryAfterSeconds, 0 ≤ seconds

/-- The error that shows a problem. -/
def shown (problem : Problem) (code : ApiErrorCode) (requestId : Str) : PlainApiError where
  code := code
  message := problem.detail
  status := some problem.status
  title := some problem.title
  requestId := some requestId
  retryAfterSeconds := problem.retryAfterSeconds.map fun seconds : ℤ => .finite seconds
  fieldErrors := none

theorem asString_of_ne_nil {text : Str} (h : trim Validation.isSpace text ≠ []) :
    asString (.string text) = some text :=
  asString_eq_some_iff.mpr ⟨rfl, h⟩

/-- **A problem of the API is shown as it is.** -/
theorem toApiError_delivered {problem : Problem} {code : ApiErrorCode} {traceIdentifier : Str}
    (h : IsPresentable problem code) (hid : trim Validation.isSpace traceIdentifier ≠ [])
    (requestId errorCode : Option Str) :
    toApiError (.axiosError errorCode
        (some (ProblemResults.create requestId traceIdentifier problem).delivered)) =
      shown problem code traceIdentifier := by
  obtain ⟨hcode, htitle, hdetail, hrequestId, hretry, herrors⟩ :=
    @ProblemResults.get_document traceIdentifier problem []
  obtain ⟨members, hmembers⟩ : ∃ members, members =
      (ProblemResults.document traceIdentifier problem []).map fun member =>
        (member.1, member.2.toJs) := ⟨_, rfl⟩
  have hget : ∀ name, JsValue.get members name = (((ProblemResults.document traceIdentifier problem
      []).get name).map DocumentValue.toJs).getD .undefined :=
    fun name => hmembers ▸ get_toJs _ name
  have htext : ∀ {name text : Str},
      (ProblemResults.document traceIdentifier problem []).get name = some (.text text) →
      trim Validation.isSpace text ≠ [] → asString (JsValue.get members name) = some text := by
    intro name text hname htext
    rw [hget, hname]
    exact asString_of_ne_nil htext
  have hknown : trim Validation.isSpace problem.code ≠ [] := by
    have hall : ∀ known ∈ knownCodes, trim Validation.isSpace known.text ≠ [] := by decide
    have heq : code.text = problem.code := by simpa using List.find?_some h.code
    exact heq ▸ hall code (List.mem_of_find?_eq_some h.code)
  have hretry : asNonNegativeNumber (JsValue.get members "retryAfterSeconds") =
      problem.retryAfterSeconds.map fun seconds : ℤ => .finite seconds := by
    rw [hget, hretry]
    cases hseconds : problem.retryAfterSeconds with
    | none => rfl
    | some seconds =>
      have hnonneg : (0 : ℚ) ≤ seconds := by exact_mod_cast h.retry seconds hseconds
      exact if_pos hnonneg
  have herrors : parseFieldErrors (JsValue.get members "errors") = none := by
    rw [hget, herrors]
    rfl
  -- without a time to wait there is no such header either
  have hheader : problem.retryAfterSeconds = none →
      asNonNegativeNumber (JsValue.get
        ((ProblemResults.create requestId traceIdentifier problem).delivered.headers.getD [])
        "retry-after") = none := by
    intro hnone
    rw [ProblemResponse.delivered, ProblemResults.create, hnone]
    cases requestId <;> rfl
  have hresponse : toApiError (.axiosError errorCode
      (some (ProblemResults.create requestId traceIdentifier problem).delivered)) =
      { code := ((asString (JsValue.get members "code")).bind knownCode).getD
          (codeFromStatus problem.status)
        status := some problem.status
        title := asString (JsValue.get members "title")
        message := ((asString (JsValue.get members "detail")).or
          (asString (JsValue.get members "title"))).getD
            (concat ["The server responded with status ", decimal problem.status, "."])
        requestId := (asString (JsValue.get members "requestId")).or (asString (JsValue.get
          ((ProblemResults.create requestId traceIdentifier problem).delivered.headers.getD [])
          "x-request-id"))
        retryAfterSeconds :=
          (asNonNegativeNumber (JsValue.get members "retryAfterSeconds")).or
            (asNonNegativeNumber (JsValue.get
              ((ProblemResults.create requestId traceIdentifier problem).delivered.headers.getD [])
              "retry-after"))
        fieldErrors := parseFieldErrors (JsValue.get members "errors") } := by
    rw [hmembers]
    rfl
  rw [hresponse, htext hcode hknown, htext htitle h.title, htext hdetail h.detail,
    htext hrequestId hid, hretry, herrors, Option.bind_some, h.code, shown]
  cases hseconds : problem.retryAfterSeconds with
  | some seconds => rfl
  | none => exact congrArg (PlainApiError.mk _ _ _ _ _ · _) (hheader hseconds)

/-! ### The problems that there are

All the ways in which the API refuses a request by itself, and that the page can show each of them.
-/

/-- A text that starts with a letter is not blank. -/
theorem ne_nil_of_head {text : Str} {c : Char16} (h : text.head? = some c)
    (hc : Validation.isSpace c = false) : trim Validation.isSpace text ≠ [] := by
  intro hblank
  have hspace := trim_eq_nil_iff.mp hblank c (List.mem_of_head? h)
  exact absurd (hc.symm.trans hspace) Bool.false_ne_true

theorem title_ne_nil (code : Str) :
    trim Validation.isSpace (ProblemExceptionHandler.title code) ≠ [] := by
  unfold ProblemExceptionHandler.title
  repeat' split
  all_goals exact ne_nil_of_head rfl (by decide)

/-- An exception that the code makes itself: one of three with a fixed text, or one of a kind whose
text is chosen where it is thrown. An exception that a reply of the other service is turned into
need not be among them. -/
def IsOwn (ex : LookingGlassException) : Prop :=
  Exn.lookingGlass ex ∈ [LookingGlassException.busyError, LookingGlassException.timeoutError] ∨
    DisabledBgpProvider.queryAsync = (.error (.lookingGlass ex) : Except Exn Empty) ∨
    ∃ message, trim Validation.isSpace message ≠ [] ∧
      (Exn.lookingGlass ex ∈ [LookingGlassException.validation message,
        LookingGlassException.blocked message, LookingGlassException.failed message] ∨
      ex = LookingGlassException.unavailable message)

/-- The ways in which the API refuses a request: an exception of its own or of the framework, a
status without a body, and the limits on rate and concurrency. -/
inductive IsRefusal : Problem → Prop
  | raised {error : RequestError} {isRequestAborted : Bool} {problem : Problem}
      (hown : ∀ ex, error = .exception (.lookingGlass ex) → IsOwn ex)
      (h : ProblemExceptionHandler.problem isRequestAborted error = some problem) :
      IsRefusal problem
  | statusCode (status : ℕ) : IsRefusal (ProblemExceptionHandler.statusCodePage status)
  | rateLimited (path : PathString) (settings : RateLimitingSettings) {retry : Option ℤ}
      (h : ∀ ticks ∈ retry, 0 ≤ ticks) :
      IsRefusal (RateLimitingSetup.writeRejection path settings retry)
  | tooMany : IsRefusal ConcurrencyGuard.tooMany

/-- The page knows the code and can show the rest. -/
def CanShow (problem : Problem) : Prop := ∃ code, IsPresentable problem code

theorem canShow_titled {status : ℕ} {code detail : Str} {retry : Option ℤ}
    (hcode : (knownCode code).isSome) (hdetail : trim Validation.isSpace detail ≠ [])
    (hretry : ∀ seconds ∈ retry, 0 ≤ seconds) :
    CanShow (ProblemExceptionHandler.titled status code detail retry) := by
  obtain ⟨known, hknown⟩ := Option.isSome_iff_exists.mp hcode
  exact ⟨known, hknown, title_ne_nil code, hdetail, hretry⟩

theorem canShow_of_isOwn {ex : LookingGlassException} (h : IsOwn ex) :
    CanShow (ProblemExceptionHandler.titled ex.status ex.code ex.message ex.retryAfterSeconds) := by
  have hfive : ∀ seconds ∈ some (5 : ℤ), 0 ≤ seconds := by decide
  rcases h with h | h | ⟨message, hmessage, h | rfl⟩
  · rcases List.mem_pair.mp h with h | h <;> obtain rfl := Exn.lookingGlass.inj h
    · exact canShow_titled rfl (ne_nil_of_head rfl (by decide)) hfive
    · exact canShow_titled rfl (ne_nil_of_head rfl (by decide)) nofun
  · obtain rfl := Exn.lookingGlass.inj (Except.error.inj h)
    exact canShow_titled rfl (ne_nil_of_head rfl (by decide)) nofun
  · simp only [List.mem_cons, List.not_mem_nil, or_false] at h
    rcases h with h | h | h <;> obtain rfl := Exn.lookingGlass.inj h <;>
      exact canShow_titled rfl hmessage nofun
  · exact canShow_titled rfl hmessage hfive

theorem canShow_badHttpRequest (statusCode : ℕ) :
    CanShow (ProblemExceptionHandler.badHttpRequest statusCode) := by
  unfold ProblemExceptionHandler.badHttpRequest
  repeat' split
  all_goals exact canShow_titled rfl (ne_nil_of_head rfl (by decide)) nofun

theorem canShow_statusCodePage (status : ℕ) :
    CanShow (ProblemExceptionHandler.statusCodePage status) := by
  unfold ProblemExceptionHandler.statusCodePage
  repeat' split
  all_goals exact canShow_titled rfl (ne_nil_of_head rfl (by decide)) nofun

theorem canShow_writeRejection (path : PathString) (settings : RateLimitingSettings)
    {retry : Option ℤ} (h : ∀ ticks ∈ retry, 0 ≤ ticks) :
    CanShow (RateLimitingSetup.writeRejection path settings retry) := by
  refine ⟨.rateLimited, rfl, title_ne_nil ProblemCodes.rateLimited,
    ne_nil_of_head (c := ofChar 'Y') rfl (by decide), fun seconds hseconds => ?_⟩
  obtain rfl := Option.some.inj hseconds
  cases retry with
  | none => exact Int.natCast_nonneg _
  | some ticks =>
    have hticks : (0 : ℚ) ≤ ticks / 10000000 :=
      div_nonneg (by exact_mod_cast h ticks rfl) (by norm_num)
    exact Int.ceil_nonneg hticks

theorem canShow_of_isRefusal {problem : Problem} (h : IsRefusal problem) : CanShow problem := by
  cases h with
  | @raised error isRequestAborted problem hown h =>
    cases error with
    | badHttpRequest statusCode =>
      obtain rfl := Option.some.inj h
      exact canShow_badHttpRequest statusCode
    | exception ex =>
      have hinternal : CanShow ProblemExceptionHandler.internal :=
        canShow_titled rfl (ne_nil_of_head rfl (by decide)) nofun
      cases ex with
      | lookingGlass ex =>
        obtain rfl := Option.some.inj h
        exact canShow_of_isOwn (hown ex rfl)
      | operationCanceled =>
        cases isRequestAborted with
        | true => exact absurd h nofun
        | false => exact Option.some.inj h ▸ hinternal
      | _ => exact Option.some.inj h ▸ hinternal
  | statusCode status => exact canShow_statusCodePage status
  | rateLimited path settings h => exact canShow_writeRejection path settings h
  | tooMany =>
    exact ⟨.rateLimited, rfl, title_ne_nil ProblemCodes.rateLimited,
      ne_nil_of_head rfl (by decide), by decide⟩

variable {problem : Problem} {traceIdentifier : Str}

theorem text_of_isPresentable {code : ApiErrorCode} (h : IsPresentable problem code) :
    code.text = problem.code := by
  simpa using List.find?_some h.code

/-- **Whatever the API refuses a request for**, the page shows the code, the title, the text, the
status and the time to wait that the API has written, and its request ID. -/
theorem exists_shown_of_isRefusal (h : IsRefusal problem)
    (hid : trim Validation.isSpace traceIdentifier ≠ []) (requestId errorCode : Option Str) :
    ∃ code : ApiErrorCode, code.text = problem.code ∧
      toApiError (.axiosError errorCode
        (some (ProblemResults.create requestId traceIdentifier problem).delivered)) =
      shown problem code traceIdentifier := by
  obtain ⟨code, hcode⟩ := canShow_of_isRefusal h
  exact ⟨code, text_of_isPresentable hcode, toApiError_delivered hcode hid requestId errorCode⟩

theorem shown_tooMany :
    ∃ code : ApiErrorCode, code.text = ofString "rate_limited" ∧
      toApiError (.axiosError none
        (some (ProblemResults.create (some "a1") "a1" ConcurrencyGuard.tooMany).delivered)) =
      shown ConcurrencyGuard.tooMany code "a1" :=
  exists_shown_of_isRefusal .tooMany (by decide) (some "a1") none

/-! ### A diagnostic that failed

A problem of the other service on its way through the API. -/

/-- The statuses of the code's own exceptions are those of refusals, and the only time to wait that
any of them gives is five seconds. -/
theorem bounds_of_isOwn {ex : LookingGlassException} (h : IsOwn ex) :
    400 ≤ ex.status ∧ ∀ seconds ∈ ex.retryAfterSeconds, seconds = 5 := by
  have hfive : ∀ seconds ∈ some (5 : ℤ), seconds = 5 := fun _ h => (Option.some.inj h).symm
  rcases h with h | h | ⟨message, -, h | rfl⟩
  · rcases List.mem_pair.mp h with h | h <;> obtain rfl := Exn.lookingGlass.inj h
    · exact ⟨by decide, hfive⟩
    · exact ⟨by decide, nofun⟩
  · obtain rfl := Exn.lookingGlass.inj (Except.error.inj h)
    exact ⟨by decide, nofun⟩
  · simp only [List.mem_cons, List.not_mem_nil, or_false] at h
    rcases h with h | h | h <;> obtain rfl := Exn.lookingGlass.inj h <;>
      exact ⟨by simp, nofun⟩
  · exact ⟨by simp [LookingGlassException.unavailable], hfive⟩

/-- What the diagnostics service raises can be sent. -/
theorem isSendable_of_problem {error : RequestError} {isRequestAborted : Bool}
    (hown : ∀ ex, error = .exception (.lookingGlass ex) → IsOwn ex)
    (h : ProblemExceptionHandler.problem isRequestAborted error = some problem) :
    problem.IsSendable := by
  cases error with
  | badHttpRequest statusCode =>
    obtain rfl := Option.some.inj h
    unfold ProblemExceptionHandler.badHttpRequest
    repeat' split
    all_goals exact ⟨by decide, nofun⟩
  | exception ex =>
    have hinternal : ProblemExceptionHandler.internal.IsSendable := ⟨by decide, nofun⟩
    cases ex with
    | lookingGlass ex =>
      obtain rfl := Option.some.inj h
      obtain ⟨hstatus, hretry⟩ := bounds_of_isOwn (hown ex rfl)
      refine ⟨fun hok => ?_, fun seconds hseconds => ?_⟩
      · exact absurd (hstatus.trans hok.2) (by decide)
      · rw [hretry seconds hseconds]
        decide
    | operationCanceled =>
      cases isRequestAborted with
      | true => exact absurd h nofun
      | false => exact Option.some.inj h ▸ hinternal
    | _ => exact Option.some.inj h ▸ hinternal

section

variable {rt : Runtime} {crypto : Crypto} {policy : DestinationPolicy} {context : HttpContext}
  {backendIdentifier requestId : Str} {kind : DiagnosticKind} {body sentBody : Option kind.Body}
  {format : JsonFormat kind.Response} {error : RequestError}
  {isBackendAborted isCancellationRequested : Bool} {es : List (Event (Relay.sum Hasher))}
  {r : Except Exn kind.Response}

theorem toApiError_of_isSendable
    (hproblem : ProblemExceptionHandler.problem isBackendAborted error = some problem)
    (hkeeps : format.Keeps (ProblemResults.document backendIdentifier problem []))
    (hid : trim Validation.isSpace traceIdentifier ≠ [])
    (hruns : Task.Runs
      (DiagnosticRelay.relay rt crypto policy context traceIdentifier kind body) es r)
    (hpost : (⟨.inl (.post kind sentBody requestId),
      DiagnosticsClient.sendAsync format.reader isCancellationRequested
        (.response ((ProblemExceptionHandler.handleAsync backendIdentifier isBackendAborted
          error).sent format))⟩ : Event (Relay.sum Hasher)) ∈ es)
    (isRequestAborted : Bool) (errorCode : Option Str) (hsend : problem.IsSendable)
    {code : ApiErrorCode} (hcode : IsPresentable problem code) :
    ∃ ex, r = .error ex ∧ toApiError (.axiosError errorCode
        (some (ProblemExceptionHandler.handleAsync traceIdentifier isRequestAborted
          (.exception ex)).delivered)) =
      shown problem code traceIdentifier := by
  refine ⟨_, ProblemExceptionHandler.rethrown_of_runs hproblem hsend hkeeps hruns hpost, ?_⟩
  rw [ProblemExceptionHandler.handleAsync, ProblemExceptionHandler.problem_exception hproblem]
  exact toApiError_delivered hcode hid none errorCode

/-- **What is shown for a diagnostic that failed in the other service**: the problem that it failed
with there, whatever problem that is, as long as it can be sent and shown. Both are so of each
problem that a service of this code raises. -/
theorem toApiError_of_relayed
    (hproblem : ProblemExceptionHandler.problem isBackendAborted error = some problem)
    (hkeeps : format.Keeps (ProblemResults.document backendIdentifier problem []))
    (hid : trim Validation.isSpace traceIdentifier ≠ [])
    (hruns : Task.Runs
      (DiagnosticRelay.relay rt crypto policy context traceIdentifier kind body) es r)
    (hpost : (⟨.inl (.post kind sentBody requestId),
      DiagnosticsClient.sendAsync format.reader isCancellationRequested
        (.response ((ProblemExceptionHandler.handleAsync backendIdentifier isBackendAborted
          error).sent format))⟩ : Event (Relay.sum Hasher)) ∈ es)
    (isRequestAborted : Bool) (errorCode : Option Str) :
    (problem.IsSendable → ∀ code, IsPresentable problem code →
      ∃ ex, r = .error ex ∧ toApiError (.axiosError errorCode
          (some (ProblemExceptionHandler.handleAsync traceIdentifier isRequestAborted
            (.exception ex)).delivered)) =
        shown problem code traceIdentifier) ∧
    ((∀ ex, error = .exception (.lookingGlass ex) → IsOwn ex) →
      ∃ code : ApiErrorCode, code.text = problem.code ∧
        ∃ ex, r = .error ex ∧ toApiError (.axiosError errorCode
            (some (ProblemExceptionHandler.handleAsync traceIdentifier isRequestAborted
              (.exception ex)).delivered)) =
          shown problem code traceIdentifier) := by
  have hshown : problem.IsSendable → ∀ code, IsPresentable problem code → _ := fun hsend _ hcode =>
    toApiError_of_isSendable hproblem hkeeps hid hruns hpost isRequestAborted errorCode hsend hcode
  refine ⟨hshown, fun hown => ?_⟩
  obtain ⟨code, hcode⟩ := canShow_of_isRefusal (.raised hown hproblem)
  exact ⟨code, text_of_isPresentable hcode,
    hshown (isSendable_of_problem hown hproblem) code hcode⟩

end

set_option maxRecDepth 4096 in
theorem toApiError_of_timeout :
    ∃ code : ApiErrorCode, code.text = ofString "timeout" ∧
      ∃ ex, ((DiagnosticRelay.relay .reference ClientIpHasher.exampleCrypto
          DiagnosticRelay.examplePolicy ⟨"/api/v1/diagnostics/ping", none⟩ "a1" .ping
          (some DiagnosticRelay.exampleBody)).run.simulate
            ProblemExceptionHandler.exampleAnswer).2 = .error ex ∧
        toApiError (.axiosError none
          (some (ProblemExceptionHandler.handleAsync "a1" false (.exception ex)).delivered)) =
        shown ProblemExceptionHandler.exampleProblem code "a1" :=
  have hid : trim Validation.isSpace (ofString "a1") ≠ [] := by decide
  have hown : ∀ ex, RequestError.exception LookingGlassException.timeoutError =
      .exception (.lookingGlass ex) → IsOwn ex := fun _ hex =>
    .inl (List.mem_pair.mpr (.inr (RequestError.exception.inj hex).symm))
  (toApiError_of_relayed rfl (ProblemExceptionHandler.keeps_exampleFormat _ _) hid
    (Prog.run_simulate ProblemExceptionHandler.exampleAnswer _) (.tail _ (.tail _ (.head _))) false
    none).2 hown

end Errors

end LookingGlass
