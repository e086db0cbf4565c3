import LookingGlass.Contracts.Numerals
import LookingGlass.Web.DestinationForm
import LookingGlass.Web.UseDiagnostic

/-!
# What the pages make of a failed request

Whatever a request to the API is rejected with, the pages show one kind of error. A response may
come from the API or from anything in front of it, so nothing is taken for granted: a member counts
if it is of the right type and not blank, a code if it is one of those that the API uses, and what
is missing is made up for from the headers and the status.

Two codes are never read from a response: that the visitor has given up the request, and that there
was no response. The rejection has been sorted out once before the hook of the form sees it, so the
code for the former is what tells the hook that a run was cancelled.

## Values

The body of a response is any value that JSON can stand for, and it need not be JSON at all. So the
members are read from a value of which nothing is known. `Number` of a string accepts more than the
digits of a number: blanks around it, a sign, an exponent, and three other radixes. A time to wait
may come as such a string.

The errors of fields are the one part of a response that is read as a list of lists. What is not of
that shape is left out, entry by entry, so that what is kept is never empty.

## Main definitions

* `Errors.toApiError` — the error for what a request was rejected with

## Main results

* `Errors.sound_ofResponse` — what the page may rely on, for any response
* `Errors.isAbortError_intercept` — a rejection is sorted out twice as it is once
* `Errors.settled_of_reached` — no response is taken for a cancellation, in any history of the form
-/

namespace LookingGlass

open Utf16 AddressText Validation

/-! ### Values

What `JSON.parse` makes of a text, and how a number is made of such a value. -/

inductive JsValue
  | undefined
  | null
  | bool (value : Bool)
  | number (value : Double)
  | string (text : Str)
  | array (items : List JsValue)
  /-- The members in the order of `Object.entries`; no name comes twice. -/
  | object (members : List (Str × JsValue))

namespace JsValue

/-- The member of a record. -/
def get (members : List (Str × JsValue)) (name : Str) : JsValue :=
  ((members.find? fun member => member.1 == name).map Prod.snd).getD undefined

/-- The digits of a number in another radix, after its prefix. -/
def readRadix : Str → Option (ℕ × Str)
  | zero :: letter :: digits =>
    if zero ≠ ofChar '0' then none
    else if asciiLower letter = ofChar 'x' then some (16, digits)
    else if asciiLower letter = ofChar 'o' then some (8, digits)
    else if asciiLower letter = ofChar 'b' then some (2, digits)
    else none
  | _ => none

/-- The value of digits of a radix, if there are any and no others. -/
def ofRadix (radix : ℕ) (digits : Str) : Double :=
  match digits.mapM hexDigit? with
  | some values =>
    if digits ≠ [] ∧ values.all (· < radix) then
      .nearest (values.foldl (fun n value => radix * n + value) 0 : ℕ)
    else .nan
  | none => .nan

/-- `Number`, of a string. -/
def toNumber (s : Str) : Double :=
  let text := trim Validation.isSpace s
  if text = [] then 0
  else match readRadix text with
  | some (radix, digits) => ofRadix radix digits
  | none =>
    let (negative, s) := Numerals.readSign text
    if s = "Infinity" then .infinity negative
    else
      let (whole, s) := Numerals.readWhole false s
      let (fraction, s) := Numerals.readFraction s
      let (negativeExponent, exponent, s) := Numerals.readExponent s
      if whole ++ fraction = [] ∨ s ≠ [] then .nan
      else
        let magnitude :=
          Numerals.ofDigits (whole ++ fraction) fraction.length negativeExponent exponent
        if negative then -magnitude else magnitude

example : toNumber " -Infinity" = .infinity true := by decide

end JsValue

/-! ### Errors

The codes, what an error has besides its code, and how it is put together. -/

inductive ApiErrorCode
  | validationFailed
  | destinationBlocked
  | unsupportedMediaType
  | payloadTooLarge
  | rateLimited
  | busy
  | timeout
  | diagnosticFailed
  | serviceUnavailable
  | bgpUnavailable
  | internalError
  | networkError
  | aborted
  | unknown
  deriving DecidableEq

def ApiErrorCode.text : ApiErrorCode → Str
  | validationFailed => "validation_failed"
  | destinationBlocked => "destination_blocked"
  | unsupportedMediaType => "unsupported_media_type"
  | payloadTooLarge => "payload_too_large"
  | rateLimited => "rate_limited"
  | busy => "busy"
  | timeout => "timeout"
  | diagnosticFailed => "diagnostic_failed"
  | serviceUnavailable => "service_unavailable"
  | bgpUnavailable => "bgp_unavailable"
  | internalError => "internal_error"
  | networkError => "network_error"
  | aborted => "aborted"
  | unknown => "unknown"

structure PlainApiError where
  code : ApiErrorCode
  message : Str
  status : Option ℕ := none
  title : Option Str := none
  requestId : Option Str := none
  retryAfterSeconds : Option Double := none
  fieldErrors : Option (List (Str × List Str)) := none
  deriving DecidableEq

structure AxiosResponse where
  status : ℕ
  headers : Option (List (Str × JsValue))
  /-- The value of the body if it is JSON, and its text otherwise. -/
  data : JsValue

/-- What a promise may be rejected with, as far as the code tells values apart. Anything may be
thrown in the language, so the last case is for what is none of the others. -/
inductive Caught
  | apiError (error : PlainApiError)
  /-- A `CanceledError`, which is what aborting the signal of a request leads to. -/
  | canceled
  | axiosError (code : Option Str) (response : Option AxiosResponse)
  | error (isDomException : Bool) (name message : Str)
  | other

namespace Errors

/-- `KNOWN_CODES` -/
def knownCodes : List ApiErrorCode :=
  [.validationFailed, .destinationBlocked, .unsupportedMediaType, .payloadTooLarge, .rateLimited,
    .busy, .timeout, .diagnosticFailed, .serviceUnavailable, .bgpUnavailable, .internalError]

/-- The code of a text, if it is a known one. -/
def knownCode (text : Str) : Option ApiErrorCode := knownCodes.find? fun code => code.text == text

def asString : JsValue → Option Str
  | .string text => if trim Validation.isSpace text ≠ [] then some text else none
  | _ => none

def asNonNegativeNumber (value : JsValue) : Option Double :=
  let n : JsValue := match value with
    | .string text => .number (JsValue.toNumber text)
    | value => value
  match n with
  | .number (.finite q) => if 0 ≤ q then some (.finite q) else none
  | _ => none

def codeFromStatus (status : ℕ) : ApiErrorCode :=
  if status = 400 then .validationFailed
  else if status = 413 then .payloadTooLarge
  else if status = 415 then .unsupportedMediaType
  else if status = 422 then .destinationBlocked
  else if status = 429 then .rateLimited
  else if status = 502 ∨ status = 503 then .serviceUnavailable
  else if status = 504 then .timeout
  else if 500 ≤ status then .internalError
  else .unknown

/-- The strings of a list. -/
def strings (items : List JsValue) : List Str :=
  items.filterMap fun item => match item with
    | .string text => some text
    | _ => none

/-- Assigning to `__proto__` does not make a member. -/
def parseFieldErrors : JsValue → Option (List (Str × List Str))
  | .object members =>
    let result := members.filterMap fun (key, messages) => match messages with
      | .array items =>
        if strings items ≠ [] ∧ key ≠ "__proto__" then some (key, strings items) else none
      | _ => none
    if result ≠ [] then some result else none
  | _ => none

def isAbortError : Caught → Bool
  | .apiError error => error.code = .aborted
  | .canceled => true
  | .error isDomException name _ => isDomException && name == "AbortError"
  | _ => false

/-- The error for a response. -/
def ofResponse (response : AxiosResponse) : PlainApiError :=
  let header (name : Str) : JsValue :=
    match response.headers with
    | some headers => JsValue.get headers name
    | none => .undefined
  let problem : List (Str × JsValue) :=
    match response.data with
    | .object members => members
    | _ => []
  let rawCode := asString (JsValue.get problem "code")
  let detail := asString (JsValue.get problem "detail")
  let title := asString (JsValue.get problem "title")
  { code := (rawCode.bind knownCode).getD (codeFromStatus response.status)
    status := response.status
    title := title
    message := (detail.or title).getD
      (concat ["The server responded with status ", decimal response.status, "."])
    requestId := (asString (JsValue.get problem "requestId")).or (asString (header "x-request-id"))
    retryAfterSeconds := (asNonNegativeNumber (JsValue.get problem "retryAfterSeconds")).or
      (asNonNegativeNumber (header "retry-after"))
    fieldErrors := parseFieldErrors (JsValue.get problem "errors") }

/-- As `toPlainError` copies the members that there are, it is the same. -/
def toApiError : Caught → PlainApiError
  | .apiError error => error
  | .canceled => { code := .aborted, message := "The request was cancelled." }
  | .axiosError _ (some response) => ofResponse response
  | .axiosError code none =>
    if code = some "ECONNABORTED" ∨ code = some "ETIMEDOUT" then
      { code := .timeout, message := "The server took too long to respond." }
    else { code := .networkError, message := "The Looking Glass could not be reached." }
  | .error isDomException name message =>
    if isDomException && name == "AbortError" then
      { code := .aborted, message := "The request was cancelled." }
    else { code := .unknown, message := message }
  | .other => { code := .unknown, message := "An unexpected error occurred." }

/-- What the response interceptor rejects with. -/
def intercept (caught : Caught) : Caught := .apiError (toApiError caught)

/-! ### Any response

What holds of the error whatever the response is. -/

theorem asString_eq_some_iff {value : JsValue} {text : Str} :
    asString value = some text ↔ value = .string text ∧ trim Validation.isSpace text ≠ [] := by
  cases value with
  | string text' =>
    rw [asString, ite_eq_iff]
    simp only [Option.some.injEq, JsValue.string.injEq, reduceCtorEq, and_false, or_false]
    exact ⟨fun ⟨h, heq⟩ => ⟨heq, heq ▸ h⟩, fun ⟨heq, h⟩ => ⟨heq ▸ h, heq⟩⟩
  | _ => simp [asString]

theorem exists_of_asNonNegativeNumber {value : JsValue} {x : Double}
    (h : asNonNegativeNumber value = some x) : ∃ q : ℚ, 0 ≤ q ∧ x = .finite q := by
  have hnumber : ∀ n : JsValue, (match n with
      | .number (.finite q) => if 0 ≤ q then some (Double.finite q) else none
      | _ => none) = some x → ∃ q : ℚ, 0 ≤ q ∧ x = .finite q := by
    intro n h
    split at h
    · next q =>
      split at h
      · next hq => exact ⟨q, hq, (Option.some.inj h).symm⟩
      · exact absurd h (by simp)
    · exact absurd h (by simp)
  exact hnumber _ h

theorem ne_nil_of_parseFieldErrors {value : JsValue} {errors : List (Str × List Str)}
    (h : parseFieldErrors value = some errors) :
    errors ≠ [] ∧ ∀ entry ∈ errors, entry.2 ≠ [] := by
  cases value with
  | object members =>
    rw [parseFieldErrors, ite_eq_iff] at h
    simp only [Option.some.injEq, reduceCtorEq, and_false, or_false] at h
    obtain ⟨hne, rfl⟩ := h
    refine ⟨hne, fun entry hentry => ?_⟩
    obtain ⟨⟨key, messages⟩, -, hentry⟩ := List.mem_filterMap.mp hentry
    cases messages with
    | array items =>
      simp only [ite_eq_iff, Option.some.injEq, reduceCtorEq, and_false, or_false] at hentry
      obtain ⟨⟨hstrings, -⟩, rfl⟩ := hentry
      exact hstrings
    | _ => exact absurd hentry nofun
  | _ => exact absurd h nofun

/-- A code that a response may stand for. -/
def IsFromResponse (code : ApiErrorCode) : Prop := code ∈ knownCodes ∨ code = .unknown

theorem isFromResponse_codeFromStatus (status : ℕ) : IsFromResponse (codeFromStatus status) := by
  have hall : ∀ code : ApiErrorCode, code ≠ .networkError → code ≠ .aborted →
      IsFromResponse code := by
    intro code
    cases code <;> simp [IsFromResponse, knownCodes]
  refine hall _ ?_ ?_ <;> unfold codeFromStatus <;> split_ifs <;> decide

/-- What the page may rely on, whoever has answered: a text that is there is not blank, a number is
one, and a list has entries. -/
structure Sound (response : AxiosResponse) (error : PlainApiError) : Prop where
  code : IsFromResponse error.code
  status : error.status = some response.status
  message : trim Validation.isSpace error.message ≠ []
  title : ∀ text ∈ error.title, trim Validation.isSpace text ≠ []
  requestId : ∀ text ∈ error.requestId, trim Validation.isSpace text ≠ []
  retryAfterSeconds : ∀ x ∈ error.retryAfterSeconds, ∃ q : ℚ, 0 ≤ q ∧ x = .finite q
  fieldErrors : ∀ errors ∈ error.fieldErrors, errors ≠ [] ∧ ∀ entry ∈ errors, entry.2 ≠ []

theorem sound_ofResponse (response : AxiosResponse) : Sound response (ofResponse response) := by
  have htext : ∀ {value : JsValue} {text : Str}, asString value = some text →
      trim Validation.isSpace text ≠ [] := fun h => (asString_eq_some_iff.mp h).2
  refine ⟨?_, rfl, ?_, fun text h => htext h, fun text h => ?_, fun x h => ?_,
    fun errors h => ne_nil_of_parseFieldErrors h⟩
  · simp only [ofResponse]
    cases hcode : (asString (JsValue.get _ "code")).bind knownCode with
    | none => exact isFromResponse_codeFromStatus _
    | some code =>
      obtain ⟨text, -, hknown⟩ := Option.bind_eq_some_iff.mp hcode
      exact .inl (List.mem_of_find?_eq_some hknown)
  · simp only [ofResponse]
    cases hdetail : asString (JsValue.get _ "detail") with
    | some detail => exact htext hdetail
    | none =>
      cases htitle : asString (JsValue.get _ "title") with
      | some title => exact htext htitle
      | none =>
        intro hblank
        have hspace := trim_eq_nil_iff.mp hblank (ofChar 'T') (List.mem_cons_self ..)
        exact absurd hspace (by decide)
  · rcases Option.or_eq_some_iff.mp h with h | ⟨-, h⟩ <;> exact htext h
  · rcases Option.or_eq_some_iff.mp h with h | ⟨-, h⟩ <;> exact exists_of_asNonNegativeNumber h

/-- **A rejection is taken for a cancellation after it has been sorted out exactly if it was
one.** -/
theorem isAbortError_intercept (caught : Caught) :
    isAbortError (intercept caught) = isAbortError caught := by
  have hcode : ∀ {code : ApiErrorCode}, IsFromResponse code → code ≠ .aborted := by
    rintro code (hknown | rfl)
    · rintro rfl
      exact absurd hknown (by decide)
    · decide
  cases caught with
  | apiError error => rfl
  | canceled => rfl
  | axiosError code response =>
    refine decide_eq_false ?_
    cases response with
    | some response => exact hcode (sound_ofResponse response).code
    | none =>
      simp only [toApiError]
      split <;> decide
  | error isDomException name message =>
    show decide ((toApiError _).code = .aborted) = (isDomException && name == ofString "AbortError")
    simp only [toApiError]
    split
    · next habort => rw [habort]; rfl
    · next habort => rw [Bool.not_eq_true] at habort; rw [habort]; rfl
  | other => rfl

/-! ### The form

The hook with the functions of this module, and rejections that have come through the interceptor.
-/

section

open UseDiagnostic

variable {Request Result : Type} {history : List (Action Request Result Caught)}
  {hook hook' : Hook Request Result PlainApiError} {action : Action Request Result Caught}

/-- What the hook imports. -/
def apiErrors : ApiErrors Caught PlainApiError := ⟨isAbortError, toApiError⟩

/-- Every rejection has come by the interceptor, which is how the functions of the API client are
made. -/
def Intercepted (history : List (Action Request Result Caught)) : Prop :=
  ∀ controller caught, .settle controller (.rejected caught) ∈ history →
    ∃ raw, caught = intercept raw

/-- The most recent run was rejected, and so was the request before the interceptor. -/
def Rejected (history : List (Action Request Result Caught)) (run : Run Request) (raw : Caught) :
    Prop :=
  latestRun history = some run ∧
    .settle run.controller (.rejected (intercept raw)) ∈ history

/-- What the form makes of rejections. Each clause leads back to what the request was rejected with
before the interceptor has seen it. -/
structure Settled (history : List (Action Request Result Caught))
    (hook : Hook Request Result PlainApiError) : Prop where
  cancelled : hook.state.status = .cancelled → ∃ run raw, Rejected history run raw ∧
    (run.controller ∈ hook.aborted ∨ isAbortError raw = true)
  error : ∀ error ∈ hook.state.error, ∃ run raw, Rejected history run raw ∧
    isAbortError raw = false ∧ error = toApiError raw ∧
    ∀ code response, raw = .axiosError code (some response) → Sound response error

theorem Rejected.cons {run : Run Request} {raw : Caught} (h : Rejected history run raw)
    (hlatest : latestRun (action :: history) = latestRun history) :
    Rejected (action :: history) run raw :=
  ⟨hlatest.trans h.1, List.mem_cons_of_mem _ h.2⟩

/-- Nothing has happened to the state. -/
theorem Settled.of_state_eq (h : Settled history hook) (hstate : hook'.state = hook.state)
    (haborted : ∀ controller ∈ hook.aborted, controller ∈ hook'.aborted)
    (hlatest : latestRun (action :: history) = latestRun history) :
    Settled (action :: history) hook' where
  cancelled hstatus := by
    obtain ⟨run, raw, hrejected, hcause⟩ := h.cancelled (hstate ▸ hstatus)
    exact ⟨run, raw, hrejected.cons hlatest, hcause.imp_left (haborted _)⟩
  error error herror := by
    obtain ⟨run, raw, hrejected, hrest⟩ := h.error error (hstate ▸ herror)
    exact ⟨run, raw, hrejected.cons hlatest, hrest⟩

/-- The most recent run settles. -/
theorem settled_resume {run : Run Request} {settlement : Settlement Result Caught}
    (hc : Consistent history hook) (hlatest : latestRun history = some run)
    (hi : Intercepted (.settle run.controller settlement :: history))
    (waiting : List (Run Request)) :
    Settled (.settle run.controller settlement :: history)
      (({ hook with waiting := waiting } : Hook Request Result PlainApiError).resume apiErrors run
        settlement) := by
  have href : ¬ hook.controllerRef ≠ some run.controller := by
    rw [hc.controllerRef, hlatest, not_not]
    rfl
  cases settlement with
  | resolved result =>
    rw [Hook.resume, if_neg href]
    constructor
    · intro h
      cases h
    · intro _ h
      cases h
  | rejected caught =>
    obtain ⟨raw, rfl⟩ := hi run.controller caught (List.mem_cons_self ..)
    have hrejected : Rejected (.settle run.controller (.rejected (intercept raw)) :: history) run
        raw := ⟨hlatest, List.mem_cons_self ..⟩
    rw [Hook.resume, if_neg href]
    split
    · next hcause =>
      constructor
      · exact fun _ => ⟨run, raw, hrejected, hcause.imp_right fun habort =>
          (isAbortError_intercept raw).symm.trans habort⟩
      · intro _ h
        cases h
    · next hcause =>
      constructor
      · intro h
        cases h
      · intro error herror
        obtain rfl := Option.some.inj herror
        refine ⟨run, raw, hrejected, ?_, rfl, ?_⟩
        · rw [← isAbortError_intercept raw]
          exact Bool.not_eq_true _ ▸ (not_or.mp hcause).2
        · rintro code response rfl
          exact sound_ofResponse response

/-- **No response is taken for a cancellation.** After any calls and settlements, a run is shown as
cancelled only if the visitor has given it up, and an error that is shown is the one for the
rejection of the most recent run; if there was a response, whatever it was, the page can rely on the
error. -/
theorem settled_of_reached (h : Reached apiErrors history hook) (hi : Intercepted history) :
    Settled history hook := by
  induction h with
  | new => exact ⟨fun h => (nomatch h), fun _ h => (nomatch h)⟩
  | @step history action hook hook' before next ih =>
    have hsettled := ih fun controller caught hmem =>
      hi controller caught (List.mem_cons_of_mem _ hmem)
    have hc := (consistent_and_shows_of_reached before).1
    cases action with
    | run kind request =>
      obtain rfl := Option.some.inj next
      exact ⟨fun h => (nomatch h), fun _ h => (nomatch h)⟩
    | cancel =>
      obtain rfl := Option.some.inj next
      exact hsettled.of_state_eq rfl (fun _ h => List.mem_append_right _ h) rfl
    | reset =>
      obtain rfl := Option.some.inj next
      exact ⟨fun h => (nomatch h), fun _ h => (nomatch h)⟩
    | settle controller settlement =>
      obtain ⟨run, hwaiting, rfl, rfl⟩ := exists_of_step_settle next
      by_cases hrun : ∃ latest ∈ latestRun history, latest.controller = run.controller
      · obtain ⟨latest, hlatest, hsame⟩ := hrun
        obtain rfl := hc.waiting_latest run hwaiting latest hlatest hsame.symm
        exact settled_resume hc hlatest hi _
      · have hstate := state_eq_of_stale hc next fun latest hlatest hsame =>
          hrun ⟨latest, hlatest, hsame⟩
        refine hsettled.of_state_eq hstate (fun _ h => ?_) rfl
        rw [resume_eq]
        exact h

/-- A response that says that it is a cancellation. -/
def abortedResponse : AxiosResponse where
  status := 503
  headers := none
  data := .object [("code", .string "aborted"), ("detail", .string " ")]

def rejectedHistory : List (Action String String Caught) :=
  [.settle 0 (.rejected (intercept (.axiosError none (some abortedResponse)))), .run .ping "a"]

theorem settled_of_rejected :
    ∃ hook, Reached apiErrors rejectedHistory hook ∧ Settled rejectedHistory hook ∧
      hook.state.status = .error := by
  have h : Reached apiErrors rejectedHistory _ := .step (.step .new rfl) rfl
  refine ⟨_, h, settled_of_reached h fun controller caught hcaught => ?_, rfl⟩
  obtain ⟨rfl, rfl⟩ : controller = 0 ∧
      caught = intercept (.axiosError none (some abortedResponse)) := by
    simpa [rejectedHistory] using hcaught
  exact ⟨_, rfl⟩

end

end Errors

end LookingGlass
