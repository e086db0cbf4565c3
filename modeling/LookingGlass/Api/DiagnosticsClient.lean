import LookingGlass.Contracts.Models
import LookingGlass.Foundations.JsonDocument

/-!
# The client of the diagnostics service

What the service may reply is a `Reply`: nothing, because the connection or the reading of the
headers fails or takes too long, or a status with a body, whose reading may fail in turn. What reads
JSON is a parameter, a parser of documents and one of responses; a parse that fails is a
`JsonException`.

The code is meant to end with a value or with a `LookingGlassException`. It does, except where the
body is read: a body that breaks off, and an element that is not of the kind that is asked for, are
exceptions of other types, and nobody catches those.

## What is documented

The contract of the client is in its comments and in its tests: it returns a value or throws an
exception of the service, with the code and the message of the problem document if the reply has
one, and with `service_unavailable` otherwise. `Documented` says this for one reply. Two exceptions
of other types are possible. Neither is a slip in the conditions; each is an exception for which
there is no `catch` clause, because nobody thought of it.

## The condition

`Harmless` is about the reply alone. For a refusal it asks that the body is complete and that the
three members, if the body is a document, are of the kinds that are asked for. For a value it asks
that the character set is a known one and that the body is complete, or that it breaks off where the
parser has refused it already: the text is read and parsed at the same time, so a body that is
malformed near its beginning is reported as such although the rest never comes.

## Main results

* `DiagnosticsClient.readProblemAsync_eq` — what the body of a refusal leads to
* `DiagnosticsClient.documented_iff` — when the client fails only in the documented way
-/

namespace LookingGlass

open Utf16

/-- The body of a response: all of its bytes, or those before its reading fails. A connection may
break while a body is read, and then there is an exception, but for a reader that has refused the
text before. -/
structure HttpContent where
  bytes : List UInt8
  isComplete : Bool := true

structure HttpResponse where
  statusCode : ℕ
  /-- The character set that the content type names. -/
  charSet : Option Str := none
  content : HttpContent

def HttpResponse.isSuccessStatusCode (response : HttpResponse) : Bool :=
  decide (200 ≤ response.statusCode ∧ response.statusCode ≤ 299)

inductive Reply
  /-- The connection fails, or the reading of the headers. -/
  | failed
  /-- The headers are not there when the time of the client is up. -/
  | timedOut
  | response (response : HttpResponse)

/-- What reads JSON: the parser of documents and the one of values, both of which are given and not
modelled. What is asked of a document besides is modelled: its members, and the exceptions that
reading them may raise. -/
structure JsonReader (T : Type) where
  /-- `JsonDocument.Parse`; `none` stands for its `JsonException`. -/
  parse : List UInt8 → Option Json
  /-- `JsonSerializer.Deserialize`, of text in a character set, with `some none` for `null`; `none`
  stands for its `JsonException`. -/
  deserialize : Option Str → List UInt8 → Option (Option T)
  /-- Text that breaks off after these bytes is refused before the end of them is reached. -/
  refusesEarly : Option Str → List UInt8 → Bool
  /-- The character sets that there are; to name another one is an exception. -/
  isCharSet : Str → Bool

namespace DiagnosticsClient

variable {T : Type}

/-- The bytes of a body, or the `IOException` of a body that breaks off, which is none of the
exceptions with a clause. -/
def readContent (content : HttpContent) : Except Exn (List UInt8) :=
  if content.isComplete then .ok content.bytes else .error .other

/-- `Content.ReadFromJsonAsync`, which reads and deserialises at the same time -/
def readFromJsonAsync (json : JsonReader T) (response : HttpResponse) : Except Exn (Option T) :=
  if !response.charSet.all json.isCharSet then .error .invalidOperation
  else if !response.content.isComplete &&
      json.refusesEarly response.charSet response.content.bytes then
    .error .json
  else do
    let bytes ← readContent response.content
    match json.deserialize response.charSet bytes with
    | some result => .ok result
    | none => .error .json

/-- `JsonDocument.ParseAsync`, which reads to the end first -/
def parseAsync (json : JsonReader T) (content : HttpContent) : Except Exn Json := do
  let bytes ← readContent content
  match json.parse bytes with
  | some root => .ok root
  | none => .error .json

/-- The value of an accessor, or its exception. -/
def access {α : Type} : Option α → Except Exn α
  | some a => .ok a
  | none => .error .invalidOperation

/-- What is read of a member, if there is one. -/
def property {α : Type} (root : Json) (name : Str) (read : Json → Option (Option α)) :
    Except Exn (Option α) := do
  match ← access (root.tryGetProperty name) with
  | some value => access (read value)
  | none => pure none

def readProblemAsync (json : JsonReader T) (response : HttpResponse) :
    Except Exn LookingGlassException := do
  let problem : Option LookingGlassException ← tryCatch (do
    let root ← parseAsync json response.content
    let code ← property root "code" Json.getString
    let detail ← property root "detail" Json.getString
    let retry ← property root "retryAfterSeconds" Json.tryGetInt32
    match code, detail with
    | some code, some detail => pure (some ⟨code, response.statusCode, detail, retry⟩)
    | _, _ => pure none)
    fun ex => match ex with
      | .json => pure none
      | ex => throw ex
  match problem with
  | some problem => pure problem
  | none =>
    pure (LookingGlassException.unavailable "The diagnostics service returned an unexpected error.")

/-- What sending the request returns or throws. -/
def send : Reply → Except Exn HttpResponse
  | .failed => .error .httpRequest
  | .timedOut => .error .operationCanceled
  | .response response => .ok response

def sendAsync (json : JsonReader T) (isCancellationRequested : Bool) (reply : Reply) :
    Except Exn T := do
  let response ← tryCatch (send reply) fun ex =>
    if (ex = .httpRequest ∨ ex = .operationCanceled) ∧ !isCancellationRequested then
      throw (Exn.lookingGlass (LookingGlassException.unavailable
        "The diagnostics service is not reachable right now."))
    else throw ex
  if response.isSuccessStatusCode then
    tryCatch (do
      let result ← readFromJsonAsync json response
      match result with
      | some result => pure result
      | none => throw (LookingGlassException.failed
          "The diagnostics service returned an empty response."))
      fun ex => match ex with
        | .json => throw (LookingGlassException.failed
            "The diagnostics service returned an unreadable response.")
        | ex => throw ex
  else do
    let problem ← readProblemAsync json response
    throw (Exn.lookingGlass problem)

/-! ### The body of a refusal

Three members are read, one after the other. The first of them that is of the wrong kind ends the
reading with an exception that nobody catches. -/

variable {json : JsonReader T} {response : HttpResponse} {reply : Reply} {root : Json} {name : Str}

theorem property_eq {α : Type} (root : Json) (name : Str) (read : Json → Option (Option α)) :
    property root name read =
      match root.tryGetProperty name with
      | none => .error .invalidOperation
      | some none => .ok none
      | some (some value) => access (read value) := by
  unfold property
  cases root.tryGetProperty name with
  | none => rfl
  | some value => cases value <;> rfl

/-- A member is read without an exception if it is of the kind that can be read. -/
theorem exists_property_iff {α : Type} {read : Json → Option (Option α)} {kind : Json → Prop}
    (hread : ∀ element, (read element).isSome ↔ kind element) :
    (∃ a, property root name read = .ok a) ↔ root.Offers name kind := by
  rw [property_eq, Json.Offers]
  cases root.tryGetProperty name with
  | none => simp
  | some value =>
    cases value with
    | none => simp
    | some v =>
      simp only [Option.some.injEq, exists_eq_left', Option.mem_def, forall_eq', ← hread]
      cases read v <;> simp [access]

theorem property_eq_error {α : Type} {read : Json → Option (Option α)}
    (h : ¬ ∃ a, property root name read = .ok a) :
    property root name read = .error .invalidOperation := by
  rw [property_eq] at h ⊢
  cases htry : root.tryGetProperty name with
  | none => rfl
  | some value =>
    cases value with
    | none => exact absurd ⟨none, by rw [htry]⟩ h
    | some v =>
      cases hv : read v with
      | none => simp [access, hv]
      | some a => exact absurd ⟨a, by simp [htry, access, hv]⟩ h

/-- The string that is read is the one that the body has. -/
theorem eq_stringMember_of_property {text : Option Str}
    (h : property root name Json.getString = .ok text) : text = root.stringMember name := by
  rw [property_eq] at h
  cases htry : root.tryGetProperty name with
  | none => simp [htry] at h
  | some value =>
    rw [Json.stringMember_eq htry]
    cases value with
    | none => simpa [htry] using h.symm
    | some v =>
      simp only [htry] at h
      cases hv : v.getString with
      | none => simp [access, hv] at h
      | some a => simpa [access, hv] using h.symm

/-- The element can be read as a problem: none of the three members raises an exception. It takes an
object for that, since asking another element for a member is one already. -/
structure IsReadable (root : Json) : Prop where
  code : root.Offers "code" Json.IsText
  detail : root.Offers "detail" Json.IsText
  retryAfterSeconds : root.Offers "retryAfterSeconds" Json.IsNumber

/-- What an element says about a refusal: the code and the detail, if both are there. -/
def problemOf (root : Json) : Option (Str × Str) := do
  let code ← root.stringMember "code"
  let detail ← root.stringMember "detail"
  return (code, detail)

def unexpectedError : LookingGlassException :=
  LookingGlassException.unavailable "The diagnostics service returned an unexpected error."

theorem parseAsync_eq {bytes : List UInt8} :
    parseAsync json ⟨bytes, true⟩ = match json.parse bytes with
      | some root => .ok root
      | none => .error .json := rfl

theorem readProblemAsync_of_isReadable {bytes : List UInt8} {charSet : Option Str} {status : ℕ}
    (hparse : json.parse bytes = some root) (h : IsReadable root) :
    ∃ retry, readProblemAsync json ⟨status, charSet, bytes, true⟩ =
      .ok (match problemOf root with
        | some (code, detail) => ⟨code, status, detail, retry⟩
        | none => unexpectedError) := by
  obtain ⟨code, hcode⟩ := (exists_property_iff fun _ => Json.isSome_getString_iff).mpr h.code
  obtain ⟨detail, hdetail⟩ := (exists_property_iff fun _ => Json.isSome_getString_iff).mpr h.detail
  obtain ⟨retry, hretry⟩ :=
    (exists_property_iff fun _ => Json.isSome_tryGetInt32_iff).mpr h.retryAfterSeconds
  refine ⟨retry, ?_⟩
  rw [problemOf, ← eq_stringMember_of_property hcode, ← eq_stringMember_of_property hdetail]
  simp only [readProblemAsync, parseAsync_eq, hparse]
  show (tryCatch (property root _ _ >>= _) _ >>= _) = _
  rw [hcode]
  show (tryCatch (property root _ _ >>= _) _ >>= _) = _
  rw [hdetail]
  show (tryCatch (property root _ _ >>= _) _ >>= _) = _
  rw [hretry]
  cases code <;> cases detail <;> rfl

/-- An element that cannot be read as a problem is an exception that nobody catches. -/
theorem readProblemAsync_of_not_isReadable {bytes : List UInt8} {charSet : Option Str} {status : ℕ}
    (hparse : json.parse bytes = some root) (h : ¬ IsReadable root) :
    readProblemAsync json ⟨status, charSet, bytes, true⟩ = .error .invalidOperation := by
  simp only [readProblemAsync, parseAsync_eq, hparse]
  show (tryCatch (property root _ _ >>= _) _ >>= _) = _
  by_cases hcode : ∃ a, property root "code" Json.getString = .ok a
  · obtain ⟨code, hcode⟩ := hcode
    rw [hcode]
    show (tryCatch (property root _ _ >>= _) _ >>= _) = _
    by_cases hdetail : ∃ a, property root "detail" Json.getString = .ok a
    · obtain ⟨detail, hdetail⟩ := hdetail
      rw [hdetail]
      show (tryCatch (property root _ _ >>= _) _ >>= _) = _
      rw [property_eq_error fun hretry => h ⟨?_, ?_, ?_⟩]
      · rfl
      · exact (exists_property_iff fun _ => Json.isSome_getString_iff).mp ⟨code, hcode⟩
      · exact (exists_property_iff fun _ => Json.isSome_getString_iff).mp ⟨detail, hdetail⟩
      · exact (exists_property_iff fun _ => Json.isSome_tryGetInt32_iff).mp hretry
    · rw [property_eq_error hdetail]
      rfl
  · rw [property_eq_error hcode]
    rfl

/-! ### What is documented

The contract, the condition, and that they are equivalent for every reply. -/

/-- What the body of a refusal says: nothing, if it is no document or breaks off. -/
def bodyProblem (json : JsonReader T) (content : HttpContent) : Option (Str × Str) :=
  if content.isComplete then json.parse content.bytes >>= problemOf else none

/-- The code and the detail of the body, or `service_unavailable` where the body has no problem to
tell of. -/
def Carries (problem : Option (Str × Str)) (ex : LookingGlassException) : Prop :=
  match problem with
  | some (code, detail) => ex.code = code ∧ ex.message = detail
  | none => ex.code = ProblemCodes.serviceUnavailable

/-- How the client is meant to end: with a value or an exception of its own kind, and with the
problem of the body where the reply was a refusal. -/
structure Documented (json : JsonReader T) (reply : Reply) (r : Except Exn T) : Prop where
  ends : (∃ value, r = .ok value) ∨ ∃ ex, r = .error (.lookingGlass ex)
  refused : ∀ response, reply = .response response → response.isSuccessStatusCode = false →
    ∃ ex, r = .error (.lookingGlass ex) ∧ Carries (bodyProblem json response.content) ex

/-- The reading of a body raises nothing but a `JsonException`: the character set is there, and the
body is, or as much of it as the reader looks at. -/
def ReadsAsJson (json : JsonReader T) (response : HttpResponse) : Prop :=
  response.charSet.all json.isCharSet = true ∧ (response.content.isComplete = true ∨
    json.refusesEarly response.charSet response.content.bytes = true)

/-- The reply raises nothing that is not caught. -/
def Harmless (json : JsonReader T) : Reply → Prop
  | .failed | .timedOut => True
  | .response response =>
    if response.isSuccessStatusCode then ReadsAsJson json response
    else
      response.content.isComplete = true ∧
        ∀ root, json.parse response.content.bytes = some root → IsReadable root

theorem not_documented {ex : Exn} (h : ∀ ex', ex ≠ .lookingGlass ex') :
    ¬ Documented json reply (.error ex) := by
  rintro ⟨⟨value, hvalue⟩ | ⟨ex', hex⟩, -⟩
  · exact absurd hvalue (by simp)
  · exact h ex' (Except.error.inj hex)

/-- Without a refusal there is only one thing to say. -/
theorem documented_of_ends {r : Except Exn T}
    (hreply : ∀ response, reply = .response response → response.isSuccessStatusCode = true)
    (h : (∃ value, r = .ok value) ∨ ∃ ex, r = .error (.lookingGlass ex)) :
    Documented json reply r :=
  ⟨h, fun response hresponse hstatus => by simp [hreply response hresponse] at hstatus⟩

theorem readFromJsonAsync_of_readsAsJson (h : ReadsAsJson json response) :
    (∃ result, readFromJsonAsync json response = .ok result) ∨
      readFromJsonAsync json response = .error .json := by
  obtain ⟨hcharSet, hbody⟩ := h
  cases hcomplete : response.content.isComplete with
  | true =>
    have hread : readFromJsonAsync json response =
        match json.deserialize response.charSet response.content.bytes with
        | some result => .ok result
        | none => .error .json := by
      rw [readFromJsonAsync, hcharSet, hcomplete, readContent, hcomplete]
      rfl
    rw [hread]
    cases json.deserialize response.charSet response.content.bytes with
    | none => exact .inr rfl
    | some result => exact .inl ⟨result, rfl⟩
  | false =>
    have hearly := hbody.resolve_left (by simp [hcomplete])
    rw [readFromJsonAsync, hcharSet, hcomplete, hearly]
    exact .inr rfl

theorem readFromJsonAsync_of_not_readsAsJson (h : ¬ ReadsAsJson json response) :
    readFromJsonAsync json response = .error .invalidOperation ∨
      readFromJsonAsync json response = .error .other := by
  by_cases hcharSet : response.charSet.all json.isCharSet = true
  · have hbody : response.content.isComplete = false ∧
        json.refusesEarly response.charSet response.content.bytes = false := by
      simpa [ReadsAsJson, hcharSet] using h
    rw [readFromJsonAsync, hcharSet, hbody.1, hbody.2, readContent, hbody.1]
    exact .inr rfl
  · rw [readFromJsonAsync, Bool.eq_false_iff.mpr hcharSet]
    exact .inl rfl

/-- A reply with a value in it. -/
theorem documented_iff_of_success (hstatus : response.isSuccessStatusCode = true) :
    Documented json (.response response) (sendAsync json false (.response response)) ↔
      ReadsAsJson json response := by
  have hsend : sendAsync json false (.response response) =
      tryCatch (readFromJsonAsync json response >>= fun result => match result with
        | some result => pure result
        | none => throw (LookingGlassException.failed
            "The diagnostics service returned an empty response."))
        fun ex => match ex with
          | .json => throw (LookingGlassException.failed
              "The diagnostics service returned an unreadable response.")
          | ex => throw ex := by
    show (if response.isSuccessStatusCode = true then _ else _) = _
    rw [if_pos hstatus]
  have hreply : ∀ other, Reply.response response = .response other →
      other.isSuccessStatusCode = true := by
    rintro other ⟨rfl⟩
    exact hstatus
  rw [hsend]
  by_cases hreads : ReadsAsJson json response
  · refine iff_of_true (documented_of_ends hreply ?_) hreads
    rcases readFromJsonAsync_of_readsAsJson hreads with ⟨result, hread⟩ | hread
    · rw [hread]
      cases result with
      | none => exact .inr ⟨_, rfl⟩
      | some value => exact .inl ⟨value, rfl⟩
    · rw [hread]
      exact .inr ⟨_, rfl⟩
  · refine iff_of_false ?_ hreads
    rcases readFromJsonAsync_of_not_readsAsJson hreads with hread | hread
    · rw [hread]
      exact not_documented (by simp)
    · rw [hread]
      exact not_documented (by simp)

/-- A refusal. -/
theorem documented_iff_of_refusal (hstatus : response.isSuccessStatusCode = false) :
    Documented json (.response response) (sendAsync json false (.response response)) ↔
      Harmless json (.response response) := by
  obtain ⟨status, charSet, bytes, isComplete⟩ := response
  rw [Harmless, hstatus, if_neg Bool.false_ne_true]
  have hsend : sendAsync json false (.response ⟨status, charSet, bytes, isComplete⟩) =
      (readProblemAsync json ⟨status, charSet, bytes, isComplete⟩ >>= fun problem =>
        throw (Exn.lookingGlass problem)) := by
    show (if _ = true then _ else _) = _
    rw [hstatus, if_neg Bool.false_ne_true]
  have hrefused : ∀ problem : LookingGlassException,
      Carries (bodyProblem json ⟨bytes, isComplete⟩) problem →
        Documented json (.response ⟨status, charSet, bytes, isComplete⟩)
          (.error (.lookingGlass problem) : Except Exn T) := by
    refine fun problem hcarries => ⟨.inr ⟨problem, rfl⟩, ?_⟩
    rintro other ⟨rfl⟩ -
    exact ⟨problem, rfl, hcarries⟩
  rw [hsend]
  cases isComplete with
  | false => exact iff_of_false (not_documented (by simp)) (by simp)
  | true =>
    cases hparse : json.parse bytes with
    | none =>
      have hread : readProblemAsync json ⟨status, charSet, bytes, true⟩ = .ok unexpectedError := by
        simp only [readProblemAsync, parseAsync_eq, hparse]
        rfl
      rw [hread]
      exact iff_of_true (hrefused _ (by simp [Carries, bodyProblem, hparse]; rfl)) (by simp)
    | some root =>
      by_cases hroot : IsReadable root
      · obtain ⟨retry, hread⟩ := readProblemAsync_of_isReadable hparse hroot
        rw [hread]
        refine iff_of_true (hrefused _ ?_) (by simpa [hparse] using hroot)
        cases hproblem : problemOf root with
        | none => simp [Carries, bodyProblem, hparse, hproblem]; rfl
        | some problem => simp [Carries, bodyProblem, hparse, hproblem]
      · rw [readProblemAsync_of_not_isReadable hparse hroot]
        exact iff_of_false (not_documented (by simp)) (by simpa [hparse] using hroot)

/-- **When the client fails only in the documented way**: exactly if the reply is harmless. -/
theorem documented_iff (json : JsonReader T) (reply : Reply) :
    Documented json reply (sendAsync json false reply) ↔ Harmless json reply := by
  cases reply with
  | failed | timedOut =>
    exact iff_of_true (documented_of_ends (fun _ h => (nomatch h)) (.inr ⟨_, rfl⟩)) trivial
  | response response =>
    cases hstatus : response.isSuccessStatusCode with
    | true =>
      rw [Harmless, if_pos hstatus]
      exact documented_iff_of_success hstatus
    | false => exact documented_iff_of_refusal hstatus

/-- A reader that knows one document, `[]`. -/
def exampleReader : JsonReader PerformanceResponse where
  parse bytes := if bytes = [0x5b, 0x5d] then some (.array []) else none
  deserialize _ _ := none
  refusesEarly _ _ := false
  isCharSet _ := false

/-- A gateway that answers `[]` with an error status. -/
def exampleRefusal : Reply := .response ⟨502, none, [0x5b, 0x5d], true⟩

/-- The body of the gateway is no object, and asking it for a member is an exception. -/
theorem array_body_escapes :
    sendAsync exampleReader false exampleRefusal = .error .invalidOperation ∧
      ¬ Documented exampleReader exampleRefusal (sendAsync exampleReader false exampleRefusal) :=
  ⟨rfl, not_documented (by simp)⟩

end DiagnosticsClient

end LookingGlass
