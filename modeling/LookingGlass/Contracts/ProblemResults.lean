import LookingGlass.Contracts.Models
import LookingGlass.Foundations.JsonDocument
import LookingGlass.Foundations.Spellings
import Mathlib.Data.List.Nodup

/-!
# Problem documents

Every request that fails is answered with a problem document, by both services and in one form: an
exception of the code's own says what is in it, and so do the refusals of the rate limiter and of
the guard. All other exceptions are answered alike, except that a request which its client has given
up gets no document at all.

A document is a list of members here, and what is written for it is left to a serializer.

## One form for all refusals

There are three places where a refusal is written: the exception handler, the rate limiter and the
guard. All of them go through `create`, so the members and their order are the same, and a reader
has to know one document only. What differs is the header with the request ID, which the exception
handler has lost by then: the framework clears the headers before it calls the handler.

## Main definitions

* `Document` — the members, and the JSON element that a reader makes of them
* `ProblemResults.create` — the response to a problem
* `ProblemExceptionHandler.handleAsync` — the response to an exception

## Main results

* `Document.tryGetProperty_toJson` — what a reader finds under a name
* `parseInt32_decimalInt` — integers of 32 bits are read as they were written
-/

namespace LookingGlass

open Utf16

/-! ### Documents

No name comes twice in a document, so a reader that looks from the end finds what a reader from the
front would. -/

/-- The values that the members of a problem document may have. There are no others, so a document
can be compared with what is read from it. -/
inductive DocumentValue
  | text (text : Str)
  | number (value : ℤ)
  /-- Lists of texts by name. -/
  | lists (entries : List (Str × List Str))
  deriving DecidableEq

abbrev Document := List (Str × DocumentValue)

namespace DocumentValue

/-- The element that a JSON reader makes of the value. -/
def toJson : DocumentValue → Json
  | text s => .string (some s)
  | number value => .number (Double.decimalInt value)
  | lists entries => .object (entries.map fun entry =>
      (.text entry.1, .array (entry.2.map fun s => .string (some s))))

end DocumentValue

namespace Document

def toJson (document : Document) : Json :=
  .object (document.map fun member => (.text member.1, member.2.toJson))

/-- The value of a member, if there is one. -/
def get (document : Document) (name : Str) : Option DocumentValue :=
  (document.find? fun member => member.1 == name).map Prod.snd

def names (document : Document) : List Str := document.map Prod.fst

theorem get_cons (name : Str) (value : DocumentValue) (document : Document) (other : Str) :
    get ((name, value) :: document) other =
      if name = other then some value else get document other := by
  rw [get, List.find?_cons]
  by_cases hname : name = other
  · rw [if_pos hname, beq_iff_eq.mpr hname]
    rfl
  · rw [if_neg hname, beq_eq_false_iff_ne.mpr hname]
    rfl

/-- Where no name comes twice, the order of the members does not matter. -/
theorem get_eq_some_iff {document : Document} (h : document.names.Nodup) {name : Str}
    {value : DocumentValue} : get document name = some value ↔ (name, value) ∈ document := by
  induction document with
  | nil => simp [get]
  | cons member rest ih =>
    obtain ⟨other, value'⟩ := member
    obtain ⟨hnotMem, hrest⟩ := List.nodup_cons.mp h
    rw [get_cons, List.mem_cons, Prod.mk.injEq]
    split
    · next hname =>
      subst hname
      have hrestMem : (other, value) ∉ rest := fun hmem =>
        hnotMem (List.mem_map.mpr ⟨_, hmem, rfl⟩)
      simp [hrestMem, eq_comm]
    · next hname =>
      rw [ih hrest]
      simp [Ne.symm hname]

theorem findProperty_toJson (document : Document) (name : Str) :
    Json.findProperty name
        (document.map fun member => (JsonName.text member.1, member.2.toJson)) =
      some ((get document name).map DocumentValue.toJson) := by
  induction document with
  | nil => rfl
  | cons member rest ih =>
    rw [List.map_cons, Json.findProperty, ih, get_cons]
    split <;> rfl

/-- What a reader finds under a name, though it looks from the end. -/
theorem tryGetProperty_toJson {document : Document} (h : document.names.Nodup) (name : Str) :
    document.toJson.tryGetProperty name =
      some ((get document name).map DocumentValue.toJson) := by
  have hnodup : names document.reverse |>.Nodup := by
    rw [names, List.map_reverse]
    exact List.nodup_reverse.mpr h
  have hreverse : get document.reverse name = get document name :=
    Option.ext fun value => by
      rw [get_eq_some_iff hnodup, get_eq_some_iff h, List.mem_reverse]
  rw [toJson, Json.tryGetProperty, ← List.map_reverse, findProperty_toJson, hreverse]

end Document

/-- **Integers of 32 bits are read as they were written.** -/
theorem parseInt32_decimalInt {n : ℤ} (h : -2147483648 ≤ n ∧ n ≤ 2147483647) :
    Json.parseInt32 (Double.decimalInt n) = some n := by
  have hdigits : ∀ k : ℕ, (AddressText.decimal k).all isDigit = true :=
    fun k => List.all_eq_true.mpr fun c hc => AddressText.isDigit_of_mem_decimal hc
  rw [Json.parseInt32, Double.decimalInt]
  split
  · next hneg =>
    have hvalue : -(n.natAbs : ℤ) = n := by omega
    simp only [List.head?_cons, List.tail_cons, beq_self_eq_true, if_true,
      AddressText.decimalValue_decimal, hvalue]
    rw [if_pos ⟨AddressText.decimal_ne_nil _, hdigits _, h⟩]
  · next hneg =>
    have hvalue : (n.natAbs : ℤ) = n := by omega
    have hhead : ((AddressText.decimal n.natAbs).head? == some (ofChar '-')) = false := by
      refine beq_eq_false_iff_ne.mpr fun hhead => ?_
      have hmem := List.mem_of_head? hhead
      exact absurd (AddressText.isDigit_of_mem_decimal hmem) (by decide)
    simp only [hhead, Bool.false_eq_true, if_false, AddressText.decimalValue_decimal, hvalue]
    rw [if_pos ⟨AddressText.decimal_ne_nil _, hdigits _, h⟩]

/-! ### Responses

The response to a problem, and the problem of an error. -/

/-- What is sent for a request that failed: the status, the headers that matter, and the document,
if there is one. -/
structure ProblemResponse where
  status : ℕ
  /-- The `Retry-After` header. -/
  retryAfter : Option Str := none
  /-- The `X-Request-Id` header, which the exception handler removes with all others. -/
  requestId : Option Str := none
  body : Option Document

namespace ProblemResults

def document (traceIdentifier : Str) (problem : Problem) (errors : List (Str × List Str)) :
    Document :=
  let members : Document :=
    [("type", .text (concat ["https://lg.geiseit.com/problems/", problem.code])),
      ("title", .text problem.title),
      ("status", .number problem.status),
      ("detail", .text problem.detail),
      ("code", .text problem.code),
      ("requestId", .text traceIdentifier)]
  let retry : Document :=
    match problem.retryAfterSeconds with
    | some retry => [("retryAfterSeconds", .number retry)]
    | none => []
  let errors : Document := if errors = [] then [] else [("errors", .lists errors)]
  members ++ retry ++ errors

/-- The `X-Request-Id` header is there already, if it is. -/
def create (requestId : Option Str) (traceIdentifier : Str) (problem : Problem)
    (errors : List (Str × List Str) := []) : ProblemResponse where
  status := problem.status
  retryAfter := problem.retryAfterSeconds.map Double.decimalInt
  requestId := requestId
  body := some (document traceIdentifier problem errors)

variable {traceIdentifier : Str} {problem : Problem} {errors : List (Str × List Str)}

/-- The names of the members that there may be. -/
def memberNames : List Str :=
  ["type", "title", "status", "detail", "code", "requestId", "retryAfterSeconds", "errors"]

theorem names_sublist :
    (document traceIdentifier problem errors).names.Sublist memberNames := by
  have hall : ∀ retry ∈ ([[], ["retryAfterSeconds"]] : List (List Str)),
      ∀ errors ∈ ([[], ["errors"]] : List (List Str)),
        List.Sublist (memberNames.take 6 ++ retry ++ errors) memberNames := by decide
  obtain ⟨status, code, title, detail, _ | retry⟩ := problem <;> by_cases herrors : errors = []
  · subst herrors
    exact hall [] (by simp) [] (by simp)
  · rw [document, if_neg herrors]
    exact hall [] (by simp) ["errors"] (by simp)
  · subst herrors
    exact hall ["retryAfterSeconds"] (by simp) [] (by simp)
  · rw [document, if_neg herrors]
    exact hall ["retryAfterSeconds"] (by simp) ["errors"] (by simp)

theorem nodup_names : (document traceIdentifier problem errors).names.Nodup :=
  names_sublist.nodup (by decide)

/-- What the reader of a problem looks for. -/
theorem get_document :
    (document traceIdentifier problem errors).get "code" = some (.text problem.code) ∧
      (document traceIdentifier problem errors).get "title" = some (.text problem.title) ∧
      (document traceIdentifier problem errors).get "detail" = some (.text problem.detail) ∧
      (document traceIdentifier problem errors).get "requestId" = some (.text traceIdentifier) ∧
      (document traceIdentifier problem errors).get "retryAfterSeconds" =
        problem.retryAfterSeconds.map .number ∧
      (document traceIdentifier problem errors).get "errors" =
        if errors = [] then none else some (.lists errors) := by
  obtain ⟨status, code, title, detail, _ | retry⟩ := problem <;> by_cases herrors : errors = []
  · subst herrors
    exact ⟨rfl, rfl, rfl, rfl, rfl, rfl⟩
  · rw [document, if_neg herrors, if_neg herrors]
    exact ⟨rfl, rfl, rfl, rfl, rfl, rfl⟩
  · subst herrors
    exact ⟨rfl, rfl, rfl, rfl, rfl, rfl⟩
  · rw [document, if_neg herrors, if_neg herrors]
    exact ⟨rfl, rfl, rfl, rfl, rfl, rfl⟩

end ProblemResults

/-- What ends a request early: an exception, or a request that cannot be read. -/
inductive RequestError
  | exception (ex : Exn)
  | badHttpRequest (statusCode : ℕ)

namespace ProblemExceptionHandler

/-- A problem under the title of its code. -/
def titled (status : ℕ) (code detail : Str) (retryAfterSeconds : Option ℤ := none) : Problem :=
  ⟨status, code, title code, detail, retryAfterSeconds⟩

/-- The problem of an exception that nobody has a name for. It gives away nothing but the request
ID. -/
def internal : Problem :=
  titled 500 ProblemCodes.internal
    "Something went wrong on our side. Quote the request ID if you contact us."

def badHttpRequest (statusCode : ℕ) : Problem :=
  if statusCode = 413 then
    titled 413 ProblemCodes.payloadTooLarge "The request body is too large."
  else if statusCode = 415 then
    titled 415 ProblemCodes.unsupportedMediaType "Send the request as application/json."
  else
    titled 400 ProblemCodes.validationFailed "The request body is missing or is not valid JSON."

/-- The problem of an error, if it is answered with one. -/
def problem (isRequestAborted : Bool) : RequestError → Option Problem
  | .exception (.lookingGlass ex) =>
    some (titled ex.status ex.code ex.message ex.retryAfterSeconds)
  | .badHttpRequest statusCode => some (badHttpRequest statusCode)
  | .exception .operationCanceled => if isRequestAborted then none else some internal
  | .exception _ => some internal

def handleAsync (traceIdentifier : Str) (isRequestAborted : Bool) (error : RequestError) :
    ProblemResponse :=
  match problem isRequestAborted error with
  | some problem => ProblemResults.create none traceIdentifier problem
  | none => { status := 499, body := none }

/-- The problem for a response that has an error status and no body. -/
def statusCodePage (status : ℕ) : Problem :=
  if status = 400 then
    titled status ProblemCodes.validationFailed
      "The request body is missing or is not valid JSON."
  else if status = 404 then
    titled status ProblemCodes.validationFailed "The requested resource was not found."
  else if status = 405 then
    titled status ProblemCodes.validationFailed "That method is not allowed for this resource."
  else if status = 413 then
    titled status ProblemCodes.payloadTooLarge "The request body is too large."
  else if status = 415 then
    titled status ProblemCodes.unsupportedMediaType "Send the request as application/json."
  else titled status ProblemCodes.internal "The request could not be completed."

end ProblemExceptionHandler

end LookingGlass
