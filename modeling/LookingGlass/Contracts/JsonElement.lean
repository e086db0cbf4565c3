import LookingGlass.Contracts.Numerals
import LookingGlass.Foundations.Failures

/-!
# The accessors of JSON elements with their exceptions

An accessor that is asked for the wrong kind of element is an `InvalidOperationException`, a member
that is not there is a `KeyNotFoundException`, and an index past the end an
`IndexOutOfRangeException`.

## Exceptions are told apart here

`Json` says with `none` that it was wrong to ask. For code that handles some exceptions and not
others this is not enough, since a missing member and a member of the wrong kind are exceptions of
different types. So each accessor is defined once more, over exceptions, as the code calls it.

For every accessor there are two facts: when it has a value, as an equivalence, and which exceptions
are possible otherwise. These are all that is used of an accessor later on; no proof about a
document looks into one.

An index past the end and a number that does not fit are exceptions for which the model has no name
of their own. They are `other`, and no code of the repository handles them.

## Main results

* `JsonElement.getProperty_eq_ok_iff`, `enumerateArray_eq_ok_iff`, … — when an accessor has a value
* `JsonElement.failsOnly_getProperty`, `failsOnly_enumerateArray`, … — what it throws otherwise
-/

namespace LookingGlass

open Utf16

namespace JsonElement

/-- The value of an accessor that insists on the kind of the element. -/
def access {α : Type} : Option α → Except Exn α
  | some a => .ok a
  | none => .error .invalidOperation

theorem access_eq_ok_iff {α : Type} {x : Option α} {a : α} : access x = .ok a ↔ x = some a := by
  cases x <;> simp [access]

def getProperty (name : Str) (element : Json) : Except Exn Json := do
  match ← access (element.tryGetProperty name) with
  | some value => .ok value
  | none => .error .keyNotFound

def enumerateArray : Json → Except Exn (List Json)
  | .array items => .ok items
  | _ => .error .invalidOperation

def enumerateObject : Json → Except Exn (List (JsonName × Json))
  | .object members => .ok members
  | _ => .error .invalidOperation

/-- The indexer, which insists on an array first and on the index then. -/
def item (index : ℕ) (element : Json) : Except Exn Json := do
  let items ← enumerateArray element
  match items[index]? with
  | some value => .ok value
  | none => .error .other

/-- `JsonProperty.Name` -/
def name : JsonName → Except Exn Str
  | .text name => .ok name
  | .unreadable _ => .error .invalidOperation

def getString (element : Json) : Except Exn (Option Str) := access element.getString

def getDouble (element : Json) : Except Exn Double := do
  match ← access element.getDouble with
  | some value => .ok value
  | none => .error .format

/-! ### Members

A member that is found may still be `null`, which is an element like any other. -/

/-- The member that is found under a name. -/
def member (name : Str) (element : Json) : Option Json := (element.tryGetProperty name).join

theorem getProperty_eq_ok_iff {name : Str} {element value : Json} :
    getProperty name element = .ok value ↔ member name element = some value := by
  unfold getProperty member
  cases element.tryGetProperty name with
  | none => exact iff_of_false (fun h => nomatch h) (by simp)
  | some found =>
    cases found with
    | none => exact iff_of_false (fun h => nomatch h) (by simp)
    | some v =>
      exact ⟨fun h => congrArg some (Except.ok.inj h), fun h => congrArg _ (Option.some.inj h)⟩

/-- A member is missing, or it was wrong to ask. -/
theorem failsOnly_getProperty {name : Str} {element : Json} {C : Exn → Prop}
    (hkind : C .invalidOperation) (hkey : C .keyNotFound) :
    Except.FailsOnly C (getProperty name element) := by
  unfold getProperty
  cases element.tryGetProperty name with
  | none => exact Except.failsOnly_error.mpr hkind
  | some found =>
    cases found with
    | none => exact Except.failsOnly_error.mpr hkey
    | some v => exact Except.failsOnly_ok v

/-! ### Elements of a kind

Each of the accessors insists on one kind. -/

theorem enumerateArray_eq_ok_iff {element : Json} {items : List Json} :
    enumerateArray element = .ok items ↔ element = .array items := by
  cases element <;> simp [enumerateArray]

theorem enumerateObject_eq_ok_iff {element : Json} {members : List (JsonName × Json)} :
    enumerateObject element = .ok members ↔ element = .object members := by
  cases element <;> simp [enumerateObject]

theorem name_eq_ok_iff {name' : JsonName} {text : Str} :
    name name' = .ok text ↔ name' = .text text := by
  cases name' <;> simp [name]

theorem item_eq_ok_iff {index : ℕ} {element value : Json} :
    item index element = .ok value ↔
      ∃ items, element = .array items ∧ items[index]? = some value := by
  simp only [item, Except.bind_eq_ok, enumerateArray_eq_ok_iff]
  refine exists_congr fun items => and_congr_right fun _ => ?_
  cases items[index]? <;> simp

theorem getDouble_eq_ok_iff {element : Json} {value : Double} :
    getDouble element = .ok value ↔
      ∃ token, element = .number token ∧ Numerals.readNumeral false token = some value := by
  cases element with
  | number token =>
    have hread : getDouble (.number token) = .ok value ↔
        Numerals.readNumeral false token = some value := by
      rw [getDouble, Json.getDouble]
      cases Numerals.readNumeral false token with
      | none => exact iff_of_false (fun h => nomatch h) (fun h => nomatch h)
      | some v => exact ⟨fun h => congrArg some (Except.ok.inj h),
          fun h => congrArg Except.ok (Option.some.inj h)⟩
    simp [hread]
  | null | bool _ | string _ | array _ | object _ =>
    exact iff_of_false (fun h => nomatch h) (by simp)

theorem exists_getString_eq_ok_iff {element : Json} :
    (∃ text, getString element = .ok text) ↔ element.IsText := by
  rw [← Json.isSome_getString_iff, getString]
  cases element.getString <;> simp [access]

section Kind

variable {C : Exn → Prop} {element : Json}

theorem failsOnly_enumerateArray (hkind : C .invalidOperation) :
    Except.FailsOnly C (enumerateArray element) := by
  cases element <;> simp [enumerateArray, hkind]

theorem failsOnly_enumerateObject (hkind : C .invalidOperation) :
    Except.FailsOnly C (enumerateObject element) := by
  cases element <;> simp [enumerateObject, hkind]

theorem failsOnly_name {name' : JsonName} (hkind : C .invalidOperation) :
    Except.FailsOnly C (name name') := by
  cases name' <;> simp [name, hkind]

theorem failsOnly_getString (hkind : C .invalidOperation) :
    Except.FailsOnly C (getString element) := by
  rw [getString]
  cases element.getString <;> simp [access, hkind]

theorem failsOnly_item {index : ℕ} (hkind : C .invalidOperation) (hindex : C .other) :
    Except.FailsOnly C (item index element) := by
  refine Except.failsOnly_bind.mpr ⟨failsOnly_enumerateArray hkind, fun items _ => ?_⟩
  cases items[index]? <;> simp [hindex]

theorem failsOnly_getDouble (hkind : C .invalidOperation) (hformat : C .format) :
    Except.FailsOnly C (getDouble element) := by
  rw [getDouble]
  cases element.getDouble with
  | none => exact Except.failsOnly_error.mpr hkind
  | some found =>
    cases found with
    | none => exact Except.failsOnly_error.mpr hformat
    | some value => exact Except.failsOnly_ok value

end Kind

end JsonElement

end LookingGlass
