import LookingGlass.Foundations.AddressText

/-!
# JSON documents

A document as its parser leaves it, and the accessors for one element of it. They insist on the kind
of the element: one that is of another kind than asked for is an `InvalidOperationException`, which
`none` stands for here. So `some none` means that there is nothing, and `none` that it was wrong to
ask.

The parser checks the form of a string, but not that it can be read as UTF-16: an escape may stand
for one half of a character, and the bytes may be no UTF-8. Reading such a string is an
`InvalidOperationException` as well; comparing such a name of a member with another name may be one,
depending on how far the two agree.

## Why kinds matter

A program that reads a document it has not written must expect any document. Most accessors answer
with an absent value if there is nothing of the name, but raise an exception if the element that
they are asked on has no names at all. The two are told apart here, so that a definition which reads
a document says of itself when it raises one: it ends in `none`.

The members of an object are a list and not a map. A name may occur twice, and the last of its
values is the one that is found; the ones before it are still compared with the name if the search
gets to them.
-/

open Utf16

inductive JsonName
  | text (name : Str)
  /-- Comparing it with a name for which `raises` holds is an exception. -/
  | unreadable (raises : Str → Bool)

def JsonName.isText (name : Str) : JsonName → Bool
  | text other => other == name
  | unreadable _ => false

/-- A document after its text was read, as far as reading it any further may raise an exception:
numbers are kept as they are spelled, and a string may turn out to be unreadable. -/
inductive Json
  | null
  | bool (value : Bool)
  /-- A number as it is spelled. -/
  | number (token : Str)
  /-- A string, or `none` for one that cannot be read. -/
  | string (text : Option Str)
  | array (items : List Json)
  | object (members : List (JsonName × Json))

namespace Json

/-- Look for a name, among the members from the last one to the first. A name that cannot be
compared ends the search with an exception, unless the name was found before. -/
def findProperty (name : Str) : List (JsonName × Json) → Option (Option Json)
  | [] => some none
  | (.text other, value) :: rest =>
    if other = name then some (some value) else findProperty name rest
  | (.unreadable raises, _) :: rest => if raises name then none else findProperty name rest

/-- `TryGetProperty`, which finds the last of several members of one name. -/
def tryGetProperty (name : Str) : Json → Option (Option Json)
  | object members => findProperty name members.reverse
  | _ => none

/-- `GetString`, which takes an absent value for one that is `null`. -/
def getString : Json → Option (Option Str)
  | string (some text) => some (some text)
  | null => some none
  | _ => none

/-- An integer of 32 bits, spelled with an optional sign and digits. -/
def parseInt32 (token : Str) : Option ℤ :=
  let isNegative := token.head? == some (ofChar '-')
  let digits := if isNegative then token.tail else token
  let magnitude : ℤ := AddressText.decimalValue digits
  let value := if isNegative then -magnitude else magnitude
  if digits ≠ [] ∧ digits.all isDigit ∧ -2147483648 ≤ value ∧ value ≤ 2147483647 then some value
  else none

/-- `TryGetInt32`, which asks for a number and then says whether it is one of 32 bits. -/
def tryGetInt32 : Json → Option (Option ℤ)
  | number token => some (parseInt32 token)
  | _ => none

example : parseInt32 "-7" = some (-7) := by decide

/-! ### What an element has

Statements about a document are about what it offers, and not about how the accessors go through it.
-/

/-- The last member of a name, if it is a string that can be read. This is what a reader of the
document would take it to say, without any exception. -/
def stringMember (name : Str) : Json → Option Str
  | object members =>
    match members.reverse.find? fun member => member.1.isText name with
    | some (_, string text) => text
    | _ => none
  | _ => none

/-- A string that can be read, or `null`. -/
def IsText : Json → Prop
  | null => True
  | string text => text.isSome
  | _ => False

def IsNumber : Json → Prop
  | number _ => True
  | _ => False

/-- The element is an object, and what it has under the name, if anything, is of a kind. That it is
an object is a part of it, since asking for a member of anything else is an exception. -/
def Offers (root : Json) (name : Str) (kind : Json → Prop) : Prop :=
  ∃ value, root.tryGetProperty name = some value ∧ ∀ v ∈ value, kind v

theorem isSome_getString_iff {element : Json} : element.getString.isSome ↔ element.IsText := by
  cases element with
  | string text => cases text <;> simp [getString, IsText]
  | _ => simp [getString, IsText]

theorem isSome_tryGetInt32_iff {element : Json} :
    element.tryGetInt32.isSome ↔ element.IsNumber := by
  cases element <;> simp [tryGetInt32, IsNumber]

/-- A search that raises nothing finds the first member of the name. -/
theorem findProperty_eq_some {name : Str} {members : List (JsonName × Json)} {value : Option Json}
    (h : findProperty name members = some value) :
    value = (members.find? fun member => member.1.isText name).map Prod.snd := by
  induction members with
  | nil => exact (Option.some.inj h).symm
  | cons member rest ih =>
    obtain ⟨other, v⟩ := member
    cases other with
    | text other =>
      by_cases hname : other = name
      · rw [findProperty, if_pos hname] at h
        rw [List.find?_cons_of_pos (by simp [JsonName.isText, hname])]
        exact (Option.some.inj h).symm
      · rw [findProperty, if_neg hname] at h
        rw [List.find?_cons_of_neg (by simp [JsonName.isText, hname])]
        exact ih h
    | unreadable raises =>
      cases hraises : raises name with
      | true => simp [findProperty, hraises] at h
      | false =>
        rw [List.find?_cons_of_neg (by simp [JsonName.isText])]
        exact ih (by simpa [findProperty, hraises] using h)

/-- What is read of a member without an exception is its string. -/
theorem stringMember_eq {root : Json} {name : Str} {value : Option Json}
    (h : root.tryGetProperty name = some value) :
    root.stringMember name = value.bind fun v => v.getString.join := by
  cases root with
  | object members =>
    obtain rfl := findProperty_eq_some h
    rw [stringMember]
    cases members.reverse.find? fun member => member.1.isText name with
    | none => rfl
    | some member =>
      obtain ⟨other, v⟩ := member
      cases v with
      | string text => cases text <;> rfl
      | _ => rfl
  | _ => exact absurd h (by simp [tryGetProperty])

end Json
