import LookingGlass.Contracts.HostnameGrammar

/-!
# Legacy numeric spellings of IPv4 addresses

`inet_aton` and the resolvers built on it read one to four numbers as an IPv4 address, each of
them decimal, octal after a leading `0` or hexadecimal after a leading `0x`. The policy means to
refuse all of these except the plain dotted quad: text of digits and dots goes to the dotted-quad
parser, single labels are refused, and a name with an all-digit last label is refused.

What the last filter looks at are decimal digits, so it sees the numeric last label of
`0x7f.0.0.1` and not that of `127.0.0.0x1`. `HexTail` is the set of spellings that get through,
and it is exactly that.

## What counts as numeric

The C library, and tools that rely on it, read an address in one to four parts, each of which may be
decimal, octal with a leading zero, or hexadecimal after `0x`. The parser refuses a text of digits
and dots that is no dotted quad, and it refuses a name whose last label is all digits. A hexadecimal
number in the last place is neither: its `x` makes it a label like any other.

## Main results

* `DestinationPolicy.isLegacyNumeric_and_grammar_iff` — the numeric names in the language of
  hostnames
* `DestinationPolicy.numeric_refused_iff` — when the parser keeps numeric spellings out
-/

namespace LookingGlass

open Utf16

namespace NumericForms

def isOctalDigit (c : Char16) : Bool := 0x30 ≤ c && c ≤ 0x37

/-- Decimal digits, the first of which is not `0`. -/
def isDecimalNumber : Str → Bool
  | [] => false
  | c :: rest => isDigit c && c != ofChar '0' && rest.all isDigit

/-- A `0` and octal digits after it. -/
def isOctalNumber : Str → Bool
  | [] => false
  | c :: rest => c == ofChar '0' && rest.all isOctalDigit

/-- `0x` or `0X` and at least one hexadecimal digit. -/
def isHexNumber : Str → Bool
  | zero :: x :: c :: rest =>
    zero == ofChar '0' && (x == ofChar 'x' || x == ofChar 'X') &&
      (c :: rest).all DestinationPolicy.isHexDigit
  | _ => false

def isLegacyNumber (part : Str) : Bool :=
  isDecimalNumber part || isOctalNumber part || isHexNumber part

/-- One to four numbers separated by dots. -/
def isLegacyNumeric (text : Str) : Bool :=
  decide ((split '.' text).length ≤ 4) && (split '.' text).all isLegacyNumber

/-- Decimal and octal numbers consist of digits. -/
theorem all_isDigit_of_number {part : Str} (h : isDecimalNumber part || isOctalNumber part) :
    part.all isDigit := by
  have hoctal : ∀ c, isOctalDigit c = true → isDigit c = true := by
    intro c hc
    simp only [isOctalDigit, isDigit, Bool.and_eq_true, decide_eq_true_eq] at hc ⊢
    grind
  cases part with
  | nil => rfl
  | cons c rest =>
    simp only [isDecimalNumber, isOctalNumber, Bool.or_eq_true, Bool.and_eq_true, beq_iff_eq,
      List.all_eq_true, List.mem_cons, forall_eq_or_imp] at h ⊢
    rcases h with ⟨⟨hc, -⟩, hrest⟩ | ⟨rfl, hrest⟩
    · exact ⟨hc, hrest⟩
    · exact ⟨by decide, fun d hd => hoctal d (hrest d hd)⟩

theorem exists_of_isHexNumber {part : Str} (h : isHexNumber part) :
    ∃ x digits, part = ofChar '0' :: x :: digits ∧ (x = ofChar 'x' ∨ x = ofChar 'X') ∧
      ∀ d ∈ digits, DestinationPolicy.isHexDigit d = true := by
  match part, h with
  | zero :: x :: c :: rest, h =>
    simp only [isHexNumber, Bool.and_eq_true, Bool.or_eq_true, beq_iff_eq, List.all_eq_true] at h
    obtain ⟨⟨rfl, hx⟩, hdigits⟩ := h
    exact ⟨x, c :: rest, rfl, hx, hdigits⟩

/-- A hexadecimal number has a character that is no digit, its `x`. -/
theorem exists_x_of_isHexNumber {part : Str} (h : isHexNumber part) :
    ∃ c ∈ part, isDigit c = false := by
  obtain ⟨x, digits, rfl, hx, -⟩ := exists_of_isHexNumber h
  refine ⟨x, by simp, ?_⟩
  rcases hx with rfl | rfl <;> decide

/-- The characters of a number: letters and digits. -/
theorem isAlnum_of_isLegacyNumber {part : Str} (h : isLegacyNumber part) {c : Char16}
    (hc : c ∈ part) : isAlnum c := by
  have hdigit : ∀ c, isDigit c = true → isAlnum c = true := by
    intro c hc
    simp [isAlnum, hc]
  have hhex : ∀ c, DestinationPolicy.isHexDigit c = true → isAlnum c = true := by
    intro c hc
    simp only [DestinationPolicy.isHexDigit, isAlnum, isUpper, isLower, isDigit, Bool.or_eq_true,
      Bool.and_eq_true, decide_eq_true_eq] at hc ⊢
    grind
  rw [isLegacyNumber, Bool.or_eq_true] at h
  rcases h with h | h
  · exact hdigit c (List.all_eq_true.mp (all_isDigit_of_number h) c hc)
  · obtain ⟨x, digits, rfl, hx, hdigits⟩ := exists_of_isHexNumber h
    rcases List.mem_cons.mp hc with rfl | hc
    · decide
    rcases List.mem_cons.mp hc with rfl | hc
    · rcases hx with rfl | rfl <;> decide
    · exact hhex c (hdigits c hc)

end NumericForms

open NumericForms

/-- A spelling of two to four numbers, the last of them hexadecimal, within the length limits of a
hostname and at or under none of the suffixes. -/
@[mk_iff]
structure HexTail (suffixes : List Str) (input : Str) : Prop where
  input_length : (trim Runtime.isWhiteSpace input).length ≤ 255
  length_le : (normalisedName input).length ≤ 253
  two_parts : 2 ≤ (split '.' (normalisedName input)).length
  four_parts : (split '.' (normalisedName input)).length ≤ 4
  part : ∀ p ∈ split '.' (normalisedName input), isLegacyNumber p ∧ p.length ≤ 63
  last : ∀ p ∈ (split '.' (normalisedName input)).getLast?, isHexNumber p
  not_blocked : ∀ suffix ∈ suffixes, ¬ split '.' suffix <:+ split '.' (normalisedName input)

instance (suffixes : List Str) (input : Str) : Decidable (HexTail suffixes input) :=
  decidable_of_iff' _ (hexTail_iff suffixes input)

namespace DestinationPolicy

/-- A number without capital letters, of at most 63 characters, is a host label. -/
theorem isHostLabel_of_isLegacyNumber {allowUnderscore : Bool} {part : Str}
    (h : isLegacyNumber part) (hlen : part.length ≤ 63) (hlower : ∀ c ∈ part, isUpper c = false) :
    IsHostLabel allowUnderscore part := by
  have hhyphen : ofChar '-' ∉ part := fun hc =>
    absurd (isAlnum_of_isLegacyNumber h hc) (by decide)
  refine ⟨?_, hlen, fun c hc => ?_, fun he => ?_, fun he => ?_⟩
  · cases part with
    | nil => exact absurd h (by decide)
    | cons c rest => simp
  · have := isAlnum_of_isLegacyNumber h hc
    rw [isAlnum, hlower c hc, Bool.false_or, Bool.or_eq_true] at this
    tauto
  · exact hhyphen (List.mem_of_head? he)
  · exact hhyphen (List.mem_of_getLast? he)

/-- **The numeric names in the language of hostnames** are the spellings with a hexadecimal last
part: every other numeric name has an all-digit last label or a single label. -/
theorem isLegacyNumeric_and_grammar_iff {allowUnderscore : Bool} {suffixes : List Str}
    {input name : Str} :
    HostnameGrammar allowUnderscore suffixes input name ∧ isLegacyNumeric name ↔
      name = normalisedName input ∧ HexTail suffixes input := by
  constructor
  · rintro ⟨h, hnumeric⟩
    obtain rfl := h.name_eq
    simp only [isLegacyNumeric, Bool.and_eq_true, decide_eq_true_eq, List.all_eq_true] at hnumeric
    refine ⟨rfl, h.input_length, h.length_le, h.two_labels, hnumeric.1,
      fun p hp => ⟨hnumeric.2 p hp, (h.label p hp).length_le⟩, fun p hp => ?_, h.not_blocked⟩
    have hnumber := hnumeric.2 p (List.mem_of_getLast? hp)
    obtain ⟨⟨c, hc, hdigit⟩, -⟩ := h.tld p hp
    rw [isLegacyNumber, Bool.or_eq_true] at hnumber
    refine hnumber.resolve_left fun hn => ?_
    rw [List.all_eq_true.mp (all_isDigit_of_number hn) c hc] at hdigit
    exact absurd hdigit (by simp)
  · rintro ⟨rfl, h⟩
    have hnumeric : isLegacyNumeric (normalisedName input) = true := by
      simp only [isLegacyNumeric, Bool.and_eq_true, decide_eq_true_eq, List.all_eq_true]
      exact ⟨h.four_parts, fun p hp => (h.part p hp).1⟩
    have hlabel : ∀ l ∈ split '.' (normalisedName input), IsHostLabel allowUnderscore l :=
      fun l hl => isHostLabel_of_isLegacyNumber (h.part l hl).1 (h.part l hl).2 fun c hc =>
        isUpper_of_mem_normalisedName (mem_of_mem_splitOn hl hc)
    have hchar : ∀ c ∈ normalisedName input, isHostChar c := fun c hc =>
      isHostChar_of_label hlabel hc
    refine ⟨⟨rfl, h.input_length, isAscii_of_isHostChar fun c hc =>
      isHostChar_of_normalisedName hchar hc, ?_, h.length_le, h.two_parts, hlabel, fun p hp => ?_,
      h.not_blocked⟩, hnumeric⟩
    · -- The empty name has a single part.
      refine List.length_pos_iff.mpr fun hnil => ?_
      have := h.two_parts
      rw [hnil] at this
      exact absurd this (by decide)
    · refine ⟨exists_x_of_isHexNumber (h.last p hp), fun hc => ?_⟩
      have hnumber := (h.part p (List.mem_of_getLast? hp)).1
      exact absurd (isAlnum_of_isLegacyNumber hnumber hc) (by decide)

/-- **No numeric spelling passes as a hostname, unless its last part is hexadecimal.** For every
runtime, policy and input: the parser keeps the legacy numeric forms out exactly where the input
is no `HexTail`. -/
theorem numeric_refused_iff (rt : Runtime) (policy : DestinationPolicy) (input : Str)
    (allowUnderscore : Bool) :
    (∀ name, parse rt policy (some input) allowUnderscore = .ok (.hostname name) →
      isLegacyNumeric name = false) ↔ ¬ HexTail policy.blockedSuffixes input := by
  constructor
  · intro h htail
    obtain ⟨hgrammar, hnumeric⟩ := isLegacyNumeric_and_grammar_iff.mpr ⟨rfl, htail⟩
    rw [h _ (parse_eq_hostname_iff.mpr hgrammar)] at hnumeric
    exact absurd hnumeric (by simp)
  · intro htail name hparse
    rw [Bool.eq_false_iff]
    intro hnumeric
    have hgrammar := parse_eq_hostname_iff.mp hparse
    exact htail (isLegacyNumeric_and_grammar_iff.mp ⟨hgrammar, hnumeric⟩).2

/-- The loopback address with its last octet in hexadecimal passes as a hostname. -/
theorem hex_tail_accepted :
    parse Runtime.reference (new Runtime.reference none none) (some "127.0.0.0x1") false =
        .ok (.hostname "127.0.0.0x1") ∧
      isLegacyNumeric "127.0.0.0x1" = true :=
  ⟨parse_default_of_grammar (by decide), by decide⟩

end DestinationPolicy

end LookingGlass
