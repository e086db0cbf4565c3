import LookingGlass.Contracts.HostnameGrammar
import LookingGlass.Foundations.Spellings

/-!
# Address literals

Digits and dots are an IPv4 address or nothing, and a colon makes a text an IPv6 address or nothing.
The octets of the one are read by the parser itself. The other is left to the base library, so what
is known of it is assumed: that an address without a scope is printed in some form of RFC 4291, and
that this form is read back.

Under this assumption the text of a destination is a spelling of it. The service, the worker and the
form hand on that text, each of them parses it again, and they all mean the same target.

## What is assumed of the base library

The text of an IPv6 address is whatever the base library prints. `PrintsIpv6` collects what the
parser depends on: that the text is no longer than an address can be, that its characters are those
of an address, that there is a colon in it, and that it is read back as the same address. All of it
is documented behaviour, and the runtime that is used for examples has it. Nothing is assumed of an
address with a scope, since none gets through the parser.

For IPv4 nothing has to be assumed. The parser reads the octets itself, and a text that it accepts
is the one that would be printed for them.

## Main results

* `DestinationPolicy.readsIpv4_iff` — the one spelling of an IPv4 address
* `DestinationPolicy.parse_text` — a destination is parsed from its own text
-/

namespace LookingGlass

open Utf16 AddressText

namespace DestinationPolicy

/-! ### IPv4

Digits and dots are recognised first, and then read in four parts or refused. -/

/-- The test by which `parse` takes a text for an IPv4 address. -/
def IsQuadText (text : Str) : Prop := text ≠ [] ∧ ∀ c ∈ text, isDigit c ∨ isDot c

/-- The service takes the text for an IPv4 address, and reads it as these octets. What it makes of
the address is decided afterwards and is no part of this. -/
def ReadsIpv4 (text : Str) (octets : List UInt8) : Prop :=
  IsQuadText text ∧ octets.length = 4 ∧ (split '.' text).mapM parseIpv4Part = some octets

theorem parseIpv4Part_eq (part : Str) : parseIpv4Part part = parseOctet part := by
  unfold parseIpv4Part parseOctet tryParseInt
  by_cases hshape : part.length = 0 ∨ part.length > 3 ∨
      (part.length > 1 ∧ part.head? = some (ofChar '0'))
  · rw [if_pos hshape, if_neg]
    rintro ⟨hpos, hlen, -, hlead, -⟩
    rcases hshape with hzero | hlong | ⟨hmore, hhead⟩
    · omega
    · omega
    · exact hlead.elim (fun hone => by omega) fun hne => hne hhead
  · rw [if_neg hshape]
    rw [not_or, not_or, not_and_or] at hshape
    obtain ⟨hne, hlen, hlead⟩ := hshape
    by_cases hint : part.length ≠ 0 ∧ part.all isDigit ∧ decimalValue part ≤ 2147483647
    · rw [if_pos hint]
      by_cases hle : decimalValue part ≤ 255
      · have hone : part.length = 1 ∨ part.head? ≠ some (ofChar '0') :=
          hlead.imp (fun hmore => by omega) id
        rw [if_pos ⟨by omega, by omega, hint.2.1, hone, hle⟩]
        exact if_neg (by omega)
      · rw [if_neg (fun h : 1 ≤ part.length ∧ _ => hle h.2.2.2.2)]
        exact if_pos (by omega)
    · rw [if_neg hint, if_neg]
      rintro ⟨-, -, hdigits, -, hle⟩
      exact hint ⟨hne, hdigits, by omega⟩

theorem isQuadText_dottedQuad (a b c d : UInt8) : IsQuadText (dottedQuad a b c d) := by
  refine ⟨dottedQuad_ne_nil a b c d, fun x hx => (mem_dottedQuad hx).imp id fun hdot => ?_⟩
  rw [hdot]
  decide

/-- What the service reads as an IPv4 address is what would be printed for it. -/
theorem readsIpv4_iff {text : Str} {octets : List UInt8} : ReadsIpv4 text octets ↔
    ∃ a b c d, octets = [a, b, c, d] ∧ text = dottedQuad a b c d := by
  have hread : (split '.' text).mapM parseIpv4Part = some octets ↔
      split '.' text = octets.map fun x => decimal x.toNat :=
    mapM_eq_some_iff_map fun p x => by rw [parseIpv4Part_eq, parseOctet_eq_some_iff]
  rw [ReadsIpv4, hread]
  constructor
  · rintro ⟨-, hlen, hpieces⟩
    match octets, hlen with
    | [a, b, c, d], _ => exact ⟨a, b, c, d, rfl, eq_dottedQuad_iff.mpr hpieces⟩
  · rintro ⟨a, b, c, d, rfl, rfl⟩
    exact ⟨isQuadText_dottedQuad a b c d, rfl, eq_dottedQuad_iff.mp rfl⟩

/-- Digits and dots pass the filters of `parse` up to the length. -/
theorem parse_of_isQuadText (rt : Runtime) (policy : DestinationPolicy) (allowUnderscore : Bool)
    {input : Str} (h : IsQuadText (trim Runtime.isWhiteSpace input)) :
    parse rt policy (some input) allowUnderscore =
      if (trim Runtime.isWhiteSpace input).length > maxInputLength then
        DestinationParseResult.invalid "That value is too long to be a hostname or IP address."
      else parseIpv4 rt policy (trim Runtime.isWhiteSpace input) := by
  obtain ⟨hne, hchars⟩ := h
  have hblank : Runtime.isNullOrWhiteSpace (some input) = false := by
    rw [Runtime.isNullOrWhiteSpace, Bool.eq_false_iff, ne_eq, List.all_eq_true]
    exact fun hall => hne (trim_eq_nil_iff.mpr hall)
  rw [parse, hblank, Option.getD_some]
  generalize trim Runtime.isWhiteSpace input = text at hchars
  have hhost : ∀ c ∈ text, isHostChar c := by
    intro c hc
    rcases hchars c hc with hdigit | hdot
    · simp [isHostChar, isAlnum, hdigit]
    · simp [isHostChar, hdot]
  obtain ⟨hurl, hcolon⟩ := contains_of_isHostChar hhost
  have hspace : (text.any fun c => decide (c < 0x20) || c == 0x7f || Runtime.isWhiteSpace c) =
      false := by
    rw [List.any_eq_false]
    exact fun c hc => Bool.eq_false_iff.mp (isHostChar_passes (hhost c hc)).2.1
  have hall : (text.all fun c => isDigit c || isDot c) = true := by
    rw [List.all_eq_true]
    exact fun c hc => Bool.or_eq_true_iff.mpr (hchars c hc)
  simp only [hspace, hurl, hcolon, hall, Bool.false_eq_true, if_false, if_true]

theorem length_dottedQuad_le (a b c d : UInt8) : (dottedQuad a b c d).length ≤ 15 := by
  have hlen : ∀ x : UInt8, (decimal x.toNat).length ≤ 3 := by
    intro x
    rw [decimal, List.length_map]
    exact (Nat.length_toDigits_le_iff (by decide) (by decide)).mpr (by have := x.toNat_lt; omega)
  have ha := hlen a
  have hb := hlen b
  have hc := hlen c
  have hd := hlen d
  simp only [dottedQuad, join, List.intercalate_cons_cons, List.intercalate_singleton,
    List.length_append]
  have hdot : (ofString ".").length = 1 := by decide
  omega

/-- What is read gets to the check of the address. -/
theorem parse_of_readsIpv4 (rt : Runtime) (policy : DestinationPolicy) (allowUnderscore : Bool)
    {input : Str} {a b c d : UInt8}
    (h : ReadsIpv4 (trim Runtime.isWhiteSpace input) [a, b, c, d]) :
    parse rt policy (some input) allowUnderscore =
      checkAddress rt policy (.v4 (Octets.four a b c d)) := by
  obtain ⟨_, _, _, _, -, hquad⟩ := readsIpv4_iff.mp h
  have hlen : (trim Runtime.isWhiteSpace input).length ≤ 15 :=
    hquad ▸ length_dottedQuad_le _ _ _ _
  rw [parse_of_isQuadText rt policy allowUnderscore h.1, if_neg (by rw [maxInputLength]; omega),
    parseIpv4, h.2.2]

/-- What is not read does not. -/
theorem parse_of_not_readsIpv4 (rt : Runtime) (policy : DestinationPolicy) (allowUnderscore : Bool)
    {input : Str} (hquad : IsQuadText (trim Runtime.isWhiteSpace input))
    (h : ∀ octets, ¬ ReadsIpv4 (trim Runtime.isWhiteSpace input) octets) :
    ∃ message, parse rt policy (some input) allowUnderscore =
      DestinationParseResult.invalid message := by
  rw [parse_of_isQuadText rt policy allowUnderscore hquad]
  split
  · exact ⟨_, rfl⟩
  unfold parseIpv4
  split
  · next a b c d hread => exact absurd ⟨hquad, rfl, hread⟩ (h [a, b, c, d])
  · exact ⟨_, rfl⟩

/-! ### IPv6

The filters of the parser in front of the base library are passed by every character of an address.
-/

/-- How an IPv6 address without a scope is printed, as far as the parser depends on it: in at most
45 characters of an address, with a colon, and so that it is read back. -/
structure PrintsIpv6 (rt : Runtime) (bytes : Octets 16) : Prop where
  length_le : (rt.addressToString (.v6 bytes 0)).length ≤ 45
  chars : ∀ c ∈ rt.addressToString (.v6 bytes 0),
    isHexDigit c = true ∨ c = ofChar ':' ∨ c = ofChar '.'
  colon : ofChar ':' ∈ rt.addressToString (.v6 bytes 0)
  tryParseAddress : rt.tryParseAddress (rt.addressToString (.v6 bytes 0)) = some (.v6 bytes 0)

/-- The characters of an address lie between `'.'` and `'f'` and none of them is special in a
URL but the colon. -/
theorem addressChar_range {c : Char16}
    (h : isHexDigit c = true ∨ c = ofChar ':' ∨ c = ofChar '.') :
    0x2e ≤ c.toNat ∧ c.toNat ≤ 0x66 ∧ c.toNat ∉ [0x2f, 0x3f, 0x40, 0x5c] := by
  have hlit : ofChar ':' = 0x3a ∧ ofChar '.' = 0x2e := by decide
  obtain ⟨hcolon, hdot⟩ := hlit
  simp only [isHexDigit, isDigit, hcolon, hdot, Bool.or_eq_true, Bool.and_eq_true,
    decide_eq_true_eq, UInt16.le_iff_toNat_le, ← UInt16.toNat_inj, UInt16.reduceToNat] at h
  simp only [List.mem_cons, List.not_mem_nil, or_false]
  omega

/-- They pass every filter in front of the sub-parsers. -/
theorem addressChar_passes {c : Char16}
    (h : isHexDigit c = true ∨ c = ofChar ':' ∨ c = ofChar '.') :
    (decide (c < 0x20) || c == 0x7f || Runtime.isWhiteSpace c) = false ∧
      c ∉ [ofChar '/', ofChar '\\', ofChar '?', ofChar '#', ofChar '@'] := by
  obtain ⟨hlow, hhigh, hne⟩ := addressChar_range h
  have hlit : [ofChar '/', ofChar '\\', ofChar '?', ofChar '#', ofChar '@'] =
      [0x2f, 0x5c, 0x3f, 0x23, 0x40] := by decide
  rw [hlit]
  simp only [Runtime.isWhiteSpace, Bool.or_eq_false_iff, Bool.and_eq_false_iff,
    decide_eq_false_iff_not, beq_eq_false_iff_ne, ne_eq, List.mem_cons, List.not_mem_nil, or_false,
    UInt16.le_iff_toNat_le, UInt16.lt_iff_toNat_lt, ← UInt16.toNat_inj, UInt16.reduceToNat] at *
  omega

/-- A text with a colon goes to `parseIpv6`, if it is of the characters of an address. -/
theorem parse_of_addressText (rt : Runtime) (policy : DestinationPolicy) (allowUnderscore : Bool)
    {text : Str} (hlen : text.length ≤ 45) (hcolon : ofChar ':' ∈ text)
    (hchars : ∀ c ∈ text, isHexDigit c = true ∨ c = ofChar ':' ∨ c = ofChar '.') :
    parse rt policy (some text) allowUnderscore = parseIpv6 rt policy text := by
  have hfilter : ∀ c ∈ text,
      (decide (c < 0x20) || c == 0x7f || Runtime.isWhiteSpace c) = false :=
    fun c hc => (addressChar_passes (hchars c hc)).1
  have hwhite : ∀ c ∈ text, Runtime.isWhiteSpace c = false :=
    fun c hc => (Bool.or_eq_false_iff.mp (hfilter c hc)).2
  have hblank : Runtime.isNullOrWhiteSpace (some text) = false := by
    rw [Runtime.isNullOrWhiteSpace, List.all_eq_false]
    exact ⟨_, hcolon, by decide⟩
  have hspace : (text.any fun c => decide (c < 0x20) || c == 0x7f || Runtime.isWhiteSpace c) =
      false := by
    rw [List.any_eq_false]
    exact fun c hc => Bool.eq_false_iff.mp (hfilter c hc)
  have hurl := not_url_of_notMem fun c hc => (addressChar_passes (hchars c hc)).2
  rw [parse, hblank, Option.getD_some, trim_eq_self hwhite]
  simp only [hspace, hurl, Bool.false_eq_true, if_false]
  rw [if_neg (by rw [maxInputLength]; omega), if_pos (List.contains_iff_mem.mpr hcolon)]

/-- A destination that `parseIpv6` yields is an address without a scope. -/
theorem parseIpv6_eq_ok_v6 {rt : Runtime} {policy : DestinationPolicy} {text : Str}
    {destination : ParsedDestination} (h : parseIpv6 rt policy text = .ok destination) :
    ∃ bytes, policy.blocklist.isBlocked (.v6 bytes 0) = false ∧
      destination = .ipAddress (.v6 bytes 0) (rt.addressToString (.v6 bytes 0)) := by
  rw [parseIpv6, DestinationParseResult.invalid, ite_error_eq_ok] at h
  replace h := h.2
  split at h
  · next bytes scopeId _ =>
    rw [DestinationParseResult.invalid, ite_error_eq_ok, not_not] at h
    obtain ⟨rfl, hcheck⟩ := h
    exact ⟨bytes, checkAddress_eq_ok_iff.mp hcheck⟩
  · exact absurd h (by simp [DestinationParseResult.invalid])

/-! ### From its own text

A destination is printed and parsed again, for each kind of destination. -/

theorem parse_ipv6_text {rt : Runtime} {policy : DestinationPolicy} {bytes : Octets 16}
    (hprint : PrintsIpv6 rt bytes) (hfree : policy.blocklist.isBlocked (.v6 bytes 0) = false)
    (allowUnderscore : Bool) :
    parse rt policy (some (rt.addressToString (.v6 bytes 0))) allowUnderscore =
      .ok (.ipAddress (.v6 bytes 0) (rt.addressToString (.v6 bytes 0))) := by
  have hchars : ¬ (rt.addressToString (.v6 bytes 0)).any
      (fun c => !(isHexDigit c || c == ofChar ':' || c == ofChar '.')) = true := by
    rw [List.any_eq_true]
    rintro ⟨c, hc, hnot⟩
    have hchar := hprint.chars c hc
    simp only [Bool.not_eq_true', Bool.or_eq_false_iff, beq_eq_false_iff_ne] at hnot
    rcases hchar with hhex | hcolon | hdot
    · exact absurd hhex (by simp [hnot.1.1])
    · exact hnot.1.2 hcolon
    · exact hnot.2 hdot
  rw [parse_of_addressText rt policy allowUnderscore hprint.length_le hprint.colon hprint.chars,
    parseIpv6, if_neg (not_or.mpr ⟨by have := hprint.length_le; omega, hchars⟩),
    hprint.tryParseAddress]
  dsimp only
  rw [if_neg (by simp)]
  exact checkAddress_eq_ok_iff.mpr ⟨hfree, rfl⟩

theorem parse_ipv4_text {rt : Runtime} {policy : DestinationPolicy} {a b c d : UInt8}
    (hfree : policy.blocklist.isBlocked (.v4 (Octets.four a b c d)) = false)
    (allowUnderscore : Bool) :
    parse rt policy (some (dottedQuad a b c d)) allowUnderscore =
      .ok (.ipAddress (.v4 (Octets.four a b c d)) (dottedQuad a b c d)) := by
  have hwhite : ∀ x ∈ dottedQuad a b c d, Runtime.isWhiteSpace x = false := by
    intro x hx
    have hchar : isHexDigit x = true ∨ x = ofChar ':' ∨ x = ofChar '.' :=
      (mem_dottedQuad hx).imp (fun hdigit => by simp [isHexDigit, hdigit]) .inr
    exact (Bool.or_eq_false_iff.mp (addressChar_passes hchar).1).2
  have hread : ReadsIpv4 (trim Runtime.isWhiteSpace (dottedQuad a b c d)) [a, b, c, d] := by
    rw [trim_eq_self hwhite, readsIpv4_iff]
    exact ⟨a, b, c, d, rfl, rfl⟩
  rw [parse_of_readsIpv4 rt policy allowUnderscore hread, checkAddress_eq_ok_iff,
    rt.addressToString_v4]
  exact ⟨hfree, rfl⟩

/-- **A destination is parsed from its own text**, and comes out as it was. -/
theorem parse_text {rt : Runtime} {policy : DestinationPolicy}
    (hprint : ∀ bytes, policy.blocklist.isBlocked (.v6 bytes 0) = false → PrintsIpv6 rt bytes)
    {input : Option Str} {allowUnderscore : Bool} {destination : ParsedDestination}
    (h : parse rt policy input allowUnderscore = .ok destination) :
    parse rt policy (some destination.text) allowUnderscore = .ok destination := by
  obtain ⟨-, -, -, -, hbranch⟩ := parse_eq_ok_iff.mp h
  split at hbranch
  · obtain ⟨bytes, hfree, rfl⟩ := parseIpv6_eq_ok_v6 hbranch
    exact parse_ipv6_text (hprint bytes hfree) hfree allowUnderscore
  split at hbranch
  · unfold parseIpv4 at hbranch
    split at hbranch
    · next a b c d _ =>
      obtain ⟨hfree, rfl⟩ := checkAddress_eq_ok_iff.mp hbranch
      rw [ParsedDestination.text, rt.addressToString_v4]
      exact parse_ipv4_text hfree allowUnderscore
    · exact absurd hbranch (by simp [DestinationParseResult.invalid])
  · obtain rfl := parseHostname_eq_ok hbranch
    exact parse_hostname_self h

/-- The reference runtime prints an address in full. -/
theorem printsIpv6_reference (bytes : Octets 16) : PrintsIpv6 .reference bytes := by
  have htext : Runtime.reference.addressToString (.v6 bytes 0) =
      join ":" (groupTexts bytes.toList) := List.append_nil _
  have hpieces := isPiece_groupTexts bytes.toList
  have hchar : ∀ k < 16, isHexDigit (ofChar k.digitChar) = true := by decide
  constructor
  · rw [htext]
    exact (length_groupTexts_le _).trans (by decide)
  · intro c hc
    rw [htext] at hc
    rcases mem_join hpieces hc with hcolon | ⟨t, ht, hct⟩
    · exact .inr (.inl hcolon)
    · obtain ⟨i, -, rfl⟩ := List.mem_map.mp ht
      obtain ⟨k, hk, rfl⟩ := exists_of_mem_hex hct
      exact .inl (hchar k hk)
  · rw [htext]
    exact colon_mem_groupTexts _
  · have hread : Runtime.reference.tryParseAddress (join ":" (groupTexts bytes.toList)) =
        parseAddress (join ":" (groupTexts bytes.toList)) >>= IPAddress.ofBytes? := rfl
    rw [htext, hread, parseAddress_full bytes.length_toList, Option.bind_eq_bind, Option.bind_some,
      IPAddress.ofBytes?, dif_neg (by simp), dif_pos bytes.length_toList]

theorem parse_text_of_spelling :
    ∃ destination : ParsedDestination, destination.text = "2606:4700:1:2:3:4:5:6" ∧
      (DestinationPolicy.new .reference none none).parse .reference (some destination.text) false =
        .ok destination := by
  have hparse : (DestinationPolicy.new .reference none none).parse .reference
      (some " 2606:4700:1:2:3:4:5:0006 ") false =
        .ok (.ipAddress (.v6 ⟨[0x26, 0x06, 0x47, 0, 0, 1, 0, 2, 0, 3, 0, 4, 0, 5, 0, 6], rfl⟩ 0)
          "2606:4700:1:2:3:4:5:6") := by
    decide +kernel
  exact ⟨_, rfl, parse_text (fun bytes _ => printsIpv6_reference bytes) hparse⟩

end DestinationPolicy

end LookingGlass
