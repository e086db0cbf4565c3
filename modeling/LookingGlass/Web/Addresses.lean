import LookingGlass.Contracts.AddressLiterals
import LookingGlass.Foundations.Occurrences

/-!
# Addresses in the browser

The form reads addresses by itself. `parseIPv4` reads what the service reads: each address has one
spelling, and on both sides it is the one that is printed.

## One spelling

An octet has no zero in front of it, and so the decimal digits of a number below 256 are the only
text that is read as that number. This matters because other programs read a leading zero as the
sign of an octal number. A text that one of them takes for another address is refused by both
parsers, the one of the service and the one of the form.

The parser of the runtime would read more: octets in other radixes, and fewer than four of them. The
service asks it for texts with a colon only. Digits and dots go to a loop of its own.

## Main results

* `Validation.ipv4_spelling` — the one spelling of an IPv4 address, in the browser and the service
-/

namespace LookingGlass

open Utf16 AddressText

namespace Validation

/-- One round of the loop of `parseIPv4`. -/
def parseIPv4Part (part : Str) : Option ℕ :=
  if ¬ (1 ≤ part.length ∧ part.length ≤ 3 ∧ part.all isDigit) then none
  else if part.length > 1 ∧ part.head? = some (ofChar '0') then none
  else if decimalValue part > 255 then none
  else some (decimalValue part)

def parseIPv4 (input : Str) : Option (List ℕ) :=
  let parts := split '.' input
  if parts.length ≠ 4 then none else parts.mapM parseIPv4Part

theorem parseIPv4Part_eq (part : Str) :
    parseIPv4Part part = (parseOctet part).map UInt8.toNat := by
  unfold parseIPv4Part parseOctet
  split
  · next hshape =>
    rw [if_neg fun h => hshape ⟨h.1, h.2.1, h.2.2.1⟩]
    rfl
  · next hshape =>
    rw [not_not] at hshape
    obtain ⟨hpos, hlen, hdigits⟩ := hshape
    split
    · next hlead =>
      rw [if_neg]
      · rfl
      · rintro ⟨-, -, -, hone | hne, -⟩
        · omega
        · exact hne hlead.2
    · next hlead =>
      split
      · next hlarge =>
        rw [if_neg fun h => by omega]
        rfl
      · next hlarge =>
        have hone : part.length = 1 ∨ part.head? ≠ some (ofChar '0') :=
          (not_and_or.mp hlead).imp (fun hmore => by omega) id
        rw [if_pos ⟨hpos, hlen, hdigits, hone, by omega⟩, Option.map_some, Nat.toUInt8,
          UInt8.toNat_ofNat', Nat.mod_eq_of_lt (by omega)]

/-- The browser reads what the service reads. -/
theorem parseIPv4_eq_some_iff {input : Str} {numbers : List ℕ} : parseIPv4 input = some numbers ↔
    ∃ a b c d : UInt8, numbers = [a, b, c, d].map UInt8.toNat ∧ input = dottedQuad a b c d := by
  have hread : ∀ octets : List UInt8, (split '.' input).mapM parseOctet = some octets ↔
      split '.' input = octets.map fun x => decimal x.toNat :=
    fun octets => mapM_eq_some_iff_map fun p x => parseOctet_eq_some_iff
  have hpart : parseIPv4Part = fun part => (parseOctet part).map UInt8.toNat := by
    funext part
    exact parseIPv4Part_eq part
  simp only [parseIPv4, hpart, mapM_option_map, eq_dottedQuad_iff]
  constructor
  · intro h
    split at h
    · exact absurd h (by simp)
    · next hlen =>
      obtain ⟨octets, hoctets, rfl⟩ := Option.map_eq_some_iff.mp h
      rw [hread] at hoctets
      rw [not_not, hoctets, List.length_map] at hlen
      match octets, hlen with
      | [a, b, c, d], _ => exact ⟨a, b, c, d, rfl, hoctets⟩
  · rintro ⟨a, b, c, d, rfl, hpieces⟩
    rw [if_neg (by rw [hpieces]; simp), (hread _).mpr hpieces, Option.map_some]

/-- **An IPv4 address has one spelling**, the decimal dotted quad, in the service and in the
browser. What the service reads as one goes on to the check of the address, and what it does not is
invalid. -/
theorem ipv4_spelling (s : Str) :
    (∀ a b c d, DestinationPolicy.ReadsIpv4 s [a, b, c, d] ↔ s = dottedQuad a b c d) ∧
    (∀ a b c d : UInt8, parseIPv4 s = some [a.toNat, b.toNat, c.toNat, d.toNat] ↔
      s = dottedQuad a b c d) ∧
    (∀ numbers, parseIPv4 s = some numbers →
      ∃ a b c d : UInt8, numbers = [a.toNat, b.toNat, c.toNat, d.toNat]) ∧
    (∀ t octets, DestinationPolicy.ReadsIpv4 s octets → DestinationPolicy.ReadsIpv4 t octets →
      s = t) ∧
    (∀ t numbers, parseIPv4 s = some numbers → parseIPv4 t = some numbers → s = t) ∧
    ∀ (rt : Runtime) (policy : DestinationPolicy) (input : Str) (allowUnderscore : Bool),
      trim Runtime.isWhiteSpace input = s → DestinationPolicy.IsQuadText s →
      (∀ a b c d, DestinationPolicy.ReadsIpv4 s [a, b, c, d] →
        policy.parse rt (some input) allowUnderscore =
          policy.checkAddress rt (.v4 (Octets.four a b c d))) ∧
      ((∀ octets, ¬ DestinationPolicy.ReadsIpv4 s octets) →
        ∃ message, policy.parse rt (some input) allowUnderscore =
          DestinationParseResult.invalid message) := by
  have hserver : ∀ t a b c d, DestinationPolicy.ReadsIpv4 t [a, b, c, d] ↔
      t = dottedQuad a b c d := by
    intro t a b c d
    rw [DestinationPolicy.readsIpv4_iff]
    constructor
    · rintro ⟨a', b', c', d', heq, rfl⟩
      exact dottedQuad_inj.mpr heq.symm
    · rintro rfl
      exact ⟨a, b, c, d, rfl, rfl⟩
  have hnumbers : ∀ t (a b c d : UInt8), parseIPv4 t = some [a.toNat, b.toNat, c.toNat, d.toNat] ↔
      t = dottedQuad a b c d := by
    intro t a b c d
    rw [parseIPv4_eq_some_iff]
    constructor
    · rintro ⟨a', b', c', d', heq, rfl⟩
      have hbytes : [a, b, c, d].map UInt8.toNat = [a', b', c', d'].map UInt8.toNat := heq
      have hinj : Function.Injective UInt8.toNat := fun _ _ => UInt8.toNat_inj.mp
      exact dottedQuad_inj.mpr (List.map_injective_iff.mpr hinj hbytes).symm
    · rintro rfl
      exact ⟨a, b, c, d, rfl, rfl⟩
  refine ⟨hserver s, hnumbers s, ?_, ?_, ?_, ?_⟩
  · intro numbers h
    obtain ⟨a, b, c, d, rfl, -⟩ := parseIPv4_eq_some_iff.mp h
    exact ⟨a, b, c, d, rfl⟩
  · intro t octets hs ht
    obtain ⟨a, b, c, d, rfl, rfl⟩ := DestinationPolicy.readsIpv4_iff.mp hs
    exact ((hserver t a b c d).mp ht).symm
  · intro t numbers hs ht
    obtain ⟨a, b, c, d, rfl, rfl⟩ := parseIPv4_eq_some_iff.mp hs
    exact ((hnumbers t a b c d).mp ht).symm
  · rintro rt policy input allowUnderscore rfl hquad
    refine ⟨fun a b c d h => ?_, fun h => ?_⟩
    · exact DestinationPolicy.parse_of_readsIpv4 rt policy allowUnderscore h
    · exact DestinationPolicy.parse_of_not_readsIpv4 rt policy allowUnderscore hquad h

end Validation

end LookingGlass
