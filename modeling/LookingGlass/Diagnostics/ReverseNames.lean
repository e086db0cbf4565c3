import LookingGlass.Contracts.HostnameGrammar
import LookingGlass.Diagnostics.HostResolver
import LookingGlass.Foundations.Spellings

/-!
# Reverse names

The reverse name of an address has its bytes as labels, the last one first: decimal numbers under
`in-addr.arpa`, or two hex digits for each byte, the lower one first, under `ip6.arpa`. Read from
its end it spells the address, so no other address has the name.

No visitor can ask for such a name, because both zones are blocked.

## A reader that the code does not have

The code prints reverse names and reads none. `parseReverseName` is there to say what they mean: a
name from which the bytes of an address can be read is the name of no other address. That an address
with a scope and one without have the same name is part of it, since the scope is not printed.

The zones `in-addr.arpa` and `ip6.arpa` are among the built-in suffixes. So a reverse name can only
be asked for by way of an address, and that address has been checked.

## Main results

* `HostResolver.parseReverseName_reverseName` — a reverse name is read back as the address
* `HostResolver.reverseName_spec` — it is that of one address only, and it is blocked
-/

namespace AddressText

open Utf16

/-! ### Reading

From the last label to the first, so that the zone comes first and the bytes come in the order of
the address. -/

/-- A label of one hex digit. -/
def parseNibble (label : Str) : Option ℕ :=
  if label.length = 1 then label.head?.bind hexDigit? else none

/-- Two labels for each byte, the higher half first. -/
def parseNibbles : List Str → Option (List UInt8)
  | [] => some []
  | [_] => none
  | high :: low :: rest => do
    let h ← parseNibble high
    let l ← parseNibble low
    let bytes ← parseNibbles rest
    return (16 * h + l).toUInt8 :: bytes

/-- The address of a reverse name, whose labels are read from the last to the first. -/
def parseReverseName (name : Str) : Option (List UInt8) :=
  match (split '.' name).reverse with
  | arpa :: zone :: labels =>
    if arpa ≠ ofString "arpa" then none
    else if zone = ofString "in-addr" ∧ labels.length = 4 then labels.mapM parseOctet
    else if zone = ofString "ip6" ∧ labels.length = 32 then parseNibbles labels
    else none
  | _ => none

theorem toNat_high_half (b : UInt8) : (b >>> 4).toNat = b.toNat / 16 := by
  rw [UInt8.toNat_shiftRight, Nat.shiftRight_eq_div_pow]
  rfl

theorem toNat_low_half (b : UInt8) : (b &&& 0x0f).toNat = b.toNat % 16 := by
  rw [UInt8.toNat_and]
  exact Nat.and_two_pow_sub_one_eq_mod b.toNat 4

theorem parseNibble_hex {n : ℕ} (h : n < 16) : parseNibble (hex n) = some n := by
  rw [hex, Nat.toDigits_of_lt_base h, List.map_singleton, parseNibble, List.length_singleton,
    if_pos rfl]
  exact hexDigit?_digitChar n h

/-- The labels of a byte, the higher half first. -/
def nibbleLabels (b : UInt8) : List Str := [hex (b >>> 4).toNat, hex (b &&& 0x0f).toNat]

theorem parseNibbles_flatMap (bytes : List UInt8) :
    parseNibbles (bytes.flatMap nibbleLabels) = some bytes := by
  induction bytes with
  | nil => rfl
  | cons b bytes ih =>
    have hlt := b.toNat_lt
    have hbyte : (16 * (b.toNat / 16) + b.toNat % 16).toUInt8 = b := by
      rw [Nat.div_add_mod]
      exact UInt8.ofNat_toNat
    rw [List.flatMap_cons, nibbleLabels, toNat_high_half, toNat_low_half, List.cons_append,
      List.cons_append, List.nil_append, parseNibbles, parseNibble_hex (by omega),
      parseNibble_hex (by omega), ih]
    exact congrArg (fun first => some (first :: bytes)) hbyte

/-- A label is not split. -/
theorem dot_notMem_hex (n : ℕ) : ofChar '.' ∉ hex n := by
  have hdigit : ∀ k < 16, ofChar '.' ≠ ofChar k.digitChar := by decide
  intro hmem
  obtain ⟨k, hk, hdot⟩ := exists_of_mem_hex hmem
  exact hdigit k hk hdot

theorem split_join_dot {labels : List Str} (hne : labels ≠ [])
    (h : ∀ label ∈ labels, ofChar '.' ∉ label) : split '.' (join "." labels) = labels :=
  List.splitOn_intercalate _ h hne

/-- Labels that are written with a dot behind each. -/
theorem flatMap_dot_append {rest : List Str} (hrest : rest ≠ []) (labels : List Str) :
    labels.flatMap (fun label => concat [label, "."]) ++ join "." rest =
      join "." (labels ++ rest) := by
  induction labels with
  | nil => rfl
  | cons label labels ih =>
    have hne : labels ++ rest ≠ [] := by simp [hrest]
    rw [List.flatMap_cons, List.append_assoc, ih, List.cons_append, join, join,
      List.intercalate_cons_of_ne_nil hne]
    simp

end AddressText

namespace LookingGlass

namespace HostResolver

open Utf16 AddressText

/-! ### Reverse names

The labels of a name, as a list, and what splitting the text at its dots makes of it. -/

/-- The labels of an address, from the last to the first. -/
def reverseLabels (address : IPAddress) : List Str :=
  match address with
  | .v4 bytes => ofString "arpa" :: ofString "in-addr" :: bytes.toList.map fun b => decimal b.toNat
  | .v6 bytes _ => ofString "arpa" :: ofString "ip6" :: bytes.toList.flatMap nibbleLabels

theorem reverseName_eq (address : IPAddress) :
    reverseName address = join "." (reverseLabels address).reverse := by
  cases address with
  | v4 bytes =>
    obtain ⟨a, b, c, d, rfl⟩ := bytes.exists_four
    have hzone : ofString ".in-addr.arpa" =
        ofChar '.' :: join "." [ofString "in-addr", ofString "arpa"] := by decide
    have hname : reverseName (.v4 (Octets.four a b c d)) =
        dottedQuad d c b a ++ ofString ".in-addr.arpa" := by
      show dottedQuad d c b a ++ (ofString ".in-addr.arpa" ++ []) = _
      rw [List.append_nil]
    rw [hname, hzone]
    exact (intercalate_append (by simp) (by simp)).symm
  | v6 bytes scopeId =>
    have hlength := bytes.length_toList
    have hlabels : (bytes.toList.flatMap nibbleLabels).reverse =
        bytes.toList.reverse.flatMap fun b => (nibbleLabels b).reverse := by
      rw [List.reverse_flatMap]
      rfl
    have hbyte (b : UInt8) :
        concat [hex (b &&& 0x0f).toNat, ".", hex (b >>> 4).toNat, "."] =
          (nibbleLabels b).reverse.flatMap fun label => concat [label, "."] := by
      simp [nibbleLabels]
    have hname : reverseName (.v6 bytes scopeId) =
        (bytes.toList.reverse.flatMap fun b => (nibbleLabels b).reverse).flatMap
          (fun label => concat [label, "."]) ++ ofString "ip6.arpa" := by
      unfold reverseName
      split
      · next h =>
        rw [IPAddress.getAddressBytes] at h
        rw [h] at hlength
        exact absurd hlength (by simp)
      · rw [List.flatMap_assoc]
        simp only [hbyte]
        rfl
    have hzone : ofString "ip6.arpa" = join "." [ofString "ip6", ofString "arpa"] := by decide
    rw [hname, hzone, flatMap_dot_append (by simp), reverseLabels, List.reverse_cons,
      List.reverse_cons, hlabels, List.append_assoc]
    rfl

/-- The labels of the name, in the order in which they are written. -/
theorem split_reverseName (address : IPAddress) :
    split '.' (reverseName address) = (reverseLabels address).reverse := by
  have hdots : ∀ label ∈ (reverseLabels address).reverse, ofChar '.' ∉ label := by
    intro label hlabel
    rw [List.mem_reverse] at hlabel
    cases address with
    | v4 bytes =>
      simp only [reverseLabels, List.mem_cons, List.mem_map] at hlabel
      rcases hlabel with rfl | rfl | ⟨b, -, rfl⟩
      · decide
      · decide
      · exact dot_notMem_decimal _
    | v6 bytes scopeId =>
      simp only [reverseLabels, List.mem_cons, List.mem_flatMap, nibbleLabels, List.not_mem_nil,
        or_false] at hlabel
      rcases hlabel with rfl | rfl | ⟨b, -, rfl | rfl⟩
      · decide
      · decide
      · exact dot_notMem_hex _
      · exact dot_notMem_hex _
  have hne : (reverseLabels address).reverse ≠ [] := by
    cases address <;> simp [reverseLabels]
  rw [reverseName_eq]
  exact split_join_dot hne hdots

/-- **A reverse name is read back** as the bytes of its address. -/
theorem parseReverseName_reverseName (address : IPAddress) :
    parseReverseName (reverseName address) = some address.getAddressBytes := by
  rw [parseReverseName, split_reverseName, List.reverse_reverse]
  cases address with
  | v4 bytes =>
    have hlength : (bytes.toList.map fun b => decimal b.toNat).length = 4 := by simp
    have hread : (bytes.toList.map fun b => decimal b.toNat).mapM parseOctet =
        some bytes.toList :=
      (mapM_eq_some_iff_map fun p b => parseOctet_eq_some_iff).mpr rfl
    dsimp only [reverseLabels]
    rw [if_neg (not_not.mpr rfl), if_pos ⟨rfl, hlength⟩]
    exact hread
  | v6 bytes scopeId =>
    have hlength : (bytes.toList.flatMap nibbleLabels).length = 32 := by
      simp [List.length_flatMap, nibbleLabels]
    have hzone : ofString "ip6" ≠ ofString "in-addr" := by decide
    dsimp only [reverseLabels]
    rw [if_neg (not_not.mpr rfl), if_neg (fun h => hzone h.1), if_pos ⟨rfl, hlength⟩]
    exact parseNibbles_flatMap bytes.toList

/-- No other address has the name. -/
theorem reverseName_inj {a b : IPAddress} :
    reverseName a = reverseName b ↔ a.getAddressBytes = b.getAddressBytes := by
  constructor
  · intro h
    have hread := parseReverseName_reverseName a
    rw [h, parseReverseName_reverseName b] at hread
    exact (Option.some.inj hread).symm
  · intro h
    rw [reverseName, reverseName, h]

/-! ### Blocked names

A name with labels in front of a blocked zone is blocked, and so it is not accepted as a hostname.
-/

/-- Both zones are blocked, whatever else is. -/
theorem mem_blockedSuffixes_new (rt : Runtime) (blocklist : Option IpBlocklist)
    (extra : Option (List Str)) {suffix : Str}
    (h : suffix ∈ DestinationPolicy.defaultBlockedSuffixes) :
    suffix ∈ (DestinationPolicy.new rt blocklist extra).blockedSuffixes := by
  rw [← DestinationPolicy.blockedSuffixes_new_none rt blocklist] at h
  simp only [DestinationPolicy.new, List.map_append, List.filter_append] at h ⊢
  rcases List.mem_append.mp h with h | h
  · exact List.mem_append_left _ h
  · exact absurd h (by simp)

/-- The zone that the labels of the address are in. -/
def reverseZone : IPAddress → Str
  | .v4 _ => "in-addr.arpa"
  | .v6 _ _ => "ip6.arpa"

theorem split_reverseZone_suffix (address : IPAddress) :
    split '.' (reverseZone address) <:+ split '.' (reverseName address) := by
  rw [split_reverseName]
  cases address with
  | v4 bytes =>
    have hzone : split '.' (ofString "in-addr.arpa") = [ofString "in-addr", ofString "arpa"] := by
      decide
    rw [reverseZone, hzone, reverseLabels, List.reverse_cons, List.reverse_cons, List.append_assoc]
    exact List.suffix_append _ _
  | v6 bytes scopeId =>
    have hzone : split '.' (ofString "ip6.arpa") = [ofString "ip6", ofString "arpa"] := by decide
    rw [reverseZone, hzone, reverseLabels, List.reverse_cons, List.reverse_cons, List.append_assoc]
    exact List.suffix_append _ _

theorem reverseZone_mem (address : IPAddress) :
    reverseZone address ∈ DestinationPolicy.defaultBlockedSuffixes := by
  cases address with
  | v4 bytes =>
    rw [reverseZone]
    decide
  | v6 bytes scopeId =>
    rw [reverseZone]
    decide

/-- The zone by itself is the name of no address. -/
theorem reverseName_ne_reverseZone (address : IPAddress) :
    reverseName address ≠ reverseZone address := by
  have hv4 : parseReverseName "in-addr.arpa" = none := by decide
  have hv6 : parseReverseName "ip6.arpa" = none := by decide
  intro heq
  have hread := parseReverseName_reverseName address
  rw [heq] at hread
  cases address with
  | v4 bytes => exact absurd (hv4.symm.trans hread) (by simp)
  | v6 bytes scopeId => exact absurd (hv6.symm.trans hread) (by simp)

theorem reverseZone_isSuffix (address : IPAddress) :
    ofChar '.' :: reverseZone address <:+ reverseName address :=
  ((splitOn_isSuffix_iff _ _).mp (split_reverseZone_suffix address)).resolve_left
    (reverseName_ne_reverseZone address)

section Policy

variable (rt : Runtime) (blocklist : Option IpBlocklist) (extra : Option (List Str))
  (address : IPAddress)

theorem isBlockedName_reverseName :
    (DestinationPolicy.new rt blocklist extra).isBlockedName (reverseName address) = true :=
  (DestinationPolicy.isBlockedName_iff _ _).mpr
    ⟨_, mem_blockedSuffixes_new rt blocklist extra (reverseZone_mem address),
      split_reverseZone_suffix address⟩

/-- Nothing that a visitor enters is read as the name. -/
theorem parse_ne_reverseName (input : Option Str) (allowUnderscore : Bool) :
    DestinationPolicy.parse rt (DestinationPolicy.new rt blocklist extra) input allowUnderscore ≠
      .ok (.hostname (reverseName address)) := by
  intro hparse
  cases input with
  | none =>
    exact absurd hparse (by
      simp [DestinationPolicy.parse, Runtime.isNullOrWhiteSpace, DestinationParseResult.invalid])
  | some input =>
    have hgrammar := DestinationPolicy.parse_eq_hostname_iff.mp hparse
    exact hgrammar.not_blocked _
      (mem_blockedSuffixes_new rt blocklist extra (reverseZone_mem address))
      (split_reverseZone_suffix address)

end Policy

/-- **A reverse name is that of one address**: it spells the bytes, and no visitor can ask for
it. -/
theorem reverseName_spec :
    (∀ address, parseReverseName (reverseName address) = some address.getAddressBytes) ∧
      (∀ a b : IPAddress, reverseName a = reverseName b ↔
        a.getAddressBytes = b.getAddressBytes) ∧
      ∀ (rt : Runtime) (blocklist : Option IpBlocklist) (extra : Option (List Str))
        (address : IPAddress),
        (∃ zone ∈ DestinationPolicy.defaultBlockedSuffixes,
          ofChar '.' :: zone <:+ reverseName address) ∧
        (DestinationPolicy.new rt blocklist extra).isBlockedName (reverseName address) = true ∧
        ∀ input allowUnderscore,
          DestinationPolicy.parse rt (DestinationPolicy.new rt blocklist extra) input
            allowUnderscore ≠ .ok (.hostname (reverseName address)) := by
  refine ⟨parseReverseName_reverseName, fun a b => reverseName_inj, ?_⟩
  intro rt blocklist extra address
  refine ⟨?_, ?_, ?_⟩
  · exact ⟨reverseZone address, reverseZone_mem address, reverseZone_isSuffix address⟩
  · exact isBlockedName_reverseName rt blocklist extra address
  · exact parse_ne_reverseName rt blocklist extra address

end HostResolver

end LookingGlass
