import LookingGlass.Foundations.AddressText

/-!
# Addresses, networks and the base library

`IPAddress` and `IPNetwork` as the code sees them, and a `Runtime`: the functions of the base class
library that the code calls and whose source is not part of the repository. A `Runtime` is any
implementation of them that behaves as documented on canonical input: addresses and ranges in
their canonical written form are read as what they denote, IPv4 addresses are printed in that form,
and ASCII letters change case as ASCII letters do. Everything else about it (which further
spellings of an address it reads, how it prints IPv6, what it does to letters outside ASCII) is left
open, so a theorem about every `Runtime` does not depend on it.

`IPNetwork.contains` is bit-prefix containment within one family.

## Which assumptions, and why these

A field of `Runtime` that is a function stands for a function of the base library, and a field that
is a proposition for a documented fact about it. There are few of the latter. They concern canonical
input only, on which there is no doubt about what the library does, and each of them is used. A
property that would be convenient and is not documented (that the text of an IPv6 address is unique,
say) is not there.

`reference` shows that the assumptions can be met, and makes examples computable. It is no model of
the library: it reads less and prints longer texts.
-/

namespace LookingGlass

open Utf16

inductive AddressFamily
  | interNetwork
  | interNetworkV6
  deriving DecidableEq, Repr

/-- An address, with its bytes in network order. Only IPv6 addresses have a scope, and two addresses
with different scopes are different. -/
inductive IPAddress
  | v4 (bytes : Octets 4)
  | v6 (bytes : Octets 16) (scopeId : UInt32)
  deriving DecidableEq

namespace IPAddress

def addressFamily : IPAddress → AddressFamily
  | v4 _ => .interNetwork
  | v6 _ _ => .interNetworkV6

def getAddressBytes : IPAddress → List UInt8
  | v4 bytes => bytes.toList
  | v6 bytes _ => bytes.toList

/-- An address from 4 or 16 bytes. -/
def ofBytes? (bytes : List UInt8) : Option IPAddress :=
  if h : bytes.length = 4 then some (v4 ⟨bytes, h⟩)
  else if h : bytes.length = 16 then some (v6 ⟨bytes, h⟩ 0)
  else none

/-- Ten zero bytes and two `0xff` in front of the last four. -/
def isIPv4MappedToIPv6 : IPAddress → Bool
  | v4 _ => false
  | v6 bytes _ =>
    (bytes.slice 0 10 (by decide)).toList.all (· == 0) && bytes[10] == 0xff && bytes[11] == 0xff

theorem lastFour_le : 12 + 4 ≤ 16 := by decide

/-- The last four bytes of an IPv6 address. -/
def mapToIPv4 : IPAddress → IPAddress
  | v4 bytes => v4 bytes
  | v6 bytes _ => v4 (bytes.slice 12 4 lastFour_le)

/-- `::ffff:v`, the IPv4-mapped form of `v`. -/
def mapped (v : Octets 4) : Octets 16 :=
  Octets.append ⟨[0, 0, 0, 0, 0, 0, 0, 0, 0, 0, 0xff, 0xff], rfl⟩ v

theorem isIPv4MappedToIPv6_mapped (v : Octets 4) (scopeId : UInt32) :
    (v6 (mapped v) scopeId).isIPv4MappedToIPv6 = true := rfl

theorem mapToIPv4_mapped (v : Octets 4) (scopeId : UInt32) :
    (v6 (mapped v) scopeId).mapToIPv4 = v4 v := by
  obtain ⟨a, b, c, d, rfl⟩ := v.exists_four
  rfl

/-- An address that counts as IPv4-mapped is the mapped form of its last four bytes. -/
theorem eq_mapped_of_isIPv4MappedToIPv6 {bytes : Octets 16} {scopeId : UInt32}
    (h : (v6 bytes scopeId).isIPv4MappedToIPv6 = true) :
    bytes = mapped (bytes.slice 12 4 (by decide)) := by
  obtain ⟨bs, hbs⟩ := bytes
  match bs, hbs with
  | [b0, b1, b2, b3, b4, b5, b6, b7, b8, b9, b10, b11, b12, b13, b14, b15], _ =>
    simp only [isIPv4MappedToIPv6, Octets.slice, GetElem.getElem, List.drop, List.take, List.all,
      List.get, Bool.and_eq_true, beq_iff_eq] at h
    obtain ⟨⟨⟨h0, h1, h2, h3, h4, h5, h6, h7, h8, h9, -⟩, h10⟩, h11⟩ := h
    subst h0 h1 h2 h3 h4 h5 h6 h7 h8 h9 h10 h11
    rfl

end IPAddress

/-- A range of addresses: those that agree with the base address in the first `prefixLength` bits.
The bits behind these are kept as they were written, and nothing depends on them. -/
structure IPNetwork where
  baseAddress : IPAddress
  prefixLength : ℕ
  prefixLength_le : prefixLength ≤ 8 * baseAddress.getAddressBytes.length
  deriving DecidableEq

namespace IPNetwork

def contains (network : IPNetwork) (address : IPAddress) : Bool :=
  network.baseAddress.addressFamily == address.addressFamily &&
    Octets.samePrefix network.prefixLength address.getAddressBytes
      network.baseAddress.getAddressBytes

/-- The network of a range in canonical notation. -/
def ofCidr? (cidr : Str) : Option IPNetwork := do
  let (bytes, prefixLength) ← AddressText.parseCidr cidr
  let baseAddress ← IPAddress.ofBytes? bytes
  if h : prefixLength ≤ 8 * baseAddress.getAddressBytes.length then
    return ⟨baseAddress, prefixLength, h⟩
  else none

theorem addressFamily_of_contains {network : IPNetwork} {address : IPAddress}
    (h : network.contains address) :
    network.baseAddress.addressFamily = address.addressFamily := by
  simp only [contains, Bool.and_eq_true, beq_iff_eq] at h
  exact h.1

/-- Containment of an IPv6 address looks at its bytes, not at its scope. -/
theorem contains_v6 {network : IPNetwork} (bytes : Octets 16) (scopeId : UInt32)
    (h : network.baseAddress.addressFamily = .interNetworkV6) :
    network.contains (.v6 bytes scopeId) =
      Octets.samePrefix network.prefixLength bytes.toList network.baseAddress.getAddressBytes := by
  rw [contains, h]
  exact Bool.true_and _

end IPNetwork

/-- An implementation of the base library functions the code calls, with what is documented about
them on canonical input. -/
structure Runtime where
  /-- `IPAddress.TryParse`; `IPAddress.Parse` throws where this is `none`. -/
  tryParseAddress : Str → Option IPAddress
  /-- `IPAddress.ToString` -/
  addressToString : IPAddress → Str
  /-- `IPNetwork.Parse`; `none` stands for its `FormatException`. -/
  parseNetwork : Str → Option IPNetwork
  /-- `string.ToLowerInvariant` -/
  toLowerInvariant : Str → Str
  /-- `string.ToUpperInvariant` -/
  toUpperInvariant : Str → Str
  tryParseAddress_canonical : ∀ s bytes, AddressText.parseAddress s = some bytes →
    tryParseAddress s = IPAddress.ofBytes? bytes
  parseNetwork_canonical : ∀ s network, IPNetwork.ofCidr? s = some network →
    parseNetwork s = some network
  addressToString_v4 : ∀ a b c d, addressToString (.v4 (Octets.four a b c d)) =
    AddressText.dottedQuad a b c d
  toLowerInvariant_ascii : ∀ s, IsAscii s → toLowerInvariant s = s.map asciiLower
  toUpperInvariant_ascii : ∀ s, IsAscii s → toUpperInvariant s = s.map asciiUpper

namespace Runtime

/-- A runtime that reads canonical text and nothing else, prints IPv6 addresses in full and knows
only ASCII letters. -/
def reference : Runtime where
  tryParseAddress s := AddressText.parseAddress s >>= IPAddress.ofBytes?
  addressToString
    | .v4 bytes => join "." (bytes.toList.map fun b => AddressText.decimal b.toNat)
    | .v6 bytes scopeId =>
      join ":" ((List.range 8).map fun i =>
        AddressText.hex (Octets.bigEndian ((bytes.toList.drop (2 * i)).take 2))) ++
      if scopeId = 0 then [] else ofChar '%' :: AddressText.decimal scopeId.toNat
  parseNetwork := IPNetwork.ofCidr?
  toLowerInvariant s := s.map asciiLower
  toUpperInvariant s := s.map asciiUpper
  tryParseAddress_canonical s bytes h := by simp [h]
  parseNetwork_canonical _ _ h := h
  addressToString_v4 _ _ _ _ := rfl
  toLowerInvariant_ascii _ _ := rfl
  toUpperInvariant_ascii _ _ := rfl

/-- `char.IsWhiteSpace`. -/
def isWhiteSpace (c : Char16) : Bool :=
  (0x09 ≤ c && c ≤ 0x0d) || c == 0x20 || c == 0x85 || c == 0xa0 || c == 0x1680 ||
    (0x2000 ≤ c && c ≤ 0x200a) || c == 0x2028 || c == 0x2029 || c == 0x202f || c == 0x205f ||
    c == 0x3000

/-- `string.IsNullOrWhiteSpace`. -/
def isNullOrWhiteSpace : Option Str → Bool
  | none => true
  | some s => s.all isWhiteSpace

end Runtime

end LookingGlass
