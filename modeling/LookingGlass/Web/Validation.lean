import LookingGlass.Contracts.HostnameGrammar

/-!
# Validation in the browser

The form refuses what the service would refuse, so that a visitor hears of it at once. It has tables
of its own for that: arithmetic on octets, masks on 16-bit groups, and a list of suffixes. Each of
them says less than the table of the service, and nothing else, so no public destination is called
private.

Octets and groups are numbers here, as they are in the browser; those of an address are below 2 ^ 8
and 2 ^ 16.

## Two tables for one purpose

The service has its ranges as a list of CIDRs and compares bits with it. The browser compares
numbers, with bounds in the case of IPv4 and with masks in that of IPv6. Each entry of its tables is
compared with one or two entries of the list, and for this a mask of leading ones has to be seen as
a division.

The other direction is not claimed. The browser does not know the ranges that an operator adds, and
it lacks some of the built-in ones, so the service refuses more than the form does.

A mapped address is checked by way of the IPv4 address in it, on both sides. The service does the
same with other forms.

## Main results

* `Validation.and_mask` — a mask of leading ones tests a prefix
* `Validation.isBlocked_of_ipv4BlockReason`, `Validation.isBlocked_of_ipv6BlockReason`,
  `Validation.isBlockedName_of_isInternalName` — the three tables, one by one
* `Validation.blocked_of_refused` — what the browser refuses, the service blocks
-/

namespace LookingGlass

open Utf16

namespace Validation

def internalSuffixes : List Str :=
  ["localhost", "local", "internal", "localdomain", "lan", "home", "home.arpa", "corp", "intranet",
    "private", "svc", "cluster.local"]

def ipv4BlockReason (octets : List ℕ) : Option Str :=
  let a := octets.getD 0 0
  let b := octets.getD 1 0
  let c := octets.getD 2 0
  if a = 0 then some "0.0.0.0/8 is a reserved range"
  else if a = 10 then some "10.0.0.0/8 is a private range"
  else if a = 100 ∧ 64 ≤ b ∧ b ≤ 127 then
    some "100.64.0.0/10 is a shared carrier-grade NAT range"
  else if a = 127 then some "127.0.0.0/8 is the loopback range"
  else if a = 169 ∧ b = 254 then some "169.254.0.0/16 is a link-local range"
  else if a = 172 ∧ 16 ≤ b ∧ b ≤ 31 then some "172.16.0.0/12 is a private range"
  else if a = 192 ∧ b = 168 then some "192.168.0.0/16 is a private range"
  else if a = 192 ∧ b = 0 ∧ c = 0 then some "192.0.0.0/24 is a reserved range"
  else if 224 ≤ a ∧ a ≤ 239 then some "224.0.0.0/4 is a multicast range"
  else if 240 ≤ a then some "240.0.0.0/4 is a reserved range"
  else none

def ipv6BlockReason (groups : List ℕ) : Option Str :=
  let g0 := groups.getD 0 0
  if groups.all (· == 0) then some "the unspecified address is not a valid destination"
  else if (groups.take 7).all (· == 0) ∧ groups[7]? = some 1 then some "::1 is the loopback address"
  else if g0 &&& 0xffc0 = 0xfe80 then some "fe80::/10 is a link-local range"
  else if g0 &&& 0xfe00 = 0xfc00 then some "fc00::/7 is a private (unique local) range"
  else if g0 &&& 0xff00 = 0xff00 then some "ff00::/8 is a multicast range"
  else if (groups.take 5).all (· == 0) ∧ groups[5]? = some 0xffff then
    let octets := [groups.getD 6 0 >>> 8, groups.getD 6 0 &&& 0xff, groups.getD 7 0 >>> 8,
      groups.getD 7 0 &&& 0xff]
    (ipv4BlockReason octets).map fun reason =>
      concat ["the embedded IPv4 address is blocked (", reason, ")"]
  else none

def isInternalName (host : Str) : Bool :=
  internalSuffixes.any fun suffix => host == suffix || (ofChar '.' :: suffix).isSuffixOf host

/-! ### IPv4

A range of the browser is given by bounds on the first octets, and each of them is a range of the
list or a part of one. -/

/-- An address that agrees with the base address of a default range in the first `len` bits. -/
theorem isBlocked_of_range {a b c d : UInt8} (cidr : Str) (a' b' c' d' : UInt8) (len : ℕ)
    (hcidr : cidr ∈ IpBlocklist.defaultCidrs)
    (hrange : ∃ network ∈ IPNetwork.ofCidr? cidr,
      network.baseAddress = .v4 (Octets.four a' b' c' d') ∧ network.prefixLength = len)
    (h : (256 * (256 * (256 * a.toNat + b.toNat) + c.toNat) + d.toNat) / 2 ^ (32 - len) =
      (256 * (256 * (256 * a'.toNat + b'.toNat) + c'.toNat) + d'.toNat) / 2 ^ (32 - len)) :
    IpBlocklist.default.isBlocked (.v4 (Octets.four a b c d)) = true := by
  obtain ⟨network, hread, hbase, hlen⟩ := hrange
  rw [IpBlocklist.isBlocked_v4, IpBlocklist.isListed_iff]
  refine ⟨network, List.mem_filterMap.mpr ⟨cidr, hcidr, hread⟩, ?_⟩
  rw [IPNetwork.contains, hbase, hlen]
  simpa [IPAddress.addressFamily, IPAddress.getAddressBytes, Octets.samePrefix, Octets.bigEndian,
    Octets.four] using h

/-- **What the browser refuses of IPv4**, range by range. -/
theorem isBlocked_of_ipv4BlockReason {a b c d : UInt8}
    (h : (ipv4BlockReason [a.toNat, b.toNat, c.toNat, d.toNat]).isSome) :
    IpBlocklist.default.isBlocked (.v4 (Octets.four a b c d)) = true := by
  have ha := a.toNat_lt
  have hb := b.toNat_lt
  have hc := c.toNat_lt
  have hd := d.toNat_lt
  simp only [ipv4BlockReason, List.getD_cons_zero, List.getD_cons_succ] at h
  by_cases h₁ : a.toNat = 0
  · exact isBlocked_of_range "0.0.0.0/8" 0 0 0 0 8 (by decide +kernel)
      (by decide +kernel) (by simp; omega)
  by_cases h₂ : a.toNat = 10
  · exact isBlocked_of_range "10.0.0.0/8" 10 0 0 0 8 (by decide +kernel)
      (by decide +kernel) (by simp; omega)
  by_cases h₃ : a.toNat = 100 ∧ 64 ≤ b.toNat ∧ b.toNat ≤ 127
  · exact isBlocked_of_range "100.64.0.0/10" 100 64 0 0 10 (by decide +kernel)
      (by decide +kernel) (by simp; omega)
  by_cases h₄ : a.toNat = 127
  · exact isBlocked_of_range "127.0.0.0/8" 127 0 0 0 8 (by decide +kernel)
      (by decide +kernel) (by simp; omega)
  by_cases h₅ : a.toNat = 169 ∧ b.toNat = 254
  · exact isBlocked_of_range "169.254.0.0/16" 169 254 0 0 16 (by decide +kernel)
      (by decide +kernel) (by simp; omega)
  by_cases h₆ : a.toNat = 172 ∧ 16 ≤ b.toNat ∧ b.toNat ≤ 31
  · exact isBlocked_of_range "172.16.0.0/12" 172 16 0 0 12 (by decide +kernel)
      (by decide +kernel) (by simp; omega)
  by_cases h₇ : a.toNat = 192 ∧ b.toNat = 168
  · exact isBlocked_of_range "192.168.0.0/16" 192 168 0 0 16 (by decide +kernel)
      (by decide +kernel) (by simp; omega)
  by_cases h₈ : a.toNat = 192 ∧ b.toNat = 0 ∧ c.toNat = 0
  · exact isBlocked_of_range "192.0.0.0/24" 192 0 0 0 24 (by decide +kernel)
      (by decide +kernel) (by simp; omega)
  by_cases h₉ : 224 ≤ a.toNat ∧ a.toNat ≤ 239
  · exact isBlocked_of_range "224.0.0.0/4" 224 0 0 0 4 (by decide +kernel)
      (by decide +kernel) (by simp; omega)
  by_cases h₁₀ : 240 ≤ a.toNat
  · exact isBlocked_of_range "240.0.0.0/4" 240 0 0 0 4 (by decide +kernel)
      (by decide +kernel) (by simp; omega)
  · simp only [if_neg h₁, if_neg h₂, if_neg h₃, if_neg h₄, if_neg h₅, if_neg h₆, if_neg h₇,
      if_neg h₈, if_neg h₉, if_neg h₁₀, Option.isSome_none, Bool.false_eq_true] at h

/-! ### IPv6

The masks, and the octets of which a group consists. -/

/-- A mask of `a` ones at position `k` keeps the bits from there on. -/
theorem and_mask (g a k : ℕ) : g &&& ((2 ^ a - 1) * 2 ^ k) = g / 2 ^ k % 2 ^ a * 2 ^ k := by
  apply Nat.eq_of_testBit_eq
  intro i
  simp only [Nat.testBit_and, Nat.testBit_mul_two_pow, Nat.testBit_mod_two_pow,
    Nat.testBit_div_two_pow, Nat.testBit_two_pow_sub_one]
  by_cases h : k ≤ i
  · simp [h, Bool.and_comm]
  · simp [h]

/-- A masked group below 2 ^ 16 is what its leading bits say. -/
theorem div_of_and_mask {g a k r : ℕ} (hg : g < 2 ^ (a + k))
    (h : g &&& ((2 ^ a - 1) * 2 ^ k) = r * 2 ^ k) : g / 2 ^ k = r := by
  have hlt : g / 2 ^ k < 2 ^ a := by
    rw [Nat.div_lt_iff_lt_mul (Nat.two_pow_pos k), ← pow_add]
    exact hg
  rw [and_mask, Nat.mod_eq_of_lt hlt] at h
  exact Nat.eq_of_mul_eq_mul_right (Nat.two_pow_pos k) h

/-- The bytes of a group. -/
def groupBytes (g : UInt16) : List UInt8 := [(g >>> 8).toUInt8, g.toUInt8]

/-- The address of eight groups. -/
def ofGroups (g0 g1 g2 g3 g4 g5 g6 g7 : UInt16) : Octets 16 :=
  ⟨[g0, g1, g2, g3, g4, g5, g6, g7].flatMap groupBytes, rfl⟩

theorem toNat_high (g : UInt16) : (g >>> 8).toUInt8.toNat = g.toNat >>> 8 := by
  have hg := g.toNat_lt
  simp only [UInt16.toNat_toUInt8, UInt16.toNat_shiftRight]
  simp [Nat.shiftRight_eq_div_pow]
  omega

theorem toNat_low (g : UInt16) : g.toUInt8.toNat = g.toNat &&& 0xff := by
  rw [UInt16.toNat_toUInt8]
  exact (Nat.and_two_pow_sub_one_eq_mod g.toNat 8).symm

theorem bigEndian_groupBytes (g : UInt16) : Octets.bigEndian (groupBytes g) = g.toNat := by
  have hg := g.toNat_lt
  simp only [Octets.bigEndian, groupBytes, List.foldl_cons, List.foldl_nil]
  rw [toNat_high, UInt16.toNat_toUInt8, Nat.shiftRight_eq_div_pow]
  omega

/-- The first group of a mapped address is zero. -/
theorem isIPv4MappedToIPv6_eq_false {g0 g1 g2 g3 g4 g5 g6 g7 : UInt16} {scopeId : UInt32}
    (h : g0.toNat ≠ 0) :
    (IPAddress.v6 (ofGroups g0 g1 g2 g3 g4 g5 g6 g7) scopeId).isIPv4MappedToIPv6 = false := by
  rw [Bool.eq_false_iff]
  intro hmapped
  have hbytes := congrArg Octets.toList (IPAddress.eq_mapped_of_isIPv4MappedToIPv6 hmapped)
  obtain ⟨hhigh, hrest⟩ := List.cons.inj hbytes
  obtain ⟨hlow, -⟩ := List.cons.inj hrest
  apply h
  rw [← bigEndian_groupBytes, groupBytes, hhigh, hlow]
  rfl

/-- An address whose first group agrees with a default range of at most 16 bits. -/
theorem isBlocked_of_leading {g0 g1 g2 g3 g4 g5 g6 g7 : UInt16} {scopeId : UInt32} (cidr : Str)
    (r len : ℕ) (hcidr : cidr ∈ IpBlocklist.defaultCidrs)
    (hrange : ∃ network ∈ IPNetwork.ofCidr? cidr,
      network.baseAddress.addressFamily = .interNetworkV6 ∧ network.prefixLength = len ∧
        len ≤ 16 ∧ network.baseAddress.getAddressBytes.length = 16 ∧
        Octets.bigEndian network.baseAddress.getAddressBytes / 2 ^ (128 - len) = r)
    (h : g0.toNat / 2 ^ (16 - len) = r) (hr : r ≠ 0) :
    IpBlocklist.default.isBlocked (.v6 (ofGroups g0 g1 g2 g3 g4 g5 g6 g7) scopeId) = true := by
  obtain ⟨network, hread, hfamily, hlen, hle, hbase, hvalue⟩ := hrange
  have hzero : g0.toNat ≠ 0 := by
    rintro hg
    rw [hg, Nat.zero_div] at h
    exact hr h.symm
  have hdefault : network ∈ IpBlocklist.default.networks :=
    List.mem_filterMap.mpr ⟨cidr, hcidr, hread⟩
  refine IpBlocklist.isBlocked_of_contains hdefault ?_ (isIPv4MappedToIPv6_eq_false hzero)
  rw [IPNetwork.contains_v6 _ _ hfamily, hlen]
  show Octets.samePrefix len
    (groupBytes g0 ++ [g1, g2, g3, g4, g5, g6, g7].flatMap groupBytes) _ = true
  rw [Octets.samePrefix_append (by simpa [groupBytes] using hle), hbase, bigEndian_groupBytes]
  simpa [groupBytes, hvalue] using h

/-- The groups of an address, as the browser has them. -/
abbrev groupNumbers (g0 g1 g2 g3 g4 g5 g6 g7 : UInt16) : List ℕ :=
  [g0, g1, g2, g3, g4, g5, g6, g7].map UInt16.toNat

/-- A test that all groups are zero. -/
theorem all_toNat_eq_zero_iff (groups : List UInt16) :
    (groups.map UInt16.toNat).all (· == 0) = true ↔ ∀ g ∈ groups, g = 0 := by
  rw [List.all_map, List.all_eq_true]
  refine forall₂_congr fun g _ => ?_
  rw [Function.comp_apply, beq_iff_eq]
  exact UInt16.toNat_inj (b := 0)

/-- **What the browser refuses of IPv6**, range by range. -/
theorem isBlocked_of_ipv6BlockReason {g0 g1 g2 g3 g4 g5 g6 g7 : UInt16} {scopeId : UInt32}
    (h : (ipv6BlockReason (groupNumbers g0 g1 g2 g3 g4 g5 g6 g7)).isSome) :
    IpBlocklist.default.isBlocked (.v6 (ofGroups g0 g1 g2 g3 g4 g5 g6 g7) scopeId) = true := by
  have hg := g0.toNat_lt
  unfold ipv6BlockReason at h
  by_cases h₁ : (groupNumbers g0 g1 g2 g3 g4 g5 g6 g7).all (· == 0) = true
  · have hzero := (all_toNat_eq_zero_iff _).mp h₁
    simp only [List.forall_mem_cons] at hzero
    obtain ⟨rfl, rfl, rfl, rfl, rfl, rfl, rfl, rfl, -⟩ := hzero
    exact IpBlocklist.isBlocked_compatible _ (Octets.four 0 0 0 0) scopeId
  by_cases h₂ : ((groupNumbers g0 g1 g2 g3 g4 g5 g6 g7).take 7).all (· == 0) = true ∧
      (groupNumbers g0 g1 g2 g3 g4 g5 g6 g7)[7]? = some 1
  · have hzero := (all_toNat_eq_zero_iff [g0, g1, g2, g3, g4, g5, g6]).mp h₂.1
    simp only [List.forall_mem_cons] at hzero
    obtain ⟨rfl, rfl, rfl, rfl, rfl, rfl, rfl, -⟩ := hzero
    obtain rfl : g7 = 1 := UInt16.toNat_inj.mp (Option.some.inj h₂.2)
    exact IpBlocklist.isBlocked_compatible _ (Octets.four 0 0 0 1) scopeId
  have hfirst : (groupNumbers g0 g1 g2 g3 g4 g5 g6 g7).getD 0 0 = g0.toNat := rfl
  rw [hfirst] at h
  by_cases h₃ : g0.toNat &&& 0xffc0 = 0xfe80
  · exact isBlocked_of_leading "fe80::/10" 0x3fa 10 (by decide +kernel) (by decide +kernel)
      (div_of_and_mask (a := 10) (k := 6) hg h₃) (by decide)
  by_cases h₄ : g0.toNat &&& 0xfe00 = 0xfc00
  · exact isBlocked_of_leading "fc00::/7" 0x7e 7 (by decide +kernel) (by decide +kernel)
      (div_of_and_mask (a := 7) (k := 9) hg h₄) (by decide)
  by_cases h₅ : g0.toNat &&& 0xff00 = 0xff00
  · exact isBlocked_of_leading "ff00::/8" 0xff 8 (by decide +kernel) (by decide +kernel)
      (div_of_and_mask (a := 8) (k := 8) hg h₅) (by decide)
  by_cases h₆ : ((groupNumbers g0 g1 g2 g3 g4 g5 g6 g7).take 5).all (· == 0) = true ∧
      (groupNumbers g0 g1 g2 g3 g4 g5 g6 g7)[5]? = some 0xffff
  · obtain ⟨reason, hreason⟩ := Option.isSome_iff_exists.mp h
    rw [if_neg h₁, if_neg h₂, if_neg h₃, if_neg h₄, if_neg h₅, if_pos h₆] at hreason
    obtain ⟨inner, hinner, -⟩ := Option.map_eq_some_iff.mp hreason
    have hzero := (all_toNat_eq_zero_iff [g0, g1, g2, g3, g4]).mp h₆.1
    simp only [List.forall_mem_cons] at hzero
    obtain ⟨rfl, rfl, rfl, rfl, rfl, -⟩ := hzero
    obtain rfl : g5 = 0xffff := UInt16.toNat_inj.mp (Option.some.inj h₆.2)
    show IpBlocklist.default.isBlocked (.v6 (IPAddress.mapped (Octets.four (g6 >>> 8).toUInt8
      g6.toUInt8 (g7 >>> 8).toUInt8 g7.toUInt8)) scopeId) = true
    rw [IpBlocklist.isBlocked_mapped]
    refine isBlocked_of_ipv4BlockReason ?_
    rw [toNat_high, toNat_low, toNat_high, toNat_low]
    exact Option.isSome_iff_exists.mpr ⟨inner, hinner⟩
  · rw [if_neg h₁, if_neg h₂, if_neg h₃, if_neg h₄, if_neg h₅, if_neg h₆] at h
    exact absurd h (by simp)

/-! ### Names

Each suffix of the browser is a built-in suffix of the service. -/

/-- The suffixes of the browser are among those of the service. -/
theorem isBlockedName_of_isInternalName {rt : Runtime} {blocklist : Option IpBlocklist} {name : Str}
    (h : isInternalName name = true) :
    (DestinationPolicy.new rt blocklist none).isBlockedName name = true := by
  have hsubset : ∀ suffix ∈ internalSuffixes,
    suffix ∈ DestinationPolicy.defaultBlockedSuffixes := by
    decide
  obtain ⟨suffix, hsuffix, hmatch⟩ := List.any_eq_true.mp h
  rw [DestinationPolicy.isBlockedName, DestinationPolicy.blockedSuffixes_new_none, List.any_eq_true]
  exact ⟨suffix, hsubset suffix hsuffix, hmatch⟩

/-! ### All three

With the default ranges for addresses, and with any further ranges for names. -/

/-- **No public destination is called private**: what the browser refuses, the service blocks. -/
theorem blocked_of_refused (rt : Runtime) :
    (∀ a b c d : UInt8, ipv4BlockReason [a.toNat, b.toNat, c.toNat, d.toNat] ≠ none →
      IpBlocklist.default.isBlocked (.v4 (Octets.four a b c d)) = true) ∧
    (∀ (g0 g1 g2 g3 g4 g5 g6 g7 : UInt16) (scopeId : UInt32),
      ipv6BlockReason (groupNumbers g0 g1 g2 g3 g4 g5 g6 g7) ≠ none →
        IpBlocklist.default.isBlocked (.v6 (ofGroups g0 g1 g2 g3 g4 g5 g6 g7) scopeId) = true) ∧
    ∀ name, isInternalName name = true →
      (DestinationPolicy.new rt none none).isBlockedName name = true :=
  ⟨fun _ _ _ _ h => isBlocked_of_ipv4BlockReason (Option.isSome_iff_ne_none.mpr h),
    fun _ _ _ _ _ _ _ _ _ h => isBlocked_of_ipv6BlockReason (Option.isSome_iff_ne_none.mpr h),
    fun _ h => isBlockedName_of_isInternalName h⟩

/-- A carrier-grade NAT address, its mapped form, and a name of the local network. -/
theorem blocked_of_refused_examples :
    IpBlocklist.default.isBlocked (.v4 (Octets.four 100 100 0 1)) = true ∧
      IpBlocklist.default.isBlocked (.v6 (ofGroups 0 0 0 0 0 0xffff 0x6464 1) 0) = true ∧
      (DestinationPolicy.new .reference none none).isBlockedName "printer.lan" = true :=
  ⟨(blocked_of_refused .reference).1 100 100 0 1 (by decide),
    (blocked_of_refused .reference).2.1 0 0 0 0 0 0xffff 0x6464 1 0 (by decide),
    (blocked_of_refused .reference).2.2 "printer.lan" (by decide)⟩

end Validation

end LookingGlass
