import LookingGlass.Contracts.Runtime

/-!
# The address blocklist

`IpBlocklist.isBlocked` does not look an address up in the ranges. It looks up the candidates that
`expand` makes of it: an IPv4-mapped address is *replaced* by the embedded IPv4 address, a NAT64 or
6to4 address is looked up *together with* the embedded one, everything else is looked up as it is.
What is blocked is therefore a property of the candidates, and the results below are about the two
places where that differs from plain containment.

## Candidates

The embedded address of a NAT64 or a 6to4 address is looked up next to the address itself, so such
an address is blocked if either of the two is. A mapped address is not looked up at all, and ranges
over mapped addresses are compared with nothing. A default range is never one of those. An extra
range may be, and then it is accepted without a word and enforced only as far as other ranges cover
the embedded addresses.

## The constructor

It throws where a range cannot be parsed. The default ranges are in canonical notation, which every
runtime reads as it stands, so they are among the networks of any blocklist that was constructed.
This is a field of the structure, and a blocklist without them cannot be built.

## Main results

* `IpBlocklist.isBlocked_of_contains` — outside the IPv4-mapped block, every range is enforced
* `IpBlocklist.isBlocked_embedded` — the forms that embed an IPv4 address agree with it
* `IpBlocklist.enforced_iff` — when a range is enforced over its whole extent
-/

namespace LookingGlass

open Utf16

namespace IpBlocklist

def defaultCidrs : List Str :=
  ["0.0.0.0/8", "10.0.0.0/8", "100.64.0.0/10", "127.0.0.0/8", "169.254.0.0/16", "172.16.0.0/12",
    "192.0.0.0/24", "192.0.2.0/24", "192.88.99.0/24", "192.168.0.0/16", "198.18.0.0/15",
    "198.51.100.0/24", "203.0.113.0/24", "224.0.0.0/4", "240.0.0.0/4", "::/96", "::1/128",
    "64:ff9b:1::/48", "100::/64", "2001::/23", "2001:db8::/32", "2002::/16", "3fff::/20",
    "fc00::/7", "fe80::/10", "fec0::/10", "ff00::/8"]

/-- The default ranges, in canonical notation, as networks. -/
def defaultNetworks : List IPNetwork := defaultCidrs.filterMap IPNetwork.ofCidr?

/-- Addresses of metadata services. Written out as `IPAddress.Parse` reads them. -/
def metadataAddresses : List IPAddress :=
  (["169.254.169.254", "169.254.170.2", "100.100.100.200", "fd00:ec2::254"] : List Str).filterMap
    fun s => AddressText.parseAddress s >>= IPAddress.ofBytes?

end IpBlocklist

/-- The networks of a blocklist; the default ranges are always among them. As this is a field, no
statement about a blocklist has to assume it. -/
structure IpBlocklist where
  networks : List IPNetwork
  defaultNetworks_subset : ∀ network ∈ IpBlocklist.defaultNetworks, network ∈ networks

namespace IpBlocklist

theorem mapM_parseNetwork (rt : Runtime) {cidrs : List Str}
    (h : ∀ cidr ∈ cidrs, (IPNetwork.ofCidr? cidr).isSome) :
    cidrs.mapM rt.parseNetwork = some (cidrs.filterMap IPNetwork.ofCidr?) := by
  induction cidrs with
  | nil => rfl
  | cons cidr cidrs ih =>
    obtain ⟨network, hn⟩ := Option.isSome_iff_exists.mp (h cidr (List.mem_cons_self ..))
    rw [List.mapM_cons, rt.parseNetwork_canonical cidr network hn,
      ih fun c hc => h c (List.mem_cons_of_mem _ hc), List.filterMap_cons_some hn]
    rfl

/-- Every default range is in canonical notation, so every runtime reads it. -/
theorem mapM_parseNetwork_default (rt : Runtime) :
    defaultCidrs.mapM rt.parseNetwork = some defaultNetworks :=
  mapM_parseNetwork rt (by decide +kernel)

/-- The constructor. It throws where a range cannot be parsed. -/
def new (rt : Runtime) (extraCidrs : Option (List Str)) : Option IpBlocklist :=
  match h : (defaultCidrs ++ extraCidrs.getD []).mapM rt.parseNetwork with
  | none => none
  | some networks =>
    some ⟨networks, by
      rw [List.mapM_append, mapM_parseNetwork_default] at h
      obtain ⟨extra, -, rfl⟩ : ∃ extra, _ = some extra ∧ defaultNetworks ++ extra = networks := by
        simpa [Option.bind_eq_some_iff] using h
      intro network hn
      exact List.mem_append_left _ hn⟩

/-- The networks of a constructed blocklist: the default ones, then the extra ones in order. -/
theorem networks_of_new {rt : Runtime} {extraCidrs : List Str} {blocklist : IpBlocklist}
    (h : new rt (some extraCidrs) = some blocklist) :
    ∃ extra, extraCidrs.mapM rt.parseNetwork = some extra ∧
      blocklist.networks = defaultNetworks ++ extra := by
  unfold new at h
  split at h
  · exact absurd h (by simp)
  · next networks hm =>
    rw [Option.getD_some, List.mapM_append, mapM_parseNetwork_default] at hm
    obtain ⟨extra, he, hnet⟩ : ∃ extra, extraCidrs.mapM rt.parseNetwork = some extra ∧
        defaultNetworks ++ extra = networks := by
      simpa [Option.bind_eq_some_iff] using hm
    refine ⟨extra, he, ?_⟩
    rw [← Option.some.inj h, hnet]

/-- Ranges in canonical notation are accepted by every runtime, and read as they say. -/
theorem exists_new (rt : Runtime) (extraCidrs : List Str)
    (h : ∀ cidr ∈ extraCidrs, (IPNetwork.ofCidr? cidr).isSome) :
    ∃ blocklist, new rt (some extraCidrs) = some blocklist ∧
      blocklist.networks = defaultNetworks ++ extraCidrs.filterMap IPNetwork.ofCidr? := by
  have hm : (defaultCidrs ++ (some extraCidrs).getD []).mapM rt.parseNetwork =
      some (defaultNetworks ++ extraCidrs.filterMap IPNetwork.ofCidr?) := by
    rw [Option.getD_some, List.mapM_append, mapM_parseNetwork_default, mapM_parseNetwork rt h]
    rfl
  unfold new
  split
  · next hnone => exact absurd (hm.symm.trans hnone) (by simp)
  · next networks hsome =>
    exact ⟨_, rfl, (Option.some.inj (hm.symm.trans hsome)).symm⟩

/-! ### Candidates

Which addresses are looked up for an address, from the bytes of it. -/

/-- `64:ff9b::/96`, the well-known NAT64 prefix. -/
def isNat64WellKnown (bytes : Octets 16) : Bool :=
  if bytes[0] != 0x00 || bytes[1] != 0x64 || bytes[2] != 0xff || bytes[3] != 0x9b then false
  else (bytes.slice 4 8 (by decide)).toList.all (· == 0)

/-- The addresses that are looked up for an address. -/
def expand : IPAddress → List IPAddress
  | .v4 bytes => [.v4 bytes]
  | .v6 bytes scopeId =>
    if (IPAddress.v6 bytes scopeId).isIPv4MappedToIPv6 then
      [(IPAddress.v6 bytes scopeId).mapToIPv4]
    else
      .v6 bytes scopeId ::
        if isNat64WellKnown bytes then [.v4 (bytes.slice 12 4 IPAddress.lastFour_le)]
        else if bytes[0] == 0x20 && bytes[1] == 0x02 then [.v4 (bytes.slice 2 4 (by decide))]
        else []

/-- One candidate is a metadata address or lies in a network. -/
def isListed (blocklist : IpBlocklist) (candidate : IPAddress) : Bool :=
  metadataAddresses.contains candidate || blocklist.networks.any (·.contains candidate)

def isBlocked (blocklist : IpBlocklist) (address : IPAddress) : Bool :=
  (expand address).any blocklist.isListed

/-! ### Containment decides

The metadata addresses lie in default ranges, so listing them separately changes no verdict. -/

theorem isListed_iff (blocklist : IpBlocklist) (candidate : IPAddress) :
    blocklist.isListed candidate = true ↔
      ∃ network ∈ blocklist.networks, network.contains candidate := by
  have hmeta : ∀ a ∈ metadataAddresses, ∃ network ∈ defaultNetworks, network.contains a := by
    decide +kernel
  rw [isListed, Bool.or_eq_true, List.contains_iff_mem, List.any_eq_true]
  refine ⟨fun h => h.elim (fun hm => ?_) id, .inr⟩
  obtain ⟨network, hn, hc⟩ := hmeta candidate hm
  exact ⟨network, blocklist.defaultNetworks_subset network hn, hc⟩

theorem isBlocked_v4 (blocklist : IpBlocklist) (bytes : Octets 4) :
    blocklist.isBlocked (.v4 bytes) = blocklist.isListed (.v4 bytes) := by
  simp [isBlocked, expand]

/-- A mapped address is its embedded IPv4 address, and nothing else. -/
theorem isBlocked_mapped (blocklist : IpBlocklist) (bytes : Octets 4) (scopeId : UInt32) :
    blocklist.isBlocked (.v6 (IPAddress.mapped bytes) scopeId) =
      blocklist.isBlocked (.v4 bytes) := by
  rw [isBlocked_v4, isBlocked, expand, if_pos (IPAddress.isIPv4MappedToIPv6_mapped bytes scopeId),
    IPAddress.mapToIPv4_mapped, List.any_cons, List.any_nil, Bool.or_false]

/-- Outside the IPv4-mapped block, an address in any range of the list is blocked. -/
theorem isBlocked_of_contains {blocklist : IpBlocklist} {network : IPNetwork} {address : IPAddress}
    (hn : network ∈ blocklist.networks) (hc : network.contains address)
    (hm : address.isIPv4MappedToIPv6 = false) : blocklist.isBlocked address = true := by
  have hlisted : blocklist.isListed address = true :=
    (isListed_iff blocklist address).mpr ⟨network, hn, hc⟩
  rw [isBlocked, List.any_eq_true]
  refine ⟨address, ?_, hlisted⟩
  cases address with
  | v4 bytes => simp [expand]
  | v6 bytes scopeId => simp [expand, hm]

/-! ### Forms that embed an IPv4 address

The four forms, each with the bytes of the IPv4 address in it. -/

/-- `64:ff9b::v`. -/
def nat64 (v : Octets 4) : Octets 16 :=
  Octets.append ⟨[0, 0x64, 0xff, 0x9b, 0, 0, 0, 0, 0, 0, 0, 0], rfl⟩ v

/-- `::v`. -/
def compatible (v : Octets 4) : Octets 16 := Octets.append ⟨List.replicate 12 0, rfl⟩ v

/-- `2002:v::/48`. -/
def sixToFour (v : Octets 4) : IPNetwork where
  baseAddress := .v6 (Octets.append ⟨[0x20, 0x02], rfl⟩
    (Octets.append v ⟨List.replicate 10 0, rfl⟩)) 0
  prefixLength := 48
  prefixLength_le := by simp [IPAddress.getAddressBytes]

theorem expand_nat64 (v : Octets 4) (scopeId : UInt32) :
    expand (.v6 (nat64 v) scopeId) = [.v6 (nat64 v) scopeId, .v4 v] := by
  obtain ⟨a, b, c, d, rfl⟩ := v.exists_four
  rfl

/-- No default range of either family contains a NAT64 address. -/
theorem not_contains_nat64 (v : Octets 4) (scopeId : UInt32) {network : IPNetwork}
    (hn : network ∈ defaultNetworks) : network.contains (.v6 (nat64 v) scopeId) = false := by
  -- Every default IPv6 range already differs from the NAT64 prefix within the first 96 bits.
  have hdefault : ∀ network ∈ defaultNetworks,
      network.baseAddress.addressFamily = .interNetwork ∨
        Octets.samePrefix (min network.prefixLength 96)
          ([0, 0x64, 0xff, 0x9b, 0, 0, 0, 0, 0, 0, 0, 0] ++ [0, 0, 0, 0])
          network.baseAddress.getAddressBytes = false := by
    decide +kernel
  rw [Bool.eq_false_iff]
  intro hc
  rcases hdefault network hn with hfam | hpre
  · rw [IPNetwork.addressFamily_of_contains hc] at hfam
    exact absurd hfam (by simp [IPAddress.addressFamily])
  · rw [IPNetwork.contains_v6 _ _ (IPNetwork.addressFamily_of_contains hc)] at hc
    have hmin := Octets.samePrefix_mono (Nat.min_le_left _ 96) hc
    rw [← Octets.samePrefix_congr _ _ (by simp) (by simp : v.toList.length = _)] at hpre
    exact absurd (hpre.symm.trans hmin) (by simp)

theorem contains_compatible (v : Octets 4) (scopeId : UInt32) :
    ∃ network ∈ defaultNetworks, network.contains (.v6 (compatible v) scopeId) := by
  have hdefault : ∃ network ∈ defaultNetworks,
      network.baseAddress.addressFamily = .interNetworkV6 ∧ network.prefixLength ≤ 96 ∧
        Octets.samePrefix network.prefixLength (List.replicate 12 0 ++ [0, 0, 0, 0])
          network.baseAddress.getAddressBytes := by
    decide +kernel
  obtain ⟨network, hn, hfam, hlen, hpre⟩ := hdefault
  rw [← Octets.samePrefix_congr _ _ (by simpa using hlen) (by simp : v.toList.length = _)] at hpre
  refine ⟨network, hn, ?_⟩
  rw [IPNetwork.contains_v6 _ _ hfam]
  exact hpre

/-- `2002::/16` contains every 6to4 range. -/
theorem contains_of_sixToFour {v : Octets 4} {address : IPAddress}
    (h : (sixToFour v).contains address) :
    ∃ network ∈ defaultNetworks, network.contains address ∧
      ∀ w scopeId, network.contains (.v6 (IPAddress.mapped w) scopeId) = false := by
  have hdefault : ∃ network ∈ defaultNetworks,
      network.baseAddress.addressFamily = .interNetworkV6 ∧ network.prefixLength = 16 ∧
        Octets.samePrefix 16 ([0x20, 0x02] ++ List.replicate 14 0)
          network.baseAddress.getAddressBytes ∧
        Octets.samePrefix 16 ([0, 0, 0, 0, 0, 0, 0, 0, 0, 0, 0xff, 0xff] ++ [0, 0, 0, 0])
          network.baseAddress.getAddressBytes = false := by
    decide +kernel
  obtain ⟨network, hn, hfam, hlen, hpre, hmapped⟩ := hdefault
  simp only [IPNetwork.contains, Bool.and_eq_true, beq_iff_eq] at h
  obtain ⟨hfam', hsame⟩ := h
  rw [Octets.samePrefix_congr (v.toList ++ List.replicate 10 0) _ (by simp) (by simp)] at hpre
  have htrans := Octets.samePrefix_trans (Octets.samePrefix_mono (by decide : 16 ≤ 48) hsame) hpre
  refine ⟨network, hn, ?_, fun w scopeId => ?_⟩
  · simp only [IPNetwork.contains, hfam, hlen, ← hfam', Bool.and_eq_true, beq_iff_eq]
    exact ⟨rfl, htrans⟩
  · rw [← Octets.samePrefix_congr _ _ (by simp) (by simp : w.toList.length = _)] at hmapped
    rw [IPNetwork.contains_v6 _ _ hfam, hlen]
    exact hmapped

/-! ### What a constructed blocklist guarantees

The results are about blocklists that the constructor has returned, for every list of extra ranges.
-/

theorem mem_of_mapM {rt : Runtime} {cidrs : List Str} {networks : List IPNetwork}
    (h : cidrs.mapM rt.parseNetwork = some networks) {network : IPNetwork} :
    network ∈ networks ↔ ∃ cidr ∈ cidrs, rt.parseNetwork cidr = some network := by
  induction cidrs generalizing networks with
  | nil =>
    rw [List.mapM_nil, Option.pure_def, Option.some.injEq] at h
    simp [← h]
  | cons cidr cidrs ih =>
    obtain ⟨first, hfirst, rest, hrest, rfl⟩ : ∃ first, rt.parseNetwork cidr = some first ∧
        ∃ rest, cidrs.mapM rt.parseNetwork = some rest ∧ first :: rest = networks := by
      simpa [List.mapM_cons, Option.bind_eq_some_iff] using h
    rw [List.mem_cons, ih hrest]
    simp [hfirst, eq_comm]

/-- The networks of a constructed blocklist are the parsed ranges, default and extra. -/
theorem mem_networks_of_new {rt : Runtime} {extraCidrs : List Str} {blocklist : IpBlocklist}
    (h : new rt (some extraCidrs) = some blocklist) {network : IPNetwork} :
    network ∈ blocklist.networks ↔
      ∃ cidr ∈ defaultCidrs ++ extraCidrs, rt.parseNetwork cidr = some network := by
  obtain ⟨extra, he, hnet⟩ := networks_of_new h
  have hdefault := mapM_parseNetwork_default rt
  rw [hnet, List.mem_append, mem_of_mapM hdefault, mem_of_mapM he]
  simp only [List.mem_append, or_and_right, exists_or]

/-- A NAT64 address itself is listed where an extra range names it. -/
theorem isListed_nat64_iff {rt : Runtime} {extraCidrs : List Str} {blocklist : IpBlocklist}
    (h : new rt (some extraCidrs) = some blocklist) (v : Octets 4) (scopeId : UInt32) :
    blocklist.isListed (.v6 (nat64 v) scopeId) = true ↔
      ∃ cidr ∈ extraCidrs, ∃ network, rt.parseNetwork cidr = some network ∧
        network.baseAddress.addressFamily = .interNetworkV6 ∧
        network.contains (.v6 (nat64 v) scopeId) = true := by
  obtain ⟨extra, he, hnet⟩ := networks_of_new h
  rw [isListed_iff, hnet]
  constructor
  · rintro ⟨network, hn, hc⟩
    rcases List.mem_append.mp hn with hn | hn
    · rw [not_contains_nat64 v scopeId hn] at hc
      exact absurd hc (by simp)
    · obtain ⟨cidr, hcidr, hp⟩ := (mem_of_mapM he).mp hn
      exact ⟨cidr, hcidr, network, hp, IPNetwork.addressFamily_of_contains hc, hc⟩
  · rintro ⟨cidr, hcidr, network, hp, -, hc⟩
    exact ⟨network, List.mem_append_right _ ((mem_of_mapM he).mpr ⟨cidr, hcidr, hp⟩), hc⟩

theorem isBlocked_compatible (blocklist : IpBlocklist) (v : Octets 4) (scopeId : UInt32) :
    blocklist.isBlocked (.v6 (compatible v) scopeId) = true := by
  obtain ⟨network, hn, hc⟩ := contains_compatible v scopeId
  refine isBlocked_of_contains (blocklist.defaultNetworks_subset network hn) hc ?_
  obtain ⟨a, b, c, d, rfl⟩ := v.exists_four
  rfl

theorem isBlocked_of_sixToFour (blocklist : IpBlocklist) {v : Octets 4} {address : IPAddress}
    (h : (sixToFour v).contains address) : blocklist.isBlocked address = true := by
  obtain ⟨network, hn, hc, hmapped⟩ := contains_of_sixToFour h
  refine isBlocked_of_contains (blocklist.defaultNetworks_subset network hn) hc ?_
  cases address with
  | v4 bytes => rfl
  | v6 bytes scopeId =>
    rw [Bool.eq_false_iff]
    intro hm
    rw [IPAddress.eq_mapped_of_isIPv4MappedToIPv6 hm, hmapped] at hc
    exact absurd hc (by simp)

/-- **Embedded addresses are judged consistently.** A mapped address is judged as the IPv4 address
it embeds, a NAT64 address as the embedded one or as an IPv6 address an extra range names, and
IPv4-compatible and 6to4 addresses are always blocked. -/
theorem isBlocked_embedded {rt : Runtime} {extraCidrs : List Str} {blocklist : IpBlocklist}
    (h : new rt (some extraCidrs) = some blocklist) (v : Octets 4) (scopeId : UInt32) :
    blocklist.isBlocked (.v6 (IPAddress.mapped v) scopeId) = blocklist.isBlocked (.v4 v) ∧
      (blocklist.isBlocked (.v6 (nat64 v) scopeId) = true ↔
        blocklist.isBlocked (.v4 v) = true ∨
          ∃ cidr ∈ extraCidrs, ∃ network, rt.parseNetwork cidr = some network ∧
            network.baseAddress.addressFamily = .interNetworkV6 ∧
            network.contains (.v6 (nat64 v) scopeId) = true) ∧
      blocklist.isBlocked (.v6 (compatible v) scopeId) = true ∧
      ∀ address, (sixToFour v).contains address → blocklist.isBlocked address = true := by
  refine ⟨isBlocked_mapped blocklist v scopeId, ?_, isBlocked_compatible blocklist v scopeId,
    fun address ha => isBlocked_of_sixToFour blocklist ha⟩
  -- Both the address and the embedded one are looked up.
  rw [isBlocked, expand_nat64, List.any_cons, List.any_cons, List.any_nil, Bool.or_false,
    ← isBlocked_v4, Bool.or_eq_true, isListed_nat64_iff h, or_comm]

theorem isBlocked_embedded_of_extra :
    ∃ blocklist, new Runtime.reference (some ["64:ff9b::800:0/112"]) = some blocklist ∧
      blocklist.isBlocked (.v6 (nat64 (Octets.four 8 0 8 8)) 0) = true ∧
      blocklist.isBlocked (.v6 (IPAddress.mapped (Octets.four 8 0 8 8)) 0) =
        blocklist.isBlocked (.v4 (Octets.four 8 0 8 8)) := by
  obtain ⟨blocklist, h, -⟩ := exists_new Runtime.reference ["64:ff9b::800:0/112"] (by decide)
  obtain ⟨hmapped, hnat64, -, -⟩ := isBlocked_embedded h (Octets.four 8 0 8 8) 0
  refine ⟨blocklist, h, hnat64.mpr (.inr ?_), hmapped⟩
  exact ⟨"64:ff9b::800:0/112", by simp, ⟨.v6 (nat64 (Octets.four 8 0 0 0)) 0, 112, by decide⟩,
    by decide, rfl, by decide⟩

/-- An IPv4 address is blocked where some configured range contains it. -/
theorem isBlocked_v4_iff {rt : Runtime} {extraCidrs : List Str} {blocklist : IpBlocklist}
    (h : new rt (some extraCidrs) = some blocklist) (v : Octets 4) :
    blocklist.isBlocked (.v4 v) = true ↔
      ∃ other ∈ defaultCidrs ++ extraCidrs, ∃ range, rt.parseNetwork other = some range ∧
        range.contains (.v4 v) = true := by
  rw [isBlocked_v4, isListed_iff]
  constructor
  · rintro ⟨range, hr, hc⟩
    obtain ⟨other, ho, hp⟩ := (mem_networks_of_new h).mp hr
    exact ⟨other, ho, range, hp, hc⟩
  · rintro ⟨other, ho, range, hp, hc⟩
    exact ⟨range, (mem_networks_of_new h).mpr ⟨other, ho, hp⟩, hc⟩

/-- **When a configured range is enforced over its whole extent.** The IPv4-mapped addresses of a
range are judged as IPv4 addresses, so the range is enforced exactly when some range, default or
extra, contains each IPv4 address whose mapped form lies in it. -/
theorem enforced_iff {rt : Runtime} {extraCidrs : List Str} {blocklist : IpBlocklist}
    (h : new rt (some extraCidrs) = some blocklist) {cidr : Str}
    (hcidr : cidr ∈ defaultCidrs ++ extraCidrs) {network : IPNetwork}
    (hn : rt.parseNetwork cidr = some network) :
    (∀ address, network.contains address → blocklist.isBlocked address = true) ↔
      ∀ v scopeId, network.contains (.v6 (IPAddress.mapped v) scopeId) →
        ∃ other ∈ defaultCidrs ++ extraCidrs, ∃ range, rt.parseNetwork other = some range ∧
          range.contains (.v4 v) = true := by
  constructor
  · intro henforced v scopeId hc
    rw [← isBlocked_v4_iff h, ← isBlocked_mapped blocklist v scopeId]
    exact henforced _ hc
  · intro hcond address hc
    by_cases hm : address.isIPv4MappedToIPv6 = true
    · cases address with
      | v4 bytes => exact absurd hm (by simp [IPAddress.isIPv4MappedToIPv6])
      | v6 bytes scopeId =>
        rw [IPAddress.eq_mapped_of_isIPv4MappedToIPv6 hm] at hc ⊢
        rw [isBlocked_mapped, isBlocked_v4_iff h]
        exact hcond _ _ hc
    · exact isBlocked_of_contains ((mem_networks_of_new h).mpr ⟨cidr, hcidr, hn⟩) hc
        (Bool.eq_false_iff.mpr hm)

/-- An extra range over mapped addresses whose embedded addresses are private. -/
theorem enforced_iff_covered :
    ∃ blocklist, new Runtime.reference (some ["::ffff:10.1.0.0/112"]) = some blocklist ∧
      ∀ address, (⟨.v6 (IPAddress.mapped (Octets.four 10 1 0 0)) 0, 112, by decide⟩ :
        IPNetwork).contains address → blocklist.isBlocked address = true := by
  obtain ⟨blocklist, h, -⟩ := exists_new Runtime.reference ["::ffff:10.1.0.0/112"] (by decide)
  have hcidr : ofString "::ffff:10.1.0.0/112" ∈
      defaultCidrs ++ [ofString "::ffff:10.1.0.0/112"] :=
    List.mem_append_right _ (List.mem_singleton_self _)
  refine ⟨blocklist, h, (enforced_iff h hcidr (by decide)).mpr fun v scopeId hc => ?_⟩
  refine ⟨"10.0.0.0/8", by decide, ⟨.v4 (Octets.four 10 0 0 0), 8, by decide⟩, by decide, ?_⟩
  obtain ⟨a, b, c, d, rfl⟩ := v.exists_four
  rw [IPNetwork.contains_v6 _ _ rfl] at hc
  -- the first byte of the embedded address is among the bits that the range fixes
  have hprefix : Octets.samePrefix 104 ([0, 0, 0, 0, 0, 0, 0, 0, 0, 0, 0xff, 0xff, a] ++ [b, c, d])
      (IPAddress.mapped (Octets.four 10 1 0 0)).toList = true :=
    Octets.samePrefix_mono (by decide) hc
  rw [Octets.samePrefix_append (by simp)] at hprefix
  have hfirst := eq_of_beq ((Bool.and_eq_true _ _).mp hprefix).2
  have ha : a.toNat = 10 := by
    simp [Octets.bigEndian, IPAddress.mapped, Octets.four, Octets.append] at hfirst
    omega
  obtain rfl : a = 10 := UInt8.toNat_inj.mp ha
  show (true && Octets.samePrefix 8 ([10] ++ [b, c, d]) [10, 0, 0, 0]) = true
  rw [Octets.samePrefix_append (by simp)]
  rfl

/-- An extra range inside the IPv4-mapped block is accepted and never enforced. -/
theorem mapped_range_not_enforced :
    ∃ blocklist network address,
      new Runtime.reference (some ["::ffff:8.8.8.0/120"]) = some blocklist ∧
      Runtime.reference.parseNetwork "::ffff:8.8.8.0/120" = some network ∧
      network.contains address = true ∧ blocklist.isBlocked address = false := by
  obtain ⟨blocklist, h, hnet⟩ := exists_new Runtime.reference ["::ffff:8.8.8.0/120"] (by decide)
  refine ⟨blocklist, ⟨.v6 (IPAddress.mapped (Octets.four 8 8 8 0)) 0, 120, by decide⟩,
    .v6 (IPAddress.mapped (Octets.four 8 8 8 8)) 0, h, by decide, by decide, ?_⟩
  rw [isBlocked_mapped, isBlocked_v4, Bool.eq_false_iff, ne_eq, isListed_iff, hnet]
  decide +kernel

end IpBlocklist

end LookingGlass
