import LookingGlass.Contracts.IpBlocklist

/-!
# The destination policy

`DestinationPolicy.parse` decides what a visitor may name as a destination: an IPv4 or IPv6
literal that the blocklist lets through, or a hostname outside the blocked suffixes. The parser is
a sequence of filters, each with its own message, followed by one of three sub-parsers; the order
of the filters is the order of the source, because it decides which message a bad input gets.

A successful parse is one of two things, so `ParsedDestination` has two constructors: an address
is there exactly when the kind says so.

## Messages are part of the result

Every filter has a message of its own, which the visitor gets to read, and a kind: what is malformed
is told apart from what is not allowed, because the two are answered with different statuses. The
model keeps both. A statement that only says that an input is refused would not notice if a private
address were called malformed.

## The policy as data

A policy is a blocklist and a list of suffixes, and the constructor puts it together from the
options. A theorem about every policy says nothing about what the constructor blocks, so the results
that concern the built-in ranges and suffixes are stated for `new`.

## Main results

* `DestinationPolicy.parse_eq_ok_iff` — the filters in front of the three sub-parsers
* `DestinationPolicy.parse_eq_ok_cases` — what a successful parse yields
-/

namespace LookingGlass

open Utf16

inductive DestinationErrorKind
  | invalid
  | blocked
  deriving DecidableEq, Repr

structure DestinationError where
  kind : DestinationErrorKind
  message : Str
  deriving DecidableEq

inductive ParsedDestination
  | ipAddress (address : IPAddress) (text : Str)
  | hostname (text : Str)
  deriving DecidableEq

/-- The normalised text of a destination. -/
def ParsedDestination.text : ParsedDestination → Str
  | ipAddress _ text => text
  | hostname text => text

/-- Either a destination or an error. -/
abbrev DestinationParseResult := Except DestinationError ParsedDestination

namespace DestinationParseResult

def invalid (message : Str) : DestinationParseResult := .error ⟨.invalid, message⟩

def blocked (message : Str) : DestinationParseResult := .error ⟨.blocked, message⟩

end DestinationParseResult

/-- What is blocked: ranges of addresses, and suffixes of names. Both consist of the built-in ones
and of those that an operator adds. -/
structure DestinationPolicy where
  blocklist : IpBlocklist
  blockedSuffixes : List Str

/-- The blocklist without extra ranges. -/
def IpBlocklist.default : IpBlocklist := ⟨IpBlocklist.defaultNetworks, fun _ h => h⟩

namespace DestinationPolicy

open DestinationParseResult

def maxInputLength : ℕ := 255

def defaultBlockedSuffixes : List Str :=
  ["localhost", "local", "localdomain", "internal", "intranet", "private", "corp", "lan", "home",
    "home.arpa", "svc", "cluster.local", "in-addr.arpa", "ip6.arpa", "onion", "test", "invalid",
    "example"]

/-- A code unit is a dot. -/
def isDot (c : Char16) : Bool := c == ofChar '.'

/-- `Trim().Trim('.').ToLowerInvariant()`, as the constructor does to every suffix. -/
def normaliseSuffix (rt : Runtime) (suffix : Str) : Str :=
  rt.toLowerInvariant (trim isDot (trim Runtime.isWhiteSpace suffix))

def new (rt : Runtime) (blocklist : Option IpBlocklist) (extraBlockedSuffixes : Option (List Str)) :
    DestinationPolicy where
  blocklist := blocklist.getD IpBlocklist.default
  blockedSuffixes :=
    ((defaultBlockedSuffixes ++ extraBlockedSuffixes.getD []).map (normaliseSuffix rt)).filter
      fun suffix => 0 < suffix.length

def isBlockedName (policy : DestinationPolicy) (asciiLowerName : Str) : Bool :=
  policy.blockedSuffixes.any fun suffix =>
    asciiLowerName == suffix || (ofChar '.' :: suffix).isSuffixOf asciiLowerName

/-! ### Addresses

The two families are read by different means, and both end in the same check against the blocklist.
-/

def checkAddress (rt : Runtime) (policy : DestinationPolicy) (address : IPAddress) :
    DestinationParseResult :=
  if policy.blocklist.isBlocked address then
    blocked "That address is in a private, reserved or otherwise restricted range and cannot be tested."
  else .ok (.ipAddress address (rt.addressToString address))

/-- `int.TryParse` with `NumberStyles.None`: a run of ASCII digits within the range of `int`. (It
reads over zero characters at the end, but only digits get here.) -/
def tryParseInt (s : Str) : Option ℕ :=
  if s.length ≠ 0 ∧ s.all isDigit ∧ AddressText.decimalValue s ≤ 2147483647 then
    some (AddressText.decimalValue s)
  else none

/-- One octet of a dotted quad. -/
def parseIpv4Part (part : Str) : Option UInt8 :=
  if part.length = 0 ∨ part.length > 3 ∨ (part.length > 1 ∧ part.head? = some (ofChar '0')) then
    none
  else
    match tryParseInt part with
    | none => none
    | some value => if value > 255 then none else some value.toUInt8

def parseIpv4 (rt : Runtime) (policy : DestinationPolicy) (text : Str) : DestinationParseResult :=
  match (split '.' text).mapM parseIpv4Part with
  | some [a, b, c, d] => checkAddress rt policy (.v4 (Octets.four a b c d))
  | _ => invalid "That is not a valid IPv4 address."

/-- `Uri.IsHexDigit`. -/
def isHexDigit (c : Char16) : Bool :=
  isDigit c || (0x61 ≤ c && c ≤ 0x66) || (0x41 ≤ c && c ≤ 0x46)

def parseIpv6 (rt : Runtime) (policy : DestinationPolicy) (text : Str) : DestinationParseResult :=
  if text.length > 45 ∨
      text.any (fun c => !(isHexDigit c || c == ofChar ':' || c == ofChar '.')) then
    invalid
      "That is not a valid IPv6 address. Ports, brackets and zone IDs are not accepted."
  else
    match rt.tryParseAddress text with
    | some (.v6 bytes scopeId) =>
      if scopeId ≠ 0 then invalid "That is not a valid IPv6 address."
      else checkAddress rt policy (.v6 bytes scopeId)
    | _ => invalid "That is not a valid IPv6 address."

/-! ### Hostnames

Labels are checked one by one, and the name as a whole for its length, its last label and its
suffix. -/

def isValidLabel (label : Str) (allowUnderscore : Bool) : Bool :=
  if label.length = 0 ∨ label.length > 63 then false
  else if label.head? = some (ofChar '-') ∨ label.getLast? = some (ofChar '-') then false
  else label.all fun c => isAlnum c || c == ofChar '-' || (allowUnderscore && c == ofChar '_')

def parseHostname (rt : Runtime) (policy : DestinationPolicy) (text : Str)
    (allowUnderscore : Bool) : DestinationParseResult :=
  if text.any (· > 0x7e) then
    invalid "Internationalised names must be entered in their ASCII (xn--) form."
  else
    let name := rt.toLowerInvariant (text.rdropWhile isDot)
    if name.length = 0 ∨ name.length > 253 then invalid "That is not a valid hostname."
    else
      let labels := split '.' name
      if labels.any fun label => !isValidLabel label allowUnderscore then
        invalid "That is not a valid hostname."
      else if labels.length < 2 then
        blocked "Single-label names are treated as internal hostnames and cannot be tested."
      else
        let tld := labels.getLast?.getD []
        if tld.all isDigit || tld.contains (ofChar '_') then invalid "That is not a valid hostname."
        else if policy.isBlockedName name then
          blocked "Internal and reserved names cannot be tested."
        else .ok (.hostname name)

/-! ### The parser

The filters in the order of the source. Only the first one that applies is reported. -/

def parse (rt : Runtime) (policy : DestinationPolicy) (input : Option Str)
    (allowUnderscore : Bool) : DestinationParseResult :=
  if Runtime.isNullOrWhiteSpace input then invalid "Enter a hostname or IP address."
  else
    let text := trim Runtime.isWhiteSpace (input.getD [])
    if text.length > maxInputLength then
      invalid "That value is too long to be a hostname or IP address."
    else if text.any fun c => c < 0x20 || c == 0x7f || Runtime.isWhiteSpace c then
      invalid "Spaces and control characters are not allowed."
    else if containsText "://" text || text.contains (ofChar '/') || text.contains (ofChar '\\') ||
        text.contains (ofChar '?') || text.contains (ofChar '#') || text.contains (ofChar '@') then
      invalid "Enter only a hostname or IP address, not a URL or path."
    else if text.contains (ofChar ':') then parseIpv6 rt policy text
    else if text.all fun c => isDigit c || isDot c then parseIpv4 rt policy text
    else parseHostname rt policy text allowUnderscore

/-! ### What the sub-parsers accept

Each of them yields one kind of destination only, so an accepted text tells which of them has read
it. -/

/-- A filter that reports an error is passed by a result only if it does not apply. -/
theorem ite_error_eq_ok {ε α : Type} {p : Prop} [Decidable p] {e : ε} {rest : Except ε α} {a : α} :
    (if p then .error e else rest) = .ok a ↔ ¬p ∧ rest = .ok a := by
  split <;> simp [*]

/-- An address is accepted only if the blocklist lets it through. -/
theorem checkAddress_eq_ok_iff {rt : Runtime} {policy : DestinationPolicy} {address : IPAddress}
    {destination : ParsedDestination} :
    checkAddress rt policy address = .ok destination ↔
      policy.blocklist.isBlocked address = false ∧
        destination = .ipAddress address (rt.addressToString address) := by
  rw [checkAddress, blocked, ite_error_eq_ok, Bool.not_eq_true, Except.ok.injEq]
  exact and_congr_right fun _ => eq_comm

theorem parseIpv4_eq_ok {rt : Runtime} {policy : DestinationPolicy} {text : Str}
    {destination : ParsedDestination} (h : parseIpv4 rt policy text = .ok destination) :
    ∃ address, policy.blocklist.isBlocked address = false ∧
      destination = .ipAddress address (rt.addressToString address) := by
  unfold parseIpv4 at h
  split at h
  · exact ⟨_, checkAddress_eq_ok_iff.mp h⟩
  · exact absurd h (by simp [invalid])

theorem parseIpv6_eq_ok {rt : Runtime} {policy : DestinationPolicy} {text : Str}
    {destination : ParsedDestination} (h : parseIpv6 rt policy text = .ok destination) :
    ∃ address, policy.blocklist.isBlocked address = false ∧
      destination = .ipAddress address (rt.addressToString address) := by
  rw [parseIpv6, invalid, ite_error_eq_ok] at h
  replace h := h.2
  split at h
  · rw [invalid, ite_error_eq_ok] at h
    exact ⟨_, checkAddress_eq_ok_iff.mp h.2⟩
  · exact absurd h (by simp [invalid])

/-- A hostname is accepted under its own normalised text. -/
theorem parseHostname_eq_ok {rt : Runtime} {policy : DestinationPolicy} {text : Str}
    {allowUnderscore : Bool} {destination : ParsedDestination}
    (h : parseHostname rt policy text allowUnderscore = .ok destination) :
    destination = .hostname (rt.toLowerInvariant (text.rdropWhile isDot)) := by
  simp only [parseHostname, invalid, blocked, ite_error_eq_ok, Except.ok.injEq] at h
  exact h.2.2.2.2.2.2.symm

/-- The filters in front of the three sub-parsers. -/
theorem parse_eq_ok_iff {rt : Runtime} {policy : DestinationPolicy} {input : Option Str}
    {allowUnderscore : Bool} {destination : ParsedDestination} :
    parse rt policy input allowUnderscore = .ok destination ↔
      let text := trim Runtime.isWhiteSpace (input.getD [])
      Runtime.isNullOrWhiteSpace input = false ∧ text.length ≤ 255 ∧
        (∀ c ∈ text, (decide (c < 0x20) || c == 0x7f || Runtime.isWhiteSpace c) = false) ∧
        (containsText "://" text || text.contains (ofChar '/') || text.contains (ofChar '\\') ||
          text.contains (ofChar '?') || text.contains (ofChar '#') ||
          text.contains (ofChar '@')) = false ∧
        (if text.contains (ofChar ':') then parseIpv6 rt policy text
          else if text.all fun c => isDigit c || isDot c then parseIpv4 rt policy text
          else parseHostname rt policy text allowUnderscore) = .ok destination := by
  simp only [parse, invalid, ite_error_eq_ok, Bool.not_eq_true, not_lt, List.any_eq_false]
  rfl

/-- **What a successful parse yields**: an address the blocklist lets through, under the text the
runtime prints for it, or a hostname. -/
theorem parse_eq_ok_cases {rt : Runtime} {policy : DestinationPolicy} {input : Option Str}
    {allowUnderscore : Bool} {destination : ParsedDestination}
    (h : parse rt policy input allowUnderscore = .ok destination) :
    (∃ address, policy.blocklist.isBlocked address = false ∧
        destination = .ipAddress address (rt.addressToString address)) ∨
      ∃ name, destination = .hostname name := by
  obtain ⟨-, -, -, -, h⟩ := parse_eq_ok_iff.mp h
  split at h
  · exact .inl (parseIpv6_eq_ok h)
  split at h
  · exact .inl (parseIpv4_eq_ok h)
  · exact .inr ⟨_, parseHostname_eq_ok h⟩

end DestinationPolicy

end LookingGlass
