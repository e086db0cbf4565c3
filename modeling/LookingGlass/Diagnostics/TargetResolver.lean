import LookingGlass.Contracts.HostnameGrammar
import LookingGlass.Diagnostics.HostResolver

/-!
# Target resolution

`TargetResolver.resolveAsync` turns what the visitor typed into the one address a tool will be
pointed at. A literal is its own address; a hostname is looked up once, the whole answer is checked
against the blocklist, and one of its addresses is chosen.

## The whole answer

A hostname may have addresses of which some are blocked. It is then refused, even if another of its
addresses could be used: somebody who controls a name could otherwise have it checked with one
address and used with another. The tool is given the address and not the name, so the name is looked
up once for each request and never again.

An answer without any address is an error of its own, and so is a literal of the other family than
was asked for.

## Main results

* `TargetResolver.resolveAsync_cases` — all a resolution can do, for any host resolver
* `TargetResolver.isBlocked_of_resolveAsync` — no target is blocked
-/

namespace LookingGlass

open Utf16 Interaction

structure ResolvedTarget where
  destination : Str
  address : IPAddress
  family : IpVersion
  deriving DecidableEq

namespace TargetResolver

def matchesFamily (address : IPAddress) : IpFamily → Bool
  | .ipv4 => address.addressFamily == .interNetwork
  | .ipv6 => address.addressFamily == .interNetworkV6
  | _ => true

def versionOf (address : IPAddress) : IpVersion :=
  if address.addressFamily = .interNetworkV6 then .ipv6 else .ipv4

/-- The exception for a destination that did not parse. -/
def rejection (error : DestinationError) : Exn :=
  match error.kind with
  | .blocked => LookingGlassException.blocked error.message
  | .invalid => LookingGlassException.validation error.message

def resolveAsync (rt : Runtime) (policy : DestinationPolicy) (resolver : IHostResolver)
    (input : Option Str) (family : IpFamily) : Task Work Exn ResolvedTarget :=
  match policy.parse rt input false with
  | .error error => throw (rejection error)
  | .ok (.ipAddress address text) =>
    if !matchesFamily address family then
      throw (LookingGlassException.validation (concat ["That is an ", (versionOf address).upperName,
        " address, but ", family.upperName, " was requested."]))
    else pure ⟨text, address, versionOf address⟩
  | .ok (.hostname text) => do
    let addresses ← resolver.resolveAsync text family
    match addresses with
    | [] =>
      throw (LookingGlassException.failed
        (if family = .auto then "The hostname could not be resolved."
          else concat ["The hostname has no ", family.upperName, " address."]))
    | first :: _ =>
      if addresses.any policy.blocklist.isBlocked then
        throw (LookingGlassException.blocked
          "That hostname resolves to a private, reserved or otherwise restricted address and cannot be tested.")
      else
        let chosen := (addresses.find? fun a => a.addressFamily == .interNetwork).getD first
        pure ⟨text, chosen, versionOf chosen⟩

/-- **All a resolution can do**: refuse the input, take a literal as it is, or look a hostname up
once and choose from an answer without blocked addresses. -/
theorem resolveAsync_cases {rt : Runtime} {policy : DestinationPolicy} {resolver : IHostResolver}
    {input : Option Str} {family : IpFamily} {es : List (Event Work)}
    {r : Except Exn ResolvedTarget}
    (h : Task.Runs (resolveAsync rt policy resolver input family) es r) :
    (∃ error, policy.parse rt input false = .error error ∧ es = [] ∧
      r = .error (rejection error)) ∨
    (∃ address text, policy.parse rt input false = .ok (.ipAddress address text) ∧ es = [] ∧
      ∀ target, r = .ok target → target = ⟨text, address, versionOf address⟩) ∨
    ∃ name lookup, policy.parse rt input false = .ok (.hostname name) ∧
      Task.Runs (resolver.resolveAsync name family) es lookup ∧
        ∀ target, r = .ok target → ∃ addresses, lookup = .ok addresses ∧
          target.address ∈ addresses ∧ (∀ a ∈ addresses, policy.blocklist.isBlocked a = false) ∧
            target.destination = name := by
  unfold resolveAsync at h
  split at h
  · next error hparse =>
    obtain ⟨rfl, rfl⟩ := Task.runs_throw.mp h
    exact .inl ⟨error, hparse, rfl, rfl⟩
  · next address text hparse =>
    refine .inr (.inl ⟨address, text, hparse, ?_⟩)
    split at h
    · obtain ⟨rfl, rfl⟩ := Task.runs_throw.mp h
      exact ⟨rfl, fun _ he => absurd he (by simp)⟩
    · obtain ⟨rfl, rfl⟩ := Task.runs_pure.mp h
      exact ⟨rfl, fun _ he => (Except.ok.inj he).symm⟩
  · next name hparse =>
    rcases Task.runs_bind.mp h with ⟨e, hrun, rfl⟩ | ⟨fst, addresses, snd, rfl, hrun, hrest⟩
    · exact .inr (.inr ⟨name, _, hparse, hrun, fun _ he => absurd he (by simp)⟩)
    refine .inr (.inr ⟨name, .ok addresses, hparse, ?_⟩)
    cases addresses with
    | nil =>
      obtain ⟨rfl, rfl⟩ := Task.runs_throw.mp hrest
      exact ⟨by rwa [List.append_nil], fun _ he => absurd he (by simp)⟩
    | cons first rest =>
      dsimp only at hrest
      split at hrest
      · obtain ⟨rfl, rfl⟩ := Task.runs_throw.mp hrest
        exact ⟨by rwa [List.append_nil], fun _ he => absurd he (by simp)⟩
      · next hany =>
        obtain ⟨rfl, rfl⟩ := Task.runs_pure.mp hrest
        refine ⟨by rwa [List.append_nil], fun target he => ?_⟩
        obtain rfl := Except.ok.inj he
        refine ⟨_, rfl, ?_, by simpa using hany, rfl⟩
        -- The IPv4 address that is found, or the first one, is in the answer.
        cases hfind : (first :: rest).find? fun a => a.addressFamily == .interNetwork with
        | none => exact List.mem_cons_self ..
        | some a => exact List.mem_of_find?_eq_some hfind

/-- Whatever the host resolver answers, a target is not blocked. -/
theorem isBlocked_of_resolveAsync {rt : Runtime} {policy : DestinationPolicy}
    {resolver : IHostResolver} {input : Option Str} {family : IpFamily} {es : List (Event Work)}
    {target : ResolvedTarget}
    (h : Task.Runs (resolveAsync rt policy resolver input family) es (.ok target)) :
    policy.blocklist.isBlocked target.address = false := by
  rcases resolveAsync_cases h with ⟨_, -, -, he⟩ | ⟨address, text, hparse, -, htarget⟩ |
    ⟨name, lookup, -, -, htarget⟩
  · exact absurd he (by simp)
  · rw [htarget target rfl]
    rcases DestinationPolicy.parse_eq_ok_cases hparse with ⟨a, ha, heq⟩ | ⟨_, heq⟩
    · obtain ⟨rfl, -⟩ := ParsedDestination.ipAddress.inj heq
      exact ha
    · exact absurd heq (by simp)
  · obtain ⟨addresses, -, hmem, hfree, -⟩ := htarget target rfl
    exact hfree _ hmem

end TargetResolver

end LookingGlass
