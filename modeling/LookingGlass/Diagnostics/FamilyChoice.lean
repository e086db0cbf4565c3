import LookingGlass.Diagnostics.TargetResolver

/-!
# The family of a target

A visitor may ask for one address family. A literal of the other family is refused. A hostname is
looked up with the queries of the family, and among the addresses of all answers an IPv4 one is
taken before any other. Nothing looks at the family again after that: an address record counts
whichever query it is the answer to, so the family is kept as long as the answers keep to it.

## The answers decide

The queries that are sent depend on the family, and what is looked at in the answers does not: an
address record is an address record. For a request for IPv6, an answer with an IPv4 address in it
makes this address the target. For one for IPv4, answers with nothing but IPv6 addresses do. So the
condition is about the families of the addresses in the answers, and `answersFit_of_own` says when
it holds, for a resolver that keeps to the question.

## Main results

* `TargetResolver.resolveAsync_chosen` — which address of a lookup becomes the target
* `TargetResolver.honoured_iff` — for which answers the family of a request is kept
* `TargetResolver.answersFit_of_own` — a resolver that answers a query with records of its own type
  keeps the family
-/

namespace LookingGlass

open Utf16 Interaction

namespace TargetResolver

/-- The target is of the family that was asked for, and says so. Where none was asked for, it is an
IPv4 address if one was answered. -/
def Honoured (rt : Runtime) (calls : List DnsCall) (target : ResolvedTarget) : IpFamily → Prop
  | .ipv4 => target.address.addressFamily = .interNetwork ∧ target.family = .ipv4
  | .ipv6 => target.address.addressFamily = .interNetworkV6 ∧ target.family = .ipv6
  | .auto => (∃ a, HostResolver.Answered rt calls a ∧ a.addressFamily = .interNetwork) →
      target.address.addressFamily = .interNetwork
  | .undefined _ => True

/-- The answers have an IPv4 address for a request for IPv4, and none for a request for IPv6. -/
def AnswersFit (rt : Runtime) (calls : List DnsCall) : IpFamily → Prop
  | .ipv4 => ∃ a, HostResolver.Answered rt calls a ∧ a.addressFamily = .interNetwork
  | .ipv6 => ∀ a, HostResolver.Answered rt calls a → a.addressFamily ≠ .interNetwork
  | .auto | .undefined _ => True

variable {rt : Runtime} {policy : DestinationPolicy} {input : Option Str} {family : IpFamily}
  {es : List (Event Work)} {target : ResolvedTarget}

theorem versionOf_eq_ipv4 {address : IPAddress} :
    versionOf address = .ipv4 ↔ address.addressFamily = .interNetwork := by
  cases address <;> simp [versionOf, IPAddress.addressFamily]

theorem versionOf_eq_ipv6 {address : IPAddress} :
    versionOf address = .ipv6 ↔ address.addressFamily = .interNetworkV6 := by
  cases address <;> simp [versionOf, IPAddress.addressFamily]

theorem addressFamily_ne {address : IPAddress} :
    address.addressFamily ≠ .interNetwork ↔ address.addressFamily = .interNetworkV6 := by
  cases address <;> simp [IPAddress.addressFamily]

/-! ### What is chosen

A literal is compared with the family, and an address of an answer is not. -/

/-- A literal that becomes the target is of the family that was asked for. -/
theorem resolveAsync_literal {resolver : IHostResolver} {address : IPAddress} {text : Str}
    (hparse : policy.parse rt input false = .ok (.ipAddress address text))
    (h : Task.Runs (resolveAsync rt policy resolver input family) es (.ok target)) :
    es = [] ∧ target = ⟨text, address, versionOf address⟩ ∧ matchesFamily address family := by
  rw [resolveAsync, hparse] at h
  dsimp only at h
  split at h
  · exact absurd (Task.runs_throw.mp h).2 (by simp)
  · next hfamily =>
    obtain ⟨hes, htarget⟩ := Task.runs_pure.mp h
    exact ⟨hes, Except.ok.inj htarget, by simpa using hfamily⟩

/-- **The address of a hostname** is one of those found for it, an IPv4 one if there is one. -/
theorem resolveAsync_chosen {resolver : IHostResolver} {name : Str}
    (hparse : policy.parse rt input false = .ok (.hostname name))
    (h : Task.Runs (resolveAsync rt policy resolver input family) es (.ok target)) :
    ∃ addresses, Task.Runs (resolver.resolveAsync name family) es (.ok addresses) ∧
      target.address ∈ addresses ∧ target.family = versionOf target.address ∧
      (target.address.addressFamily = .interNetwork ↔
        ∃ a ∈ addresses, a.addressFamily = .interNetwork) := by
  rw [resolveAsync, hparse] at h
  rcases Task.runs_bind.mp h with ⟨e, -, he⟩ | ⟨fst, addresses, snd, rfl, hlookup, hrest⟩
  · exact absurd he (by simp)
  cases addresses with
  | nil => exact absurd (Task.runs_throw.mp hrest).2 (by simp)
  | cons first rest =>
    dsimp only at hrest
    split at hrest
    · exact absurd (Task.runs_throw.mp hrest).2 (by simp)
    obtain ⟨rfl, htarget⟩ := Task.runs_pure.mp hrest
    obtain rfl := Except.ok.inj htarget
    refine ⟨first :: rest, by rwa [List.append_nil], ?_⟩
    cases hfind : (first :: rest).find? fun a => a.addressFamily == .interNetwork with
    | none =>
      have hnone := List.find?_eq_none.mp hfind
      refine ⟨List.mem_cons_self .., rfl, fun hfirst => ?_, fun ⟨a, hmem, ha⟩ => ?_⟩
      · exact ⟨first, List.mem_cons_self .., hfirst⟩
      · exact absurd (beq_iff_eq.mpr ha) (hnone a hmem)
    | some a =>
      have ha : a.addressFamily = .interNetwork := by simpa using List.find?_some hfind
      have hmem := List.mem_of_find?_eq_some hfind
      exact ⟨hmem, rfl, fun _ => ⟨a, hmem, ha⟩, fun _ => ha⟩

/-! ### When the family is kept

Both directions, for every run that has a target. -/

/-- **The family of a request is kept** if and only if it was for a literal or the answers fit
it. -/
theorem honoured_iff
    (h : Task.Runs (resolveAsync rt policy (hostResolver rt) input family) es (.ok target)) :
    Honoured rt (dnsCalls es) target family ↔
      ∀ name, policy.parse rt input false = .ok (.hostname name) →
        AnswersFit rt (dnsCalls es) family := by
  cases hparse : policy.parse rt input false with
  | error error =>
    rw [resolveAsync, hparse] at h
    exact absurd (Task.runs_throw.mp h).2 (by simp)
  | ok destination =>
  cases destination with
  | ipAddress address text =>
    obtain ⟨rfl, rfl, hmatch⟩ := resolveAsync_literal hparse h
    refine iff_of_true ?_ fun name hname => absurd hname (by simp)
    cases family with
    | ipv4 =>
      have hfamily : address.addressFamily = .interNetwork := beq_iff_eq.mp hmatch
      exact ⟨hfamily, versionOf_eq_ipv4.mpr hfamily⟩
    | ipv6 =>
      have hfamily : address.addressFamily = .interNetworkV6 := beq_iff_eq.mp hmatch
      exact ⟨hfamily, versionOf_eq_ipv6.mpr hfamily⟩
    | auto =>
      rintro ⟨a, ⟨call, hcall, -⟩, -⟩
      exact absurd hcall List.not_mem_nil
    | undefined => trivial
  | hostname name =>
    obtain ⟨addresses, hlookup, hmem, hversion, hchosen⟩ := resolveAsync_chosen hparse h
    obtain ⟨-, -, hanswered⟩ := HostResolver.resolveAsync_spec hlookup
    have hfound := hanswered addresses rfl
    simp only [hfound] at hchosen
    simp only [Except.ok.injEq, ParsedDestination.hostname.injEq, forall_eq']
    cases family with
    | ipv4 =>
      constructor
      · exact fun hkept => hchosen.mp hkept.1
      · intro hfit
        have hkept := hchosen.mpr hfit
        exact ⟨hkept, hversion.trans (versionOf_eq_ipv4.mpr hkept)⟩
    | ipv6 =>
      constructor
      · intro hkept a ha hfamily
        have hother := hchosen.mpr ⟨a, ha, hfamily⟩
        exact addressFamily_ne.mpr hkept.1 hother
      · intro hfit
        have hkept := addressFamily_ne.mp (hfit _ ((hfound _).mp hmem))
        exact ⟨hkept, hversion.trans (versionOf_eq_ipv6.mpr hkept)⟩
    | auto => exact iff_of_true hchosen.mpr trivial
    | undefined => exact iff_of_true trivial trivial

/-- A resolver that answers a query with addresses of its own type only keeps the family. -/
theorem answersFit_of_own
    (h : Task.Runs (resolveAsync rt policy (hostResolver rt) input family) es (.ok target))
    (hown : ∀ call ∈ dnsCalls es, ∀ a, HostResolver.Answered rt [call] a →
      (a.addressFamily = .interNetwork ↔ call.recordType = ofString "A"))
    {name : Str} (hparse : policy.parse rt input false = .ok (.hostname name)) :
    AnswersFit rt (dnsCalls es) family := by
  obtain ⟨addresses, hlookup, hmem, -⟩ := resolveAsync_chosen hparse h
  obtain ⟨-, hqueries, hanswered⟩ := HostResolver.resolveAsync_spec hlookup
  -- Every answered address came with a query of the family.
  have hasked : ∀ a, HostResolver.Answered rt (dnsCalls es) a →
      ∃ type ∈ HostResolver.queryTypes family,
        (a.addressFamily = .interNetwork ↔ type = ofString "A") := by
    rintro a ⟨call, hcall, hanswer⟩
    have hquery : call.query ∈ dnsQueries es := List.mem_map_of_mem hcall
    rw [hqueries, List.mem_map] at hquery
    obtain ⟨type, htype, heq⟩ := hquery
    have hrecord : type = call.recordType := (Prod.mk.inj heq).2
    refine ⟨type, htype, ?_⟩
    rw [hrecord]
    exact hown call hcall a ⟨call, List.mem_singleton_self call, hanswer⟩
  cases family with
  | ipv4 =>
    have hfound := (hanswered addresses rfl _).mp hmem
    obtain ⟨type, htype, hiff⟩ := hasked _ hfound
    exact ⟨_, hfound, hiff.mpr (List.mem_singleton.mp htype)⟩
  | ipv6 =>
    intro a ha hfamily
    obtain ⟨type, htype, hiff⟩ := hasked a ha
    have haaaa : type = ofString "AAAA" := List.mem_singleton.mp htype
    exact absurd (haaaa.symm.trans (hiff.mp hfamily)) (by decide)
  | auto => trivial
  | undefined => trivial

/-! ### An answer to the other query

One resolution in which it goes wrong, and one in which it does not. -/

/-- A resolution of `example.com` in which every query is answered with one record. -/
def resolvedWith (family : IpFamily) (record : DnsRecord) :
    List (Event Work) × Except Exn ResolvedTarget :=
  Prog.simulate answer (resolveAsync .reference (DestinationPolicy.new .reference none none)
    (hostResolver .reference) (some "example.com") family).run
where
  answer : ∀ op, Work.Ret op
    | .getUtcNow => (0 : ℤ)
    | .stopwatchElapsed => (0 : ℤ)
    | .isCancellationRequested => false
    | .dnsQuery _ _ => .ok ⟨"NoError", [record]⟩
    | .runProcess _ _ _ => .error Exn.other

/-- A resolution that succeeds with a target of a family. -/
theorem exists_target_of_family {result : Except Exn ResolvedTarget} {version : IpVersion}
    (h : result.toOption.map ResolvedTarget.family = some version) :
    ∃ target, result = .ok target ∧ target.family = version := by
  cases result with
  | error e => exact absurd h (by simp [Except.toOption])
  | ok target => exact ⟨target, rfl, Option.some.inj h⟩

/-- The query for IPv4 addresses is answered with an IPv6 one. -/
theorem not_honoured_of_aaaa :
    ∃ target, (resolvedWith .ipv4 ⟨"example.com", "AAAA", 60, "2606:4700::1"⟩).2 = .ok target ∧
      target.family = .ipv6 ∧
      ¬ Honoured .reference
        (dnsCalls (resolvedWith .ipv4 ⟨"example.com", "AAAA", 60, "2606:4700::1"⟩).1) target
        .ipv4 := by
  have hipv6 : (resolvedWith .ipv4 ⟨"example.com", "AAAA", 60, "2606:4700::1"⟩).2.toOption.map
      ResolvedTarget.family = some .ipv6 := by decide +kernel
  obtain ⟨target, hresult, hfamily⟩ := exists_target_of_family hipv6
  refine ⟨target, hresult, hfamily, fun h => ?_⟩
  exact absurd (hfamily.symm.trans h.2) (by decide)

theorem honoured_iff_of_a :
    ∃ target, (resolvedWith .ipv4 ⟨"example.com", "A", 60, "93.184.216.34"⟩).2 = .ok target ∧
      (Honoured .reference
          (dnsCalls (resolvedWith .ipv4 ⟨"example.com", "A", 60, "93.184.216.34"⟩).1) target .ipv4 ↔
        ∀ name, (DestinationPolicy.new .reference none none).parse .reference (some "example.com")
            false = .ok (.hostname name) →
          AnswersFit .reference
            (dnsCalls (resolvedWith .ipv4 ⟨"example.com", "A", 60, "93.184.216.34"⟩).1) .ipv4) := by
  have hipv4 : (resolvedWith .ipv4 ⟨"example.com", "A", 60, "93.184.216.34"⟩).2.toOption.map
      ResolvedTarget.family = some .ipv4 := by decide +kernel
  obtain ⟨target, hresult, -⟩ := exists_target_of_family hipv4
  refine ⟨target, hresult, honoured_iff ?_⟩
  rw [← hresult]
  exact Prog.run_simulate _ _

end TargetResolver

end LookingGlass
