import LookingGlass.Api.ConcurrencyGuard
import LookingGlass.Foundations.Routes
import LookingGlass.Foundations.Spellings

/-!
# What a client over its limit is told

A request is counted by the policy of the endpoint to which it was routed. When it is rejected, the
limit that it hit is looked up again, by the end of its path. The two agree as long as the path ends
in the literal of a route: a slash at the end hides the name of a diagnostic, and a BGP query may
end in one.

## Two lookups of one limit

The middleware counts a request by the policy of its endpoint, which routing has found from the
whole path. The message is put together later, from the path as a text, by a chain of tests for its
end. Nothing makes these two agree but the choice of the routes. The chain sees the last part of the
path, up to case, and nothing else; that is `describe_eq`, and after it the question is only what
the last part of a routed path can be.

There are two ways to go wrong. Routing ignores one slash at the end, and the chain does not. And
the endpoints of BGP queries take the rest of the path, whatever it is, so that a query may end in
the name of a diagnostic.

## Main results

* `RateLimitingSetup.describe_eq` — what is described depends on the last part of the path
* `RateLimitingSetup.describe_iff` — when it is the limit that was hit
-/

namespace LookingGlass

open Utf16 Route

structure EndpointLimit where
  permitLimit : ℕ
  windowSeconds : ℕ := 60
  deriving DecidableEq

/-- The limits of the endpoints, with the other options. -/
structure RateLimitingSettings extends RateLimitingOptions where
  ping : EndpointLimit := { permitLimit := 10 }
  traceroute : EndpointLimit := { permitLimit := 5 }
  mtr : EndpointLimit := { permitLimit := 3 }
  dns : EndpointLimit := { permitLimit := 20 }
  info : EndpointLimit := { permitLimit := 120 }

/-- A path that is not empty starts with a slash. The type of the framework makes sure of it, and
here it is a part of the structure. -/
structure PathString where
  value : Option Str
  rooted : ∀ c ∈ (value.getD []).head?, c = ofChar '/'

/-- A slash, and what is behind it. -/
def PathString.slash (rest : Str) : PathString :=
  ⟨some (ofChar '/' :: rest), fun _ hc => (Option.some.inj hc).symm⟩

/-! ### The policies

Each policy has a name, which is also the last part of the route, and a limit from the settings. -/

inductive RateLimitPolicy where
  | ping
  | traceroute
  | mtr
  | dns
  | info
  deriving DecidableEq

namespace RateLimitPolicy

def name : RateLimitPolicy → Str
  | ping => "ping"
  | traceroute => "traceroute"
  | mtr => "mtr"
  | dns => "dns"
  | info => "info"

/-- What the policy was added with. -/
def limit (settings : RateLimitingSettings) : RateLimitPolicy → EndpointLimit
  | ping => settings.ping
  | traceroute => settings.traceroute
  | mtr => settings.mtr
  | dns => settings.dns
  | info => settings.info

/-- The policies of diagnostics. -/
def diagnostics : List RateLimitPolicy := [ping, traceroute, mtr, dns]

end RateLimitPolicy

/-! ### The endpoints

The table is that of `Program.cs`, with the templates as they are written there. -/

/-- An endpoint for any method, or for one. Its template is a list of segments, the last of which
may take the rest of a path. -/
structure Endpoint where
  method : Option Str
  template : List (Segment Char16)
  policy : Option RateLimitPolicy
  deriving DecidableEq

namespace Endpoint

/-- `{**name}`, `{name}`, or a literal. -/
def parseSegment (text : Str) : Segment Char16 :=
  if (ofString "\x7b**").isPrefixOf text then .catchAll
  else if (ofString "\x7b").isPrefixOf text then .parameter
  else .literal text

def parseTemplate (text : Str) : List (Segment Char16) :=
  (segments (ofChar '/') text).map parseSegment

def mapHealthChecks (pattern : Str) : Endpoint := ⟨none, parseTemplate pattern, none⟩

def mapPost (group pattern : Str) (policy : RateLimitPolicy) : Endpoint :=
  ⟨some "POST", parseTemplate (group ++ pattern), some policy⟩

def mapGet (group pattern : Str) (policy : RateLimitPolicy) : Endpoint :=
  ⟨some "GET", parseTemplate (group ++ pattern), some policy⟩

end Endpoint

namespace Program

open Endpoint

def api : Str := "/api/v1"
def diagnostics : Str := api ++ "/diagnostics"
def bgp : Str := api ++ "/bgp"

def endpoints : List Endpoint :=
  [mapHealthChecks "/health/live",
    mapHealthChecks "/health/ready",
    mapPost diagnostics "/ping" .ping,
    mapPost diagnostics "/traceroute" .traceroute,
    mapPost diagnostics "/mtr" .mtr,
    mapPost diagnostics "/dns" .dns,
    mapGet api "/status" .info,
    mapGet api "/network" .info,
    mapGet api "/network/performance" .info,
    mapGet api "/traffic" .info,
    mapGet api "/activity" .info,
    mapGet bgp "/routes" .info,
    mapGet bgp "/prefix/\x7b**prefix\x7d" .info,
    mapGet bgp "/asn/\x7basn\x7d" .info,
    mapGet bgp "/sessions" .info]

end Program

/-- The request goes to the endpoint, whose parameters take so much of the path. Routing compares
the literals up to case. -/
structure Routed (method : Str) (path : PathString) (e : Endpoint) (taken : List Str) : Prop where
  mem : e ∈ Program.endpoints
  method_eq : ∀ m ∈ e.method, m.map asciiUpper = method.map asciiUpper
  captures :
    captures asciiUpper e.template (segments (ofChar '/') (path.value.getD [])) = some taken

namespace RateLimitingSetup

/-- `EndsWith(…, StringComparison.OrdinalIgnoreCase)`, where the suffix is ASCII: nothing else is
upper-cased to ASCII. -/
def endsWithIgnoreCase (value suffix : Str) : Bool :=
  (suffix.map asciiUpper).isSuffixOf (value.map asciiUpper)

/-- The limit that is looked up for the message, by tests for the end of the path, one after the
other. -/
def describe (path : PathString) (settings : RateLimitingSettings) : Str × EndpointLimit :=
  let value := path.value.getD []
  if endsWithIgnoreCase value "/ping" then ("ping", settings.ping)
  else if endsWithIgnoreCase value "/traceroute" then ("traceroute", settings.traceroute)
  else if endsWithIgnoreCase value "/mtr" then ("MTR", settings.mtr)
  else if endsWithIgnoreCase value "/dns" then ("DNS", settings.dns)
  else ("API", settings.info)

/-- What is written when the lease of a request was not acquired; `retry` is in ticks. -/
def writeRejection (path : PathString) (settings : RateLimitingSettings) (retry : Option ℤ) :
    Problem :=
  let (label, limit) := describe path settings
  let retryAfter : ℤ := (retry.map fun ticks => ⌈(ticks / 10000000 : ℚ)⌉).getD limit.windowSeconds
  let window : Str := if limit.windowSeconds = 60 then "minute"
    else concat [AddressText.decimal limit.windowSeconds, " seconds"]
  { status := 429
    code := ProblemCodes.rateLimited
    title := ProblemExceptionHandler.title ProblemCodes.rateLimited
    detail := concat ["You have reached the limit of ", AddressText.decimal limit.permitLimit, " ",
      label, " requests per ", window, ". Try again in ", Double.decimalInt retryAfter, " seconds."]
    retryAfterSeconds := some retryAfter }

/-! ### What is described

The chain of tests, as a function of the last part of the path. -/

def label : RateLimitPolicy → Str
  | .ping => "ping"
  | .traceroute => "traceroute"
  | .mtr => "MTR"
  | .dns => "DNS"
  | .info => "API"

/-- The name of a diagnostic, up to case. -/
def Names (part : Str) (p : RateLimitPolicy) : Prop := part.map asciiUpper = p.name.map asciiUpper

instance (part : Str) (p : RateLimitPolicy) : Decidable (Names part p) :=
  inferInstanceAs (Decidable (_ = _))

/-- The diagnostic that has the name, if there is one. -/
def policyOf (part : Str) : RateLimitPolicy :=
  (RateLimitPolicy.diagnostics.find? fun p => decide (Names part p)).getD .info

variable {method : Str} {path : PathString} {e : Endpoint} {taken : List Str} {p : RateLimitPolicy}
  {part : Str}

theorem asciiUpper_eq_slash_iff (c : Char16) : asciiUpper c = ofChar '/' ↔ c = ofChar '/' := by
  have hslash : ofChar '/' = 0x2f := rfl
  rw [hslash]
  unfold asciiUpper isLower
  split
  · next hlower =>
    simp only [Bool.and_eq_true, decide_eq_true_eq] at hlower
    grind
  · rfl

theorem PathString.eq_nil_or_cons (path : PathString) :
    path.value.getD [] = [] ∨ ∃ rest, path.value.getD [] = ofChar '/' :: rest := by
  have hrooted := path.rooted
  cases htext : path.value.getD [] with
  | nil => exact .inl rfl
  | cons c rest =>
    rw [htext] at hrooted
    exact .inr ⟨rest, by rw [hrooted c rfl]⟩

def lastPart (path : PathString) : Str := Route.lastPart (ofChar '/') (path.value.getD [])

theorem endsWithIgnoreCase_iff (hne : p.name ≠ []) (hslash : ofChar '/' ∉ p.name) :
    endsWithIgnoreCase (path.value.getD []) (ofChar '/' :: p.name) = true ↔
      Names (lastPart path) p := by
  rw [endsWithIgnoreCase, List.isSuffixOf_iff_suffix, Names, lastPart]
  rcases PathString.eq_nil_or_cons path with hnil | ⟨rest, hcons⟩
  · rw [hnil]
    refine iff_of_false (fun h => ?_) fun h => ?_
    · exact absurd (List.suffix_nil.mp h) (by simp)
    · exact hne (List.map_eq_nil_iff.mp h.symm)
  · rw [hcons]
    exact fold_isSuffix_iff asciiUpper_eq_slash_iff hslash rest

theorem policyOf_eq (part : Str) : policyOf part =
    if Names part .ping then .ping else if Names part .traceroute then .traceroute
    else if Names part .mtr then .mtr else if Names part .dns then .dns else .info := by
  unfold policyOf RateLimitPolicy.diagnostics
  split_ifs <;> simp [*]

/-- What is described depends on the last part of the path. -/
theorem describe_eq (path : PathString) (settings : RateLimitingSettings) :
    describe path settings =
      (label (policyOf (lastPart path)), (policyOf (lastPart path)).limit settings) := by
  have hping : endsWithIgnoreCase (path.value.getD []) "/ping" = true ↔
      Names (lastPart path) .ping :=
    endsWithIgnoreCase_iff (p := .ping) (by decide) (by decide)
  have htraceroute : endsWithIgnoreCase (path.value.getD []) "/traceroute" = true ↔
      Names (lastPart path) .traceroute :=
    endsWithIgnoreCase_iff (p := .traceroute) (by decide) (by decide)
  have hmtr : endsWithIgnoreCase (path.value.getD []) "/mtr" = true ↔ Names (lastPart path) .mtr :=
    endsWithIgnoreCase_iff (p := .mtr) (by decide) (by decide)
  have hdns : endsWithIgnoreCase (path.value.getD []) "/dns" = true ↔ Names (lastPart path) .dns :=
    endsWithIgnoreCase_iff (p := .dns) (by decide) (by decide)
  rw [describe, policyOf_eq]
  simp only [hping, htraceroute, hmtr, hdns]
  split_ifs <;> rfl

example : (writeRejection (.slash "api/v1/diagnostics/mtr") { mtr := { permitLimit := 1 } }
    (some 120000000)).detail = ofString
      "You have reached the limit of 1 MTR requests per minute. Try again in 12 seconds." := by
  decide +kernel

/-- The policies have different limits by default, so they are told apart by what they describe. -/
theorem limit_eq_iff {q : RateLimitPolicy} : (∀ settings, q.limit settings = p.limit settings) ↔
    q = p := by
  have hdefault : ∀ q p : RateLimitPolicy, q.limit {} = p.limit {} → q = p := by
    intro q p
    cases q <;> cases p <;> decide
  exact ⟨fun h => hdefault q p (h {}), fun h settings => h ▸ rfl⟩

theorem describe_limit_iff : (∀ settings, (describe path settings).2 = p.limit settings) ↔
    policyOf (lastPart path) = p := by
  simp only [describe_eq]
  exact limit_eq_iff

/-! ### What the policy of the endpoint is

Every template takes at its end only, so the last literal of a template decides its policy, unless
something is taken. -/

/-- A name counts up to case. -/
theorem policyOf_congr {part' : Str} (h : part.map asciiUpper = part'.map asciiUpper) :
    policyOf part = policyOf part' := by
  have hnames : (fun q => decide (Names part q)) = fun q => decide (Names part' q) := by
    funext q
    rw [decide_eq_decide, Names, Names, h]
  rw [policyOf, policyOf, hnames]

theorem policyOf_eq_info_iff :
    policyOf part = .info ↔ ∀ q ∈ RateLimitPolicy.diagnostics, ¬ Names part q := by
  rw [policyOf_eq]
  simp only [RateLimitPolicy.diagnostics, List.forall_mem_cons, List.not_mem_nil, false_imp_iff,
    implies_true, and_true]
  split_ifs <;> simp [*]

/-- The templates take only at their end, and the policy of an endpoint is that of its last
literal. -/
theorem endpoint_spec (he : e ∈ Program.endpoints) (hp : e.policy = some p) :
    takesLast e.template = true ∧ (literals e.template).getLast?.map policyOf = some p ∧
      (p = .info ∨ ∀ t ∈ e.template, t.isLiteral = true) := by
  have hall : ∀ e ∈ Program.endpoints, e.policy = none ∨ takesLast e.template = true ∧
      (literals e.template).getLast?.map policyOf = e.policy ∧
      (e.policy = some .info ∨ ∀ t ∈ e.template, t.isLiteral = true) := by
    decide +kernel
  have hspec := (hall e he).resolve_left (by simp [hp])
  rwa [hp, Option.some.injEq] at hspec

/-- The path ends with a slash, which routing ignores. -/
def EndsWithSlash (path : PathString) : Prop := (path.value.getD []).getLast? = some (ofChar '/')

theorem endsWithSlash_of_lastPart (hrooted : path.value.getD [] ≠ []) :
    EndsWithSlash path ↔ lastPart path = [] := by
  obtain ⟨rest, hcons⟩ := (PathString.eq_nil_or_cons path).resolve_left hrooted
  rw [EndsWithSlash, lastPart, hcons, ← List.singleton_suffix_iff_getLast?_eq_some]
  exact isSuffix_iff List.not_mem_nil rest

/-- **When the limit that was hit is described**: a path that ends with a slash must not be that of
a diagnostic, and what a BGP query takes must not end in the name of one. -/
theorem describe_iff (h : Routed method path e taken) (hp : e.policy = some p) :
    (∀ settings, (describe path settings).2 = p.limit settings) ↔
      (EndsWithSlash path → p = .info) ∧ (¬ EndsWithSlash path →
        ∀ part ∈ taken.getLast?, ∀ q ∈ RateLimitPolicy.diagnostics, ¬ Names part q) := by
  obtain ⟨htakes, hliteral, hinfo⟩ := endpoint_spec h.mem hp
  have hlast := getLast?_of_captures htakes h.captures
  obtain ⟨text, htext, hpolicy⟩ := Option.map_eq_some_iff.mp hliteral
  have hne : path.value.getD [] ≠ [] := by
    intro hnil
    have hnone : (segments (ofChar '/') (path.value.getD [])).getLast? = none := by
      rw [hnil]
      rfl
    rw [hnone, htext] at hlast
    by_cases htaken : taken = []
    · exact absurd (hlast.2 htaken) (by simp)
    · exact htaken (List.getLast?_eq_none_iff.mp (hlast.1 htaken).symm)
  rw [describe_limit_iff]
  by_cases hslash : EndsWithSlash path
  · have hnone := (endsWithSlash_of_lastPart hne).mp hslash
    have hdescribed : policyOf (lastPart path) = .info := by rw [hnone]; decide
    rw [hdescribed]
    exact ⟨fun heq => ⟨fun _ => heq.symm, fun hnot => absurd hslash hnot⟩,
      fun hcond => (hcond.1 hslash).symm⟩
  · have hparts : (segments (ofChar '/') (path.value.getD [])).getLast? = some (lastPart path) :=
      getLast?_segments (mt (endsWithSlash_of_lastPart hne).mpr hslash)
    rw [hparts] at hlast
    by_cases htaken : taken = []
    · have hsame : (lastPart path).map asciiUpper = text.map asciiUpper := by
        have hmap := hlast.2 htaken
        rw [htext] at hmap
        exact Option.some.inj hmap
      rw [policyOf_congr hsame, hpolicy, htaken]
      exact iff_of_true rfl ⟨fun h => absurd h hslash, fun _ part hpart => (nomatch hpart)⟩
    · obtain rfl := hinfo.resolve_right fun hall => htaken (captures_of_all hall h.captures)
      rw [policyOf_eq_info_iff, ← hlast.1 htaken]
      exact ⟨fun hnames => ⟨fun _ => rfl, fun _ part hpart => Option.some.inj hpart ▸ hnames⟩,
        fun hcond => hcond.2 hslash _ rfl⟩

/-- A slash behind the name of a diagnostic. -/
theorem not_describe_of_slash :
    ∃ path : PathString, path.value = some (ofString "/api/v1/diagnostics/ping/") ∧
      ∃ e, Routed "POST" path e [] ∧ e.policy = some .ping ∧
        (describe path {}).2 ≠ RateLimitPolicy.ping.limit {} := by
  refine ⟨.slash "api/v1/diagnostics/ping/", rfl,
    Endpoint.mapPost Program.diagnostics "/ping" .ping, ⟨?_, ?_, ?_⟩, rfl, ?_⟩
  · decide +kernel
  · decide
  · decide +kernel
  · decide +kernel

theorem describe_iff_of_ping :
    ∃ (path : PathString) (e : Endpoint), path.value = some (ofString "/API/v1/diagnostics/Ping") ∧
      Routed "POST" path e [] ∧
      ((∀ settings, (describe path settings).2 = RateLimitPolicy.ping.limit settings) ↔
        (EndsWithSlash path → RateLimitPolicy.ping = .info) ∧ (¬ EndsWithSlash path →
          ∀ part ∈ ([] : List Str).getLast?, ∀ q ∈ RateLimitPolicy.diagnostics,
            ¬ Names part q)) := by
  have h : Routed "POST" (.slash "API/v1/diagnostics/Ping")
      (Endpoint.mapPost Program.diagnostics "/ping" .ping) [] := by
    refine ⟨?_, ?_, ?_⟩
    · decide +kernel
    · decide
    · decide +kernel
  exact ⟨_, _, rfl, h, describe_iff h rfl⟩

end RateLimitingSetup

end LookingGlass
