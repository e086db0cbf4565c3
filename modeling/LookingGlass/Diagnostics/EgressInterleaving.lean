import LookingGlass.Diagnostics.EgressService

/-!
# Callers of the egress service, interleaved

As in the cache of the API, the addresses and their expiry are two fields, which callers without the
gate read while they are being written. What can be said of any such value is used here for the
addresses, and what is left are the requests.

## Completion

Addresses are stored by one caller, which reads the clock after that and before it writes the
expiry. This reading is the time from which they are kept, and it is taken from the calls of that
caller: what is promised would not hold if another expiry were written.

Two callers may store the same addresses at different times. So whoever returns addresses without
having stored any returns those of some caller for which the reading is late enough, and not of each
one that has stored the same.

The clock does not go back. What the web answers, and when a wait is cancelled, is left open.

## Main definitions

* `EgressService.Discovery.Made` — what the requests of a caller say about how far it has come
* `EgressService.completion` — from when on the addresses of a caller are kept
* `EgressService.Promised` — what is promised of the service

## Main results

* `EgressService.obeys` — the addresses are a value that expires
* `EgressService.promised_of_reachable` — who asks for what and when, and what is returned
-/

namespace LookingGlass

open Utf16 Interaction Expiring

namespace EgressService

variable {rt : Runtime} {options : EgressOptions}

/-! ### What is read off the calls of a caller

Requests, answers and failures are read off the calls, and nothing else is. A request is in flight
if there are fewer answers than requests. -/

def isRequest : Event Requests → Bool
  | ⟨.getString _ _, _⟩ => true
  | _ => false

def isAnswer : Event Requests → Bool
  | ⟨.awaitString _, _⟩ => true
  | _ => false

/-- The caller has a request in flight. -/
def isAsking (past : List (Event Egress)) : Bool :=
  decide ((works past).countP isAnswer < (works past).countP isRequest)

/-- Why a caller fails. -/
def Failing : Event Egress → Prop
  | ⟨.inl .awaitGate, entered⟩ => entered = false
  | ⟨.inr (.awaitString _), .error ex⟩ => isCaught ex = false
  | ⟨.inr .isCancellationRequested, requested⟩ => requested = true
  | _ => False

/-- The family was answered with this text. -/
def Answers (past : List (Event Egress)) (family : AddressFamily) (body : Str) : Prop :=
  (⟨.inr (.awaitString family), .ok body⟩ : Event Egress) ∈ past

def isStore : Event Egress → Bool
  | ⟨.inl (.writeValue _), _⟩ => true
  | _ => false

/-- From when on the addresses are kept that the caller has stored. -/
def completion (past : List (Event Egress)) : Option DateTimeOffset := firstReading isStore past

/-! ### The requests of a caller

A request is sent for a family for which nothing is configured, and to the address that the options
give. -/

/-- Nothing is configured for the family, and this is the address to ask at. Where an address is
configured the web is not asked for one, whatever it might say. -/
def MayAsk (rt : Runtime) (options : EgressOptions) (family : AddressFamily) (url : Str) : Prop :=
  options.enabled = true ∧ (configuredAddresses rt options).get family = none ∧
    url = options.url family

/-- Every address is one that its family was answered with, in the form that the code prints. An
answer that is no address of that family leads to none. -/
def Sourced (rt : Runtime) (es : List (Event Requests)) (addresses : EgressAddresses) : Prop :=
  ∀ family address, addresses.get family = some address →
    ∃ body : Str, (⟨.awaitString family, .ok body⟩ : Event Requests) ∈ es ∧
      validate rt (some (trim Runtime.isWhiteSpace body)) family = some address

theorem Sourced.append {es : List (Event Requests)} {addresses : EgressAddresses}
    (h : Sourced rt es addresses) (e : Event Requests) : Sourced rt (es ++ [e]) addresses := by
  intro family address haddress
  obtain ⟨body, hbody, hvalidate⟩ := h family address haddress
  exact ⟨body, List.mem_append_left _ hbody, hvalidate⟩

/-- What the requests so far say about how far the caller has come. The phase of a caller is a guess
that is made from its calls; this is why it is right. -/
structure Discovery.Made (rt : Runtime) (options : EgressOptions) (d : Discovery)
    (es : List (Event Requests)) : Prop where
  count : es.countP isRequest = es.countP isAnswer + d.inFlight
  asked : ∀ family url, (⟨.getString family url, ()⟩ : Event Requests) ∈ es →
    MayAsk rt options family url
  found : Sourced rt es d.found
  fails : d.fails = true → ∃ e ∈ es, Failing e.right

theorem Discovery.Made.start : Discovery.Made rt options {} [] where
  count := rfl
  asked _ _ := nofun
  found family _ haddress := by cases family <;> exact nomatch haddress
  fails := nofun

/-- A call after which nobody may ask for more. -/
theorem asked_append {es : List (Event Requests)} {e : Event Requests}
    (h : ∀ family url, (⟨.getString family url, ()⟩ : Event Requests) ∈ es →
      MayAsk rt options family url)
    (he : ∀ family url, e = ⟨.getString family url, ()⟩ → MayAsk rt options family url) :
    ∀ family url, (⟨.getString family url, ()⟩ : Event Requests) ∈ es ++ [e] →
      MayAsk rt options family url := by
  intro family url hmem
  rcases List.mem_append.mp hmem with hmem | hmem
  · exact h family url hmem
  · exact he family url (List.mem_singleton.mp hmem).symm

theorem exists_failing_append {es : List (Event Requests)} {e : Event Requests}
    (h : (∃ e ∈ es, Failing e.right) ∨ Failing e.right) :
    ∃ e' ∈ es ++ [e], Failing (Event.right (I := Fields EgressAddresses) e') := by
  rcases h with ⟨e', hmem, hfailing⟩ | hfailing
  · exact ⟨e', List.mem_append_left _ hmem, hfailing⟩
  · exact ⟨e, List.mem_append_right _ (List.mem_singleton_self _), hfailing⟩

/-- The step lemma. -/
theorem Discovery.Made.next {d : Discovery} {es : List (Event Requests)} {e : Event Requests}
    (h : d.Made rt options es) (hop : d.isAllowed rt options e.op) :
    (d.next rt e).Made rt options (es ++ [e]) := by
  obtain ⟨hcount, hasked, hfound, hfails⟩ := h
  have hkeeps : ∀ {e : Event Requests}, d.fails = true →
      ∃ e' ∈ es ++ [e], Failing (Event.right (I := Fields EgressAddresses) e') :=
    fun hfail => exists_failing_append (.inl (hfails hfail))
  obtain ⟨op, answer⟩ := e
  cases op with
  | getString family url =>
    refine ⟨?_, asked_append hasked fun family' url' heq => ?_, hfound.append _, hkeeps⟩
    · rw [List.countP_append, List.countP_append, hcount]
      exact Nat.add_assoc ..
    · obtain ⟨rfl, rfl⟩ := EgressOp.getString.inj (congrArg Event.op heq)
      exact hop
  | awaitString family =>
    have hpos : 0 < d.inFlight := hop
    have hcount' : ∀ e : Event Requests, e.op = .awaitString family →
        (es ++ [e]).countP isRequest = (es ++ [e]).countP isAnswer + (d.inFlight - 1) := by
      rintro ⟨_, answer⟩ rfl
      rw [List.countP_append, List.countP_append, hcount]
      show es.countP isAnswer + d.inFlight + 0 = es.countP isAnswer + 1 + (d.inFlight - 1)
      omega
    cases answer with
    | ok body =>
      refine ⟨hcount' _ rfl, asked_append hasked nofun, fun other address haddress => ?_, hkeeps⟩
      have hget : (d.found.set (validate rt (some (trim Runtime.isWhiteSpace body)) family)
          family).get other = some address := haddress
      rw [EgressAddresses.get_set] at hget
      split at hget
      · next heq =>
        subst heq
        exact ⟨body, List.mem_append_right _ (List.mem_singleton_self _), hget⟩
      · exact hfound.append _ other address hget
    | error ex =>
      refine ⟨hcount' _ rfl, asked_append hasked nofun, hfound.append _, fun hfail => ?_⟩
      refine exists_failing_append ((Bool.or_eq_true _ _ ▸ hfail).imp hfails fun hcaught => ?_)
      exact (Bool.not_eq_true' _).mp hcaught
  | isCancellationRequested =>
    refine ⟨?_, asked_append hasked nofun, hfound.append _, fun hfail => ?_⟩
    · rw [List.countP_append, List.countP_append]
      exact hcount
    · exact exists_failing_append ((Bool.or_eq_true _ _ ▸ hfail).imp hfails id)

/-! ### All callers together

What the callers share besides the value and the gate is the web, about which nothing is assumed. -/

def program (rt : Runtime) (options : EgressOptions) (_ : Unit) : Prog Egress Unit :=
  (getAsync rt options).run >>= fun _ => pure ()

/-- Nothing but the calls tells what the web has been asked. -/
def system (rt : Runtime) (options : EgressOptions) :
    System Egress Unit (Shared EgressAddresses Unit) :=
  Expiring.system () (fun _ _ _ => True) (program rt options)

abbrev State := Config Egress Unit (Shared EgressAddresses Unit)

abbrev Caller := Thread Egress Unit

/-- With nothing to ask for, nothing is called. -/
theorem run_of_isFixed (hfixed : isFixed rt options = true) :
    (getAsync rt options).run = .done (.ok (configuredAddresses rt options)) := by
  rw [getAsync, hfixed]
  rfl

theorem obeys : Obeys (renewal rt options) (Discovery.Made rt options) isStore (fun _ => false)
    (program rt options) where
  timeToLive addresses := (timeToLive_pos addresses).le
  start := .start
  work _ _ _ hop hmade := hmade.next hop
  completes := by
    refine ⟨fun op answer hop => ?_, rfl, fun _ _ _ => rfl, fun _ _ _ => .inr rfl⟩
    cases op with
    | writeValue value => exact absurd rfl (hop value)
    | _ => rfl
  leaves _ := by
    cases hfixed : isFixed rt options with
    | true =>
      rw [program, run_of_isFixed hfixed]
      rfl
    | false => exact follows_of_finished (follows_getAsync hfixed)

variable {c : State} {t m : Caller} {past : List (Event Egress)}
  {phase : Phase EgressAddresses Discovery}

/-- Who has a request in flight is behind the gate. -/
theorem holdsGate_of_isAsking (hasking : isAsking past = true)
    (hknows : phase.Knows (renewal rt options) (Discovery.Made rt options) past)
    (hne : phase ≠ .broken) : phase.holdsGate = true := by
  have hlt : (works past).countP isAnswer < (works past).countP isRequest :=
    of_decide_eq_true hasking
  rcases works_of_knows hknows hne with ⟨d, rfl, -⟩ | hnone | ⟨d, hdone, hmade⟩
  · rfl
  · rw [hnone] at hlt
    exact absurd hlt (lt_irrefl _)
  · -- all requests have been answered when the work has come to an end
    have hidle : d.inFlight = 0 := by
      rcases hdone with ⟨value, hyields⟩ | hfails
      · exact hyields.1
      · exact hfails.1
    rw [hmade.count, hidle] at hlt
    exact absurd hlt (lt_irrefl _)

/-- Whoever fails has stored nothing, and has a reason. -/
theorem failing_of_gaveUp (h : GaveUp (renewal rt options) (Discovery.Made rt options) past) :
    Unwritten past ∧ ∃ e ∈ past, Failing e := by
  rcases h with ⟨hunwritten, ⟨-, hmem⟩ | ⟨⟨d, hfails, hmade⟩, -⟩⟩
  · exact ⟨hunwritten, _, hmem, rfl⟩
  · obtain ⟨⟨op, answer⟩, hmem, hfailing⟩ := hmade.fails hfails.2
    exact ⟨hunwritten, _, mem_works.mp hmem, hfailing⟩

/-- What is stored is what the web has answered. -/
theorem answers_of_wrote {addresses : EgressAddresses}
    (h : Wrote (renewal rt options) (Discovery.Made rt options) addresses past)
    {family : AddressFamily} {address : Str} (haddress : addresses.get family = some address) :
    ∃ body, Answers past family body ∧
      validate rt (some (trim Runtime.isWhiteSpace body)) family = some address := by
  obtain ⟨-, d, ⟨-, -, rfl⟩, hmade⟩ := h
  obtain ⟨body, hmem, hvalidate⟩ := hmade.found family address haddress
  exact ⟨body, mem_works.mp hmem, hvalidate⟩

/-! ### What the service promises

The promises are those of any value that expires, with the requests as the work that renews it. -/

theorem get_merge (configured discovered : EgressAddresses) (family : AddressFamily) :
    (merge configured discovered).get family =
      (configured.get family <|> discovered.get family) := by
  cases family <;> rfl

/-- Where the addresses come from that a caller returns: from the options if they are configured,
and otherwise from what somebody was answered with, who need not be the caller itself. -/
structure Genuine (rt : Runtime) (options : EgressOptions) (c : State)
    (addresses : EgressAddresses) : Prop where
  configured : ∀ family address, (configuredAddresses rt options).get family = some address →
    addresses.get family = some address
  discovered : ∀ family address, (configuredAddresses rt options).get family = none →
    addresses.get family = some address → options.enabled = true ∧
      ∃ m ∈ c.threads, ∃ body, Answers m.past family body ∧
        validate rt (some (trim Runtime.isWhiteSpace body)) family = some address

theorem genuine_configured : Genuine rt options c (configuredAddresses rt options) :=
  ⟨fun _ _ h => h, fun _ _ hnone hsome => nomatch hnone.symm.trans hsome⟩

theorem genuine_merge {addresses : EgressAddresses} (hfixed : isFixed rt options = false)
    (hm : m ∈ c.threads)
    (h : Wrote (renewal rt options) (Discovery.Made rt options) addresses m.past) :
    Genuine rt options c (merge (configuredAddresses rt options) addresses) where
  configured family address hsome := by
    rw [get_merge, hsome]
    rfl
  discovered family address hnone hsome := by
    rw [get_merge, hnone] at hsome
    exact ⟨enabled_of_not_isFixed hfixed, m, hm, answers_of_wrote h hsome⟩

/-- What is promised of a caller that has returned or failed. It is about the run of `GetAsync` and
what that comes to, and not about how far the caller is said to have come. -/
structure Delivered (rt : Runtime) (options : EgressOptions) (c : State) (t : Caller)
    (r : Except Exn EgressAddresses) : Prop where
  genuine : ∀ addresses, r = .ok addresses → Genuine rt options c addresses
  /-- A caller that has not stored the addresses itself returns some that were stored by a caller
  from whose reading of the clock, if there is one yet, they are kept beyond its own last one. -/
  fresh : ∀ addresses, r = .ok addresses → isFixed rt options = false →
    ∃ discovered, addresses = merge (configuredAddresses rt options) discovered ∧
      (Writes t.past discovered ∨ Unwritten t.past ∧ ∃ now, lastReading t.past = some now ∧
        ∃ m ∈ c.threads, Writes m.past discovered ∧
          ∀ time, completion m.past = some time → now < time + timeToLive options discovered)
  /-- A caller that fails has stored nothing, and has a reason. -/
  failed : ∀ ex, r = .error ex → Unwritten t.past ∧ ∃ e ∈ t.past, Failing e

/-- What is promised of the service, in a state of any number of callers. That addresses are kept is
counted from what their caller has read on the clock, for as long as the options say for such
addresses. -/
structure Promised (rt : Runtime) (options : EgressOptions) (c : State) : Prop where
  /-- At most one caller has requests in flight. -/
  single_flight : c.threads.countP (fun t => isAsking t.past) ≤ 1
  /-- Only what is not configured is asked for, where the options say. -/
  asks : ∀ t ∈ c.threads, ∀ family url,
    (⟨.inr (.getString family url), ()⟩ : Event Egress) ∈ t.past → MayAsk rt options family url
  /-- Nothing is asked for while addresses are kept. -/
  spaced : ∀ t ∈ c.threads, ∀ family url next,
    t.rest = .call (.inr (.getString family url)) next →
      ∀ m ∈ c.threads, ∀ addresses time, Writes m.past addresses →
        completion m.past = some time → time + timeToLive options addresses ≤ c.shared.now
  delivered : ∀ t ∈ c.threads, ∀ r, Task.Runs (getAsync rt options) t.past r →
    Delivered rt options c t r

theorem delivered_of_runs (h : (system rt options).Reachable c) (ht : t ∈ c.threads)
    {r : Except Exn EgressAddresses} (hruns : Task.Runs (getAsync rt options) t.past r) :
    Delivered rt options c t r := by
  cases hfixed : isFixed rt options with
  | true =>
    rw [Task.Runs, run_of_isFixed hfixed] at hruns
    obtain ⟨-, rfl⟩ := Prog.run_done.mp hruns
    exact ⟨fun _ hr => Except.ok.inj hr ▸ genuine_configured,
      fun _ _ hfalse => Bool.noConfusion (hfixed.symm.trans hfalse), fun _ hr => by cases hr⟩
  | false =>
    rcases returned_of_runs obeys (follows_getAsync hfixed) h ht hruns with
      ⟨addresses, rfl, hcome⟩ | ⟨⟨ex, rfl⟩, hgave⟩
    · refine ⟨fun _ hr => Except.ok.inj hr ▸ ?_,
        fun _ hr _ => ⟨addresses, (Except.ok.inj hr).symm, ?_⟩, fun _ hr => by cases hr⟩
      · rcases hcome with hown | ⟨-, now, -, m, hm, hwrote, -⟩
        · exact genuine_merge hfixed ht hown
        · exact genuine_merge hfixed hm hwrote
      · rcases hcome with hown | ⟨hidle, now, hnow, m, hm, hwrote, hlt⟩
        · exact .inl ((hown.1 addresses).mpr rfl)
        · exact .inr ⟨hidle.1, now, hnow, m, hm, (hwrote.1 addresses).mpr rfl, hlt⟩
    · exact ⟨fun _ hr => (by cases hr), fun _ hr => (by cases hr),
        fun _ _ => failing_of_gaveUp hgave⟩

/-- **One caller asks at a time, for what is not configured, and not while addresses are kept**;
what anybody returns is configured or was answered, and a caller that fails changes nothing. -/
theorem promised_of_reachable (h : (system rt options).Reachable c) : Promised rt options c := by
  have hknows := knows_of_reachable obeys h
  refine ⟨countP_le_one obeys h fun t ht hasking =>
      holdsGate_of_isAsking hasking (hknows t ht) (ne_broken obeys h ht),
    fun t ht family url hmem => ?_,
    fun t ht family url next hrest m hm addresses time hwrites htime => ?_,
    fun t ht r hruns => delivered_of_runs h ht hruns⟩
  · obtain ⟨d, hmade⟩ := exists_made obeys h ht
    exact hmade.asked family url (mem_works.mpr hmem)
  · obtain ⟨stored, hwrote, hle⟩ := expired_of_reachable obeys h ht hrest hm htime
    obtain rfl : addresses = stored := (hwrote.1 addresses).mp hwrites
    exact hle

/-- One caller asks and finds an IPv4 address, and another one has it from the cache. -/
theorem promised_of_two_callers :
    ∃ c : State, (∃ t ∈ c.threads, Answers t.past .interNetwork "192.0.2.7 " ∧
        completion t.past = some 5) ∧
      (∃ t ∈ c.threads, lastReading t.past = some 7 ∧
        Task.Runs (getAsync .reference {}) t.past (.ok ⟨some "192.0.2.7", none⟩)) ∧
      Promised .reference {} c := by
  let found : EgressAddresses := ⟨some "192.0.2.7", none⟩
  let program := (system .reference {}).program ()
  let asks : List (Event Egress) :=
    [⟨.inl .readValue, (none : Option EgressAddresses)⟩, ⟨.inl .awaitGate, true⟩,
      ⟨.inl .readValue, (none : Option EgressAddresses)⟩,
      ⟨.inr (.getString .interNetwork "https://api.ipify.org"), ()⟩,
      ⟨.inr (.getString .interNetworkV6 "https://api6.ipify.org"), ()⟩,
      ⟨.inr (.awaitString .interNetwork), Except.ok (ofString "192.0.2.7 ")⟩,
      ⟨.inr (.awaitString .interNetworkV6), Except.error .socket⟩,
      ⟨.inr .isCancellationRequested, false⟩, ⟨.inl (.writeValue found), ()⟩,
      ⟨.inl .readValue, some found⟩, ⟨.inl .getUtcNow, (5 : ℤ)⟩,
      ⟨.inl (.writeExpires 6000000005), ()⟩, ⟨.inl .readValue, some found⟩,
      ⟨.inl .release, true⟩]
  let reads : List (Event Egress) :=
    [⟨.inl .readValue, some found⟩, ⟨.inl .getUtcNow, (7 : ℤ)⟩,
      ⟨.inl .readExpires, (6000000005 : ℤ)⟩, ⟨.inl .readValue, some found⟩]
  have hasks : program.Steps asks (.done ()) :=
    .call _ (.call _ (.call _ (.call _ (.call _ (.call _ (.call _ (.call _ (.call _ (.call _
      (.call _ (.call _ (.call _ (.call _ (.refl _))))))))))))))
  have hreads : program.Steps reads (.done ()) :=
    .call _ (.call _ (.call _ (.call _ (.refl _))))
  have hruns : Task.Runs (getAsync .reference {}) reads (.ok found) :=
    .call _ (.call _ (.call _ (.call _ (.done _))))
  let filled : Shared EgressAddresses Unit :=
    { value := some found, expires := 6000000005, now := 5, rest := () }
  have hrequest : ∀ {s : Shared EgressAddresses Unit} {op : EgressOp} {answer : EgressOp.Ret op},
      (system .reference {}).effect s ⟨.inr op, answer⟩ s := ⟨(), trivial, rfl⟩
  have heffects₁ : (system .reference {}).Effects { rest := () } asks filled :=
    .cons ⟨rfl, rfl⟩ (.cons ⟨rfl, rfl⟩ (.cons ⟨rfl, rfl⟩ (.cons hrequest (.cons hrequest
      (.cons hrequest (.cons hrequest (.cons hrequest (.cons rfl (.cons ⟨rfl, rfl⟩
        (.cons ⟨by decide, rfl⟩ (.cons rfl (.cons ⟨rfl, rfl⟩ (.cons ⟨rfl, rfl⟩
          (.nil _))))))))))))))
  have heffects₂ : (system .reference {}).Effects filled reads { filled with now := 7 } :=
    .cons ⟨rfl, rfl⟩ (.cons ⟨by decide, rfl⟩ (.cons ⟨rfl, rfl⟩ (.cons ⟨rfl, rfl⟩ (.nil _))))
  have hspawned : (system .reference {}).Reachable
      ⟨{ rest := () }, [] ++ ⟨(), [], program⟩ :: [⟨(), [], program⟩]⟩ :=
    (Relation.ReflTransGen.refl.tail (.spawn _ ())).tail (.spawn _ ())
  have hfirst : (system .reference {}).Reachable
      ⟨filled, [⟨(), [] ++ asks, .done ()⟩] ++ ⟨(), [], program⟩ :: []⟩ :=
    hspawned.steps hasks heffects₁
  refine ⟨_, ⟨_, List.mem_cons_self .., ?_, rfl⟩,
    ⟨_, List.mem_cons_of_mem _ (List.mem_cons_self ..), rfl, hruns⟩,
    promised_of_reachable (hfirst.steps hreads heffects₂)⟩
  exact List.mem_of_getElem? (show asks[5]? = _ from rfl)

end EgressService

end LookingGlass
