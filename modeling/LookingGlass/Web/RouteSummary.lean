import LookingGlass.Diagnostics.MtrReport
import LookingGlass.Web.BitRates

/-!
# The summary of a route

The page sums a report up in a line or two, which count the hops that answered and name the figures
of the last one of them, and lists who answered at each hop. All of it is taken from the response,
in which some addresses are kept back; what is counted does not depend on these.

## From the text of the tool to that of the page

There are four steps: `mtr` prints a report, the parser reads it, the service builds a response from
it, for which it looks up names, and the page makes a few lines of that. Each step has its own
statement, and here they are put together. What is said of the page mentions the report only.

An address that is kept back is counted like any other. Its hop has answered, and its figures are
shown; what the page does not have is who it was.

## Main results

* `RouteSummary.shown_of_report` — what the page shows, in terms of what `mtr` has printed
-/

namespace LookingGlass

open Utf16 Interaction Format Traffic

namespace RouteSummary

def formatMs : Option Double → Str
  | some (.finite value) =>
    concat [toFixed (if value < 1 then 2 else if value < 100 then 1 else 0) value, " ms"]
  | _ => emDash

def formatPercent : Option Double → Str
  | some (.finite value) => concat [numberText (fixedNumber 2 value), "%"]
  | _ => emDash

def countRespondingHops (hops : List MtrHop) : ℕ := (hops.filter (·.responded)).length

def summarizeMtr (result : MtrResponse) : List Str :=
  let last := result.hops.reverse.find? (·.responded)
  concat ["Route contains ", pluralize (countRespondingHops result.hops) "responding hop", " over ",
      pluralize result.cycles "cycle"] ::
    (last.map fun last => concat [formatMs last.avgMs, " average latency and ",
      formatPercent (some last.lossPercent), " loss at the final hop"]).toList

/-- The text of `HopHost`, as it is read out: the three stars that stand for a hop without an answer
are hidden from that. -/
def hopHost (hop : MtrHop) : Str :=
  if !hop.responded then "No response"
  else if hop.redacted then "Internal network"
  else (hop.hostname <|> hop.address).getD emDash

/-! ### What has been printed

The lines of the page once more, this time as a function of the report. -/

section Printed

open MtrParser

/-- The hubs that answered, with what they answered. -/
def answered (report : Report) : List (Hub × Answer) :=
  report.hubs.filterMap fun hub => hub.answer.map fun answer => (hub, answer)

/-- What there is to say of a report. -/
def said (report : Report) : List Str :=
  concat ["Route contains ", pluralize (answered report).length "responding hop", " over ",
      pluralize report.cycles "cycle"] ::
    ((answered report).getLast?.map fun last => concat [formatMs (some last.2.avg.value),
      " average latency and ", formatPercent (some last.1.loss.value),
      " loss at the final hop"]).toList

/-- Who is named at a hop: nobody who did not answer, and no address that is kept back. Otherwise it
is the address that answered, or the name that was found for it. -/
inductive Names (rt : Runtime) (policy : DestinationPolicy) (settings : DiagnosticsOptions)
    (es : List (Event Work)) : Hub → Str → Prop
  | silent {hub : Hub} (h : hub.answer = none) : Names rt policy settings es hub "No response"
  | hidden {hub : Hub} {answer : Answer} (h : hub.answer = some answer)
    (hredact : settings.redactPrivateHops = true)
    (hblocked : policy.blocklist.isBlocked answer.address = true) :
    Names rt policy settings es hub "Internal network"
  | address {hub : Hub} {answer : Answer} (h : hub.answer = some answer)
    (hopen : settings.redactPrivateHops = false ∨
      policy.blocklist.isBlocked answer.address = false) :
    Names rt policy settings es hub (rt.addressToString answer.address)
  | name {hub : Hub} {answer : Answer} {name : Str} (h : hub.answer = some answer)
    (hopen : settings.redactPrivateHops = false ∨
      policy.blocklist.isBlocked answer.address = false)
    (hname : DiagnosticsService.IsNamed es answer.address name) :
    Names rt policy settings es hub name

end Printed

open MtrParser DiagnosticsService

variable {rt : Runtime} {policy : DestinationPolicy} {settings : DiagnosticsOptions}
  {es : List (Event Work)} {report : Report} {response : MtrResponse}

theorem names_of_shows {hub : Hub} {hop : MtrHop} (h : Shows rt policy settings es hub hop) :
    Names rt policy settings es hub (hopHost hop) := by
  cases hanswer : hub.answer with
  | none =>
    have hresponded : hop.responded = false := by rw [h.responded, hanswer, Option.isSome_none]
    rw [hopHost, hresponded]
    exact .silent hanswer
  | some answer =>
    have hresponded : hop.responded = true := by rw [h.responded, hanswer, Option.isSome_some]
    have hkept := h.redacted
    rw [hanswer, Option.any_some] at hkept
    rw [hopHost, hresponded]
    cases hredacted : hop.redacted with
    | true =>
      rw [hredacted] at hkept
      obtain ⟨hredact, hblocked⟩ := Bool.and_eq_true_iff.mp hkept.symm
      exact .hidden hanswer hredact hblocked
    | false =>
      rw [hredacted] at hkept
      have hopen := Bool.and_eq_false_iff.mp hkept.symm
      have haddress : hop.address = some (rt.addressToString answer.address) := by
        rw [h.address, hredacted, hanswer]
        rfl
      cases hname : hop.hostname with
      | none =>
        rw [haddress]
        exact .address hanswer hopen
      | some name =>
        obtain ⟨-, answer', hanswer', hnamed⟩ := h.hostname name hname
        obtain rfl := Option.some.inj (hanswer.symm.trans hanswer')
        exact .name hanswer hopen hnamed

/-- The hops that answered are the hubs that did. -/
theorem responding_of_shows {hubs : List Hub} {hops : List MtrHop}
    (h : List.Forall₂ (Shows rt policy settings es) hubs hops) :
    List.Forall₂ (fun x hop => x.1.answer = some x.2 ∧ Shows rt policy settings es x.1 hop)
      (hubs.filterMap fun hub => hub.answer.map fun answer => (hub, answer))
      (hops.filter (·.responded)) := by
  induction h with
  | nil => exact .nil
  | @cons hub hop _ _ hshows _ ih =>
    cases hanswer : hub.answer with
    | none =>
      have hresponded : hop.responded = false := by
        rw [hshows.responded, hanswer, Option.isSome_none]
      rw [List.filterMap_cons_none (by rw [hanswer]; rfl),
        List.filter_cons_of_neg (by simp [hresponded])]
      exact ih
    | some answer =>
      have hresponded : hop.responded = true := by
        rw [hshows.responded, hanswer, Option.isSome_some]
      rw [List.filterMap_cons_some (b := (hub, answer)) (by rw [hanswer]; rfl),
        List.filter_cons_of_pos hresponded]
      exact .cons ⟨hanswer, hshows⟩ ih

theorem summarizeMtr_of_shows (hcycles : response.cycles = report.cycles)
    (hhops : List.Forall₂ (Shows rt policy settings es) report.hubs response.hops) :
    summarizeMtr response = said report := by
  have hresponding := responding_of_shows hhops
  have hcount : countRespondingHops response.hops = (answered report).length :=
    hresponding.length_eq.symm
  obtain ⟨pairs, hfst, hsnd, hpairs⟩ := List.exists_pairs_of_forall₂ hresponding
  rw [summarizeMtr, said, hcount, hcycles, ← List.getLast?_filter, hsnd, answered, hfst,
    List.getLast?_map, List.getLast?_map]
  cases hpair : pairs.getLast? with
  | none => rfl
  | some pair =>
    obtain ⟨hanswer, hshows⟩ := hpairs pair (List.mem_of_getLast? hpair)
    have havg : pair.2.avgMs = some pair.1.2.avg.value := by
      rw [hshows.avgMs, hanswer]
      rfl
    rw [Option.map_some, Option.map_some, Option.map_some, Option.map_some, havg,
      hshows.lossPercent]

/-- **From the report to the page**: in every run in which `mtr` has left a report, the response has
the cycles of the report, each hop of the page is a hub of the report with its figures, whoever is
named there answered at this hop and is not kept back, and the summary is that of the report. -/
theorem shown_of_report {parseDocument : Str → Option Json} {printAddress : IPAddress → Str}
    {json : Str} {root : Json} (hwf : Utf8.isWellFormed json = true)
    (hroot : parseDocument json = some root) (hprinted : report.IsPrinted printAddress root)
    (hread : report.IsRead printAddress rt) {request : Option DestinationRequest}
    {requestId : Str} {es : List (Event (Exec.sum Work))}
    (hrun : Task.Runs (mtrAsync rt policy settings (hostResolver rt)
      (nativeProbeRunner rt policy settings (parsers rt parseDocument)) request requestId) es
      (.ok response)) (hleaves : Leaves (DiagnosticsExecutor.workEvents es) 0 json) :
    response.cycles = report.cycles ∧ List.Forall₂ (fun hub hop =>
        Shows rt policy settings (DiagnosticsExecutor.workEvents es) hub hop ∧
          Names rt policy settings (DiagnosticsExecutor.workEvents es) hub (hopHost hop))
        report.hubs response.hops ∧
      summarizeMtr response = said report := by
  obtain ⟨hcycles, hhops⟩ := shows_of_runs hwf hroot hprinted hread hrun hleaves
  exact ⟨hcycles, hhops.imp fun hub hop h => ⟨h, names_of_shows h⟩,
    summarizeMtr_of_shows hcycles hhops⟩

/-! ### A report with a silent hop

A run of the whole service in which the tool leaves a report with a hop that did not answer. -/

/-- Two hops, the first of which is silent. -/
def exampleReport : Report where
  tests := .ofNat 5 (by decide)
  hubs :=
    [⟨.ofNat 1 (by decide), ⟨"100", "0", by decide, by decide, by decide⟩, .ofNat 5 (by decide),
        none⟩,
      ⟨.ofNat 2 (by decide), ⟨"20", "0", by decide, by decide, by decide⟩, .ofNat 5 (by decide),
        some ⟨.v4 (Octets.four 8 8 8 8), time, time, time, time, time⟩⟩]
where
  time : Numerals.Plain := ⟨"12", "5", by decide, by decide, by decide⟩

example : said exampleReport = ["Route contains 1 responding hop over 5 cycles",
    "12.5 ms average latency and 20% loss at the final hop"] := by
  decide +kernel

def exampleText : Str := concat [
  "\x7b\"report\":\x7b\"mtr\":\x7b\"tests\":5\x7d,",
  "\"hubs\":[\x7b\"count\":1,\"host\":\"???\",\"Loss%\":100.0,\"Snt\":5\x7d,",
  "\x7b\"count\":2,\"host\":\"8.8.8.8\",\"Loss%\":20.0,\"Snt\":5,\"Last\":12.5,",
  "\"Avg\":12.5,\"Best\":12.5,\"Wrst\":12.5,\"StDev\":12.5\x7d]\x7d\x7d"]

def exampleRoot : Json :=
  .object [(.text "report", .object [(.text "mtr", .object [(.text "tests", .number "5")]),
    (.text "hubs", .array
      [.object [(.text "count", .number "1"), (.text "host", .string (some "???")),
        (.text "Loss%", .number "100.0"), (.text "Snt", .number "5")],
      .object [(.text "count", .number "2"), (.text "host", .string (some "8.8.8.8")),
        (.text "Loss%", .number "20.0"), (.text "Snt", .number "5"), (.text "Last", .number "12.5"),
        (.text "Avg", .number "12.5"), (.text "Best", .number "12.5"),
        (.text "Wrst", .number "12.5"), (.text "StDev", .number "12.5")]])])]

/-- A free slot, one name for every address, and the report. -/
def exampleAnswer : ∀ op, (Exec.sum Work).Ret op
  | .inr (.runProcess _ _ _) => Except.ok ⟨0, exampleText, [], false⟩
  | .inr (.dnsQuery name type) => Except.ok ⟨"NOERROR", [⟨name, type, 60, "dns.google"⟩]⟩
  | op => idle op

def exampleTask : Task (Exec.sum Work) Exn MtrResponse :=
  mtrAsync .reference (DestinationPolicy.new .reference none none) {} (hostResolver .reference)
    (nativeProbeRunner .reference (DestinationPolicy.new .reference none none) {}
      (parsers .reference fun text => if text = exampleText then some exampleRoot else none))
    (some ⟨some "8.8.8.8", .auto⟩) "example"

theorem leaves_of_simulate {α : Type} {t : Task (Exec.sum Work) Exn α}
    {answer : ∀ op, (Exec.sum Work).Ret op} {exitCode : ℤ} {stdOut stdErr : Str} {truncated : Bool}
    (h : ∀ fileName arguments maxOutputBytes,
      answer (.inr (.runProcess fileName arguments maxOutputBytes)) =
        Except.ok ⟨exitCode, stdOut, stdErr, truncated⟩) :
    Leaves (DiagnosticsExecutor.workEvents (t.run.simulate answer).1) exitCode stdOut := by
  intro fileName arguments maxOutputBytes answered hmem
  obtain ⟨⟨op, returned⟩, he, hright⟩ := List.mem_filterMap.mp hmem
  have hanswer := Prog.eq_of_mem_simulate he
  cases op with
  | inl op => cases hright
  | inr op =>
    obtain ⟨rfl, hreturned⟩ := Event.mk.inj (Option.some.inj hright)
    obtain ⟨-, hanswer⟩ := Event.mk.inj hanswer
    exact ⟨_, (eq_of_heq (hreturned.symm.trans hanswer)).trans (h _ _ _), rfl, rfl⟩

/-- What is printed in the example is the report. -/
theorem isPrinted_example :
    exampleReport.IsPrinted Runtime.reference.addressToString exampleRoot := by
  refine ⟨⟨_, _, _, rfl, rfl, .inl rfl, rfl, .cons ?_ (.cons ?_ .nil)⟩⟩
  · exact ⟨rfl, .inl rfl, .inl rfl, .inl rfl, nofun⟩
  · refine ⟨rfl, .inl rfl, .inl rfl, .inl rfl, ?_⟩
    rintro _ ⟨⟩
    exact ⟨.inl rfl, .inl rfl, .inl rfl, .inl rfl, .inl rfl⟩

theorem isRead_example :
    exampleReport.IsRead Runtime.reference.addressToString Runtime.reference where
  unknown := by decide
  address := by
    rintro hub hhub answer hanswer
    rcases List.mem_pair.mp hhub with rfl | rfl
    · cases hanswer
    · obtain rfl := Option.some.inj hanswer
      decide +kernel

theorem shown_of_report_example :
    ∃ es response, Task.Runs exampleTask es (.ok response) ∧
      (response.cycles = exampleReport.cycles ∧ List.Forall₂ (fun hub hop =>
          Shows .reference (DestinationPolicy.new .reference none none) {}
              (DiagnosticsExecutor.workEvents es) hub hop ∧
            Names .reference (DestinationPolicy.new .reference none none) {}
              (DiagnosticsExecutor.workEvents es) hub (hopHost hop))
          exampleReport.hubs response.hops ∧
        summarizeMtr response = said exampleReport) := by
  have hrun := Prog.run_simulate exampleAnswer exampleTask.run
  have hok : (exampleTask.run.simulate exampleAnswer).2.isOk = true := by decide +kernel
  have hleaves : Leaves (DiagnosticsExecutor.workEvents
      (exampleTask.run.simulate exampleAnswer).1) 0 exampleText :=
    leaves_of_simulate fun _ _ _ => rfl
  generalize exampleTask.run.simulate exampleAnswer = result at hrun hok hleaves
  obtain ⟨es, response | ex⟩ := result
  · cases hok
  · exact ⟨es, _, hrun, shown_of_report (by decide +kernel) (if_pos rfl) isPrinted_example
      isRead_example hrun hleaves⟩

end RouteSummary

end LookingGlass
