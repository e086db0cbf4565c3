import LookingGlass.Diagnostics.MtrFailures
import LookingGlass.Diagnostics.ProbeFailures
import LookingGlass.Diagnostics.Redaction
import LookingGlass.Foundations.Paired
import LookingGlass.Foundations.Rounding
import LookingGlass.Foundations.Spellings

/-!
# Reading what `mtr` reports

A report is a document with the number of cycles and one hub for each hop. A hub has the address
that answered, or three question marks, and its statistics; the times of a hub that did not answer
are not looked at. The members of a hub may come in any order, with others between them, and a
number may be spelled as one or be the text of one.

What is in the report is in the response, hub by hub, but for the addresses that are kept back.

## What a report is

A report is given by its hubs and its number of cycles, as the tool knows them. `IsPrinted` says
that a document has been printed for it: it constrains the members that are read and says nothing of
others, neither of their order nor of what else there is. Versions of the tool differ in whether a
number is printed as one or as a text, and both are admitted, for each number by itself.

How an address is printed is a parameter, and so is the parser of documents. What is needed of them
is that the parser of addresses reads back what was printed, and that it takes three question marks
for no address.

## Main results

* `MtrParser.parse_of_isPrinted` — the hubs that are printed are the hops that are read
* `DiagnosticsService.shows_of_runs` — and the hops of the response
-/

namespace LookingGlass

open Utf16 AddressText Interaction

namespace Numerals

/-- Digits are a decimal without a point. -/
def PlainInt.plain (x : PlainInt) : Plain where
  whole := x.text
  fraction := []
  whole_ne_nil := x.ne_nil
  isDigit_whole := x.isDigit_text
  isDigit_fraction := by simp

theorem PlainInt.text_plain (x : PlainInt) : x.plain.text = x.text := by
  rw [Plain.text, plain, if_pos rfl, List.append_nil]

theorem PlainInt.value_plain (x : PlainInt) : x.plain.value = .finite x.value := by
  have hlt : decimalValue x.text < 2 ^ 53 := lt_trans x.lt (by norm_num)
  rw [Plain.value, plain, List.append_nil, List.length_nil, pow_zero, div_one,
    Double.nearest_natCast hlt, value]
  rfl

/-- What begins with a digit is no name of a number. -/
theorem readSymbol_plain (x : Plain) : readSymbol x.text = none := by
  have hwhite : ∀ c ∈ x.text, Runtime.isWhiteSpace c = false := by
    intro c hc
    rcases Plain.eq_or_isDigit_of_mem hc with rfl | hdigit
    · decide
    · obtain ⟨hge, hle⟩ := isDigit_iff_toNat.mp hdigit
      simp only [Runtime.isWhiteSpace, Bool.or_eq_false_iff, Bool.and_eq_false_iff,
        decide_eq_false_iff_not, beq_eq_false_iff_ne, ne_eq, UInt16.le_iff_toNat_le,
        ← UInt16.toNat_inj, UInt16.reduceToNat]
      omega
  obtain ⟨c, rest, htext, hc⟩ := x.exists_cons
  have hupper : asciiUpper c = c := by
    have hlower : isLower c = false := by
      obtain ⟨hge, hle⟩ := isDigit_iff_toNat.mp hc
      simp only [isLower, Bool.and_eq_false_iff, decide_eq_false_iff_not, UInt16.le_iff_toNat_le,
        UInt16.reduceToNat]
      omega
    rw [asciiUpper, hlower, if_neg Bool.false_ne_true]
  have hname : ∀ name : Str, name.head?.any isDigit = false →
      (trim Runtime.isWhiteSpace x.text).map asciiUpper ≠ name := by
    rintro name hd rfl
    rw [trim_eq_self hwhite, htext, List.map_cons, hupper, List.head?_cons, Option.any_some,
      hc] at hd
    cases hd
  unfold readSymbol
  dsimp only
  rw [if_neg (not_or.mpr ⟨hname "INFINITY" (by decide), hname "+INFINITY" (by decide)⟩),
    if_neg (hname "-INFINITY" (by decide)),
    if_neg (not_or.mpr ⟨hname "NAN" (by decide),
      not_or.mpr ⟨hname "+NAN" (by decide), hname "-NAN" (by decide)⟩⟩)]

theorem readNumeral_plain (x : Plain) : readNumeral false x.text = some x.value := by
  have hparse := tryParse_plain false x
  rw [tryParse, readSymbol_plain] at hparse
  simpa using hparse

end Numerals

namespace MtrParser

open JsonElement

/-! ### Reports

The numbers of a report are given by their texts, so that what is read is known exactly, rounding
included. -/

/-- The statistics of an address that answered. -/
structure Answer where
  address : IPAddress
  last : Numerals.Plain
  avg : Numerals.Plain
  best : Numerals.Plain
  worst : Numerals.Plain
  stdDev : Numerals.Plain

structure Hub where
  number : Numerals.PlainInt
  loss : Numerals.Plain
  sent : Numerals.PlainInt
  answer : Option Answer

structure Report where
  tests : Numerals.PlainInt
  hubs : List Hub

/-- What is to be read of a hub. -/
def Hub.raw (hub : Hub) : MtrHopRaw where
  hop := hub.number.value
  address := hub.answer.map (·.address)
  lossPercent := hub.loss.value
  sent := hub.sent.value
  lastMs := hub.answer.map (·.last.value)
  avgMs := hub.answer.map (·.avg.value)
  bestMs := hub.answer.map (·.best.value)
  worstMs := hub.answer.map (·.worst.value)
  stdDevMs := hub.answer.map (·.stdDev.value)

/-- The cycles of a report that does not say how many there were are those of its hubs. -/
def Report.cycles (report : Report) : ℤ :=
  if report.tests.value > 0 then report.tests.value
  else (report.hubs.map (·.sent.value)).max?.getD 0

def Report.raw (report : Report) : MtrRaw := ⟨report.cycles, report.hubs.map Hub.raw⟩

/-- A member with a number, which may be spelled as one or be the text of one. -/
def HasNumber (element : Json) (name text : Str) : Prop :=
  member name element = some (.number text) ∨ member name element = some (.string (some text))

section Printing

variable (printAddress : IPAddress → Str)

structure Hub.IsPrinted (hub : Hub) (element : Json) : Prop where
  host : member "host" element =
    some (.string (some (hub.answer.elim "???" fun answer => printAddress answer.address)))
  number : HasNumber element "count" hub.number.text
  loss : HasNumber element "Loss%" hub.loss.text
  sent : HasNumber element "Snt" hub.sent.text
  answer : ∀ answer ∈ hub.answer, HasNumber element "Last" answer.last.text ∧
    HasNumber element "Avg" answer.avg.text ∧ HasNumber element "Best" answer.best.text ∧
    HasNumber element "Wrst" answer.worst.text ∧ HasNumber element "StDev" answer.stdDev.text

structure Report.IsPrinted (report : Report) (root : Json) : Prop where
  body : ∃ body details elements, member "report" root = some body ∧
    member "mtr" body = some details ∧ HasNumber details "tests" report.tests.text ∧
    member "hubs" body = some (.array elements) ∧
    List.Forall₂ (Hub.IsPrinted printAddress) report.hubs elements

/-- `IPAddress.TryParse` reads what is printed of the addresses, and no question marks. -/
structure Report.IsRead (rt : Runtime) (report : Report) : Prop where
  unknown : rt.tryParseAddress "???" = none
  address : ∀ hub ∈ report.hubs, ∀ answer ∈ hub.answer,
    rt.tryParseAddress (printAddress answer.address) = some answer.address

end Printing

/-! ### The parser

A hub is read member by member, in the order in which the code asks for them. -/

variable {rt : Runtime} {printAddress : IPAddress → Str} {element : Json}

theorem readNumber_of_hasNumber {name : Str} {x : Numerals.Plain}
    (h : HasNumber element name x.text) :
    ∃ value, member name element = some value ∧ readNumber value = .ok (some x.value) := by
  rcases h with h | h
  · refine ⟨_, h, ?_⟩
    have hdouble : getDouble (.number x.text) = .ok x.value :=
      getDouble_eq_ok_iff.mpr ⟨_, rfl, Numerals.readNumeral_plain x⟩
    rw [readNumber, hdouble]
    rfl
  · refine ⟨_, h, ?_⟩
    have hstring : getString (.string (some x.text)) = .ok (some x.text) := rfl
    have hread : (some x.text).bind (Numerals.tryParse false) = some x.value :=
      Numerals.tryParse_plain false x
    rw [readNumber, hstring, ← hread]
    rfl

theorem readNumber_of_hasInt {name : Str} {x : Numerals.PlainInt}
    (h : HasNumber element name x.text) :
    ∃ value, member name element = some value ∧
      readNumber value = .ok (some (.finite x.value)) := by
  rw [← x.text_plain] at h
  rw [← x.value_plain]
  exact readNumber_of_hasNumber h

/-- A cast of an integer that is in range. -/
theorem toInt_plain (x : Numerals.PlainInt) : toInt (.finite x.value) = x.value := by
  have hlt := x.lt
  have hvalue : x.value = (decimalValue x.text : ℤ) := rfl
  have hquotient : ((x.value : ℚ)).num.tdiv ((x.value : ℚ)).den = x.value := by simp
  rw [toInt, Double.truncate, hquotient]
  omega

/-- A time is read of a hub that answered, and only of one. -/
theorem readIf_of_answer {hub : Hub} {name : Str} {t : Answer → Numerals.Plain}
    (hresponds : responds rt element = hub.answer.isSome)
    (h : ∀ answer ∈ hub.answer, HasNumber element name (t answer).text) :
    readIf (responds rt element) name element = .ok (hub.answer.map fun a => (t a).value) := by
  rw [hresponds]
  cases hanswer : hub.answer with
  | none => exact readIf_false_eq_ok_iff.mpr rfl
  | some answer => exact readIf_true_eq_ok_iff.mpr (readNumber_of_hasNumber (h answer hanswer))

/-- **A hub is read as it is printed.** -/
theorem readHub_of_isPrinted {hub : Hub} {index : ℕ} (h : hub.IsPrinted printAddress element)
    (hunknown : rt.tryParseAddress "???" = none)
    (haddress : ∀ answer ∈ hub.answer,
      rt.tryParseAddress (printAddress answer.address) = some answer.address) :
    readHub rt index element = .ok hub.raw := by
  have htext : rt.tryParseAddress (hub.answer.elim "???" fun answer =>
      printAddress answer.address) = hub.answer.map (·.address) := by
    cases hanswer : hub.answer with
    | none => exact hunknown
    | some answer => exact haddress answer hanswer
  have hresponds : responds rt element = hub.answer.isSome := by
    rw [responds_eq h.host rfl, Option.bind_some, htext, Option.isSome_map]
  obtain ⟨number, hnumber, hcount⟩ := readNumber_of_hasInt h.number
  obtain ⟨share, hshare, hloss⟩ := readNumber_of_hasNumber h.loss
  obtain ⟨snt, hsnt, hsent⟩ := readNumber_of_hasInt h.sent
  have hlast := readIf_of_answer (t := (·.last)) hresponds fun a ha => (h.answer a ha).1
  have havg := readIf_of_answer (t := (·.avg)) hresponds fun a ha => (h.answer a ha).2.1
  have hbest := readIf_of_answer (t := (·.best)) hresponds fun a ha => (h.answer a ha).2.2.1
  have hworst := readIf_of_answer (t := (·.worst)) hresponds
    fun a ha => (h.answer a ha).2.2.2.1
  have hdev := readIf_of_answer (t := (·.stdDev)) hresponds fun a ha => (h.answer a ha).2.2.2.2
  refine readHub_eq_ok_iff.mpr ⟨_, h.host, _, rfl, snt, hsnt, _, hsent, number, hnumber, _, hcount,
    share, hshare, _, hloss, _, hlast, _, havg, _, hbest, _, hworst, _, hdev, ?_⟩
  rw [Option.getD_some, Option.getD_some, Option.getD_some, toInt_plain, toInt_plain,
    Option.bind_some, htext]
  rfl

theorem tryGetProperty_of_member {name : Str} {value : Json}
    (h : member name element = some value) :
    element.tryGetProperty name = some (some value) := by
  obtain ⟨found, hfound, rfl⟩ := Option.bind_eq_some_iff.mp h
  exact hfound

theorem readCycles_of_hasNumber {body details : Json} {tests : Numerals.PlainInt}
    (hdetails : member "mtr" body = some details) (h : HasNumber details "tests" tests.text) :
    readCycles body = .ok tests.value := by
  obtain ⟨value, hvalue, hnumber⟩ := readNumber_of_hasInt h
  rw [readCycles, tryGetProperty_of_member hdetails]
  show (access (details.tryGetProperty "tests") >>= _) = _
  rw [tryGetProperty_of_member hvalue]
  show (readNumber value >>= _) = _
  rw [hnumber]
  show Except.ok (toInt (.finite tests.value)) = _
  rw [toInt_plain]

theorem mapM_readHub {hubs : List Hub} {elements : List Json}
    (helements : List.Forall₂ (Hub.IsPrinted printAddress) hubs elements)
    (hunknown : rt.tryParseAddress "???" = none)
    (haddress : ∀ hub ∈ hubs, ∀ answer ∈ hub.answer,
      rt.tryParseAddress (printAddress answer.address) = some answer.address) (start : ℕ) :
    (elements.zipIdx start).mapM (fun x => readHub rt x.2 x.1) = .ok (hubs.map Hub.raw) := by
  induction helements generalizing start with
  | nil => rfl
  | cons hhub _ ih =>
    obtain ⟨hfirst, hrest⟩ := List.forall_mem_cons.mp haddress
    rw [List.zipIdx_cons, List.mapM_cons, readHub_of_isPrinted hhub hunknown hfirst,
      ih hrest (start + 1)]
    rfl

/-- **The hubs that are printed are the hops that are read.** -/
theorem parse_of_isPrinted {parseDocument : Str → Option Json} {json : Str} {root : Json}
    {report : Report} (hwf : Utf8.isWellFormed json = true)
    (hroot : parseDocument json = some root) (hprinted : report.IsPrinted printAddress root)
    (hread : report.IsRead printAddress rt) :
    parse rt parseDocument json = .ok report.raw := by
  obtain ⟨body, details, elements, hbody, hdetails, htests, hhubs, helements⟩ := hprinted.body
  have hhops := mapM_readHub helements hread.unknown hread.address 0
  have hsent : (report.hubs.map Hub.raw).map (·.sent) = report.hubs.map (·.sent.value) := by
    rw [List.map_map]
    rfl
  have hall : read rt parseDocument json = .ok report.raw := by
    refine (read_eq_ok_iff hwf).mpr ⟨root, hroot, body, hbody, _,
      readCycles_of_hasNumber hdetails htests, elements, hhubs, _, hhops, ?_⟩
    rw [hsent]
    rfl
  rw [parse, hall]
  rfl

end MtrParser

/-! ### The response

A hop shows what its hub says, except for an address that is kept back; a name is one that the DNS
has given for it in this run. -/

namespace DiagnosticsService

open MtrParser

variable {rt : Runtime} {policy : DestinationPolicy} {settings : DiagnosticsOptions}

/-- The reverse query for the address was answered, and the first name in the answer is this one. It
is read off the calls of the run, so no name can come from anywhere else. -/
def IsNamed (es : List (Event Work)) (address : IPAddress) (name : Str) : Prop :=
  ∃ result record,
    ⟨.dnsQuery (HostResolver.reverseName address) "PTR", .ok result⟩ ∈ es ∧
      result.answers.find? (fun record => record.type == ofString "PTR") = some record ∧
        record.value = name

theorem IsNamed.mono {es fs : List (Event Work)} {address : IPAddress} {name : Str}
    (h : IsNamed es address name) (hsubset : es ⊆ fs) : IsNamed fs address name := by
  obtain ⟨result, record, hmem, hrecord⟩ := h
  exact ⟨result, record, hsubset hmem, hrecord⟩

theorem isNamed_of_runs_reverseAsync {address : IPAddress} {es : List (Event Work)} {name : Str}
    (h : Task.Runs (HostResolver.reverseAsync address) es (.ok (some name))) :
    IsNamed es address name := by
  rcases Task.runs_tryCatch.mp h with ⟨found, hrun, heq⟩ | ⟨_, ex, _, -, -, hcatch⟩
  · obtain rfl := Except.ok.inj heq
    obtain ⟨fst, result, snd, rfl, hquery, hpure⟩ := Task.runs_bind_ok.mp hrun
    obtain ⟨answer, rfl, rfl⟩ := Task.runs_call.mp hquery
    obtain ⟨record, hrecord, hvalue⟩ :=
      Option.map_eq_some_iff.mp (Except.ok.inj (Task.runs_pure.mp hpure).2).symm
    exact ⟨result, record, List.mem_append_left _ (List.mem_singleton_self _), hrecord, hvalue⟩
  · cases ex with
    | lookingGlass ex => exact absurd (Task.runs_pure.mp hcatch).2 (by simp)
    | _ => exact absurd (Task.runs_throw.mp hcatch).2 (by simp)

theorem isNamed_of_runs_lookup {address address' : IPAddress} {es : List (Event Work)} {name : Str}
    (h : Task.Runs (lookup (hostResolver rt) address) es (.ok (address', some name))) :
    IsNamed es address' name := by
  rcases Task.runs_tryCatch.mp h with ⟨found, hrun, heq⟩ | ⟨_, ex, _, -, -, hcatch⟩
  · obtain rfl := Except.ok.inj heq
    obtain ⟨fst, name', snd, rfl, hreverse, hpure⟩ := Task.runs_bind_ok.mp hrun
    obtain ⟨rfl, rfl⟩ := Prod.mk.inj (Except.ok.inj (Task.runs_pure.mp hpure).2)
    exact (isNamed_of_runs_reverseAsync hreverse).mono (List.subset_append_left _ _)
  · cases ex with
    | operationCanceled =>
      obtain ⟨_, requested, _, -, -, hrest⟩ := Task.runs_bind_ok.mp hcatch
      split at hrest
      · exact absurd (Task.runs_pure.mp hrest).2 (by simp)
      · exact absurd (Task.runs_throw.mp hrest).2 (by simp)
    | _ => exact absurd (Task.runs_throw.mp hcatch).2 (by simp)

/-- **A name is one that the DNS has given for the address.** -/
theorem isNamed_of_mem {addresses : List (Option IPAddress)} {es : List (Event Work)}
    {names : List (IPAddress × Str)}
    (h : Task.Runs (reverseLookupAsync policy settings (hostResolver rt) addresses) es (.ok names))
    {address : IPAddress} {name : Str} (hmem : (address, name) ∈ names) :
    IsNamed es address name := by
  unfold reverseLookupAsync at h
  split at h
  · obtain rfl := Except.ok.inj (Task.runs_pure.mp h).2
    cases hmem
  · obtain ⟨fst, lookups, snd, rfl, hall, hpure⟩ := Task.runs_bind_ok.mp h
    obtain rfl := Except.ok.inj (Task.runs_pure.mp hpure).2
    obtain ⟨⟨address', found⟩, hlookup, heq⟩ := List.mem_map.mp hmem
    obtain ⟨hlookup, hname⟩ := List.mem_filter.mp hlookup
    obtain ⟨runs, hruns, rfl, hgather⟩ := runs_whenAll hall
    have hoks := gather_eq_ok hgather.symm
    obtain ⟨run, hrun, hresult⟩ : ∃ run ∈ runs, run.2 = .ok (address', found) := by
      rw [← List.mem_map, hoks]
      exact List.mem_map_of_mem hlookup
    obtain ⟨pairs, htasks, rfl, hpairs⟩ := List.exists_pairs_of_forall₂ hruns
    obtain ⟨⟨task, run⟩, hpair, rfl⟩ := List.mem_map.mp hrun
    have htask := List.mem_map_of_mem (f := Prod.fst) hpair
    rw [← htasks] at htask
    obtain ⟨asked, -, rfl⟩ := List.mem_map.mp htask
    have htaskRun := hpairs _ hpair
    cases found with
    | none => exact absurd hname (by simp [Runtime.isNullOrWhiteSpace])
    | some found =>
      obtain ⟨rfl, rfl⟩ := Prod.mk.inj heq
      rw [hresult] at htaskRun
      refine (isNamed_of_runs_lookup htaskRun).mono fun e he => List.mem_append_left _ ?_
      exact List.mem_flatten.mpr ⟨_, List.mem_map_of_mem hrun, he⟩

/-- What a response shows of a hub: its figures as they were printed, the address unless it is kept
back, and a name only if it is that of the address. -/
structure Shows (rt : Runtime) (policy : DestinationPolicy) (settings : DiagnosticsOptions)
    (es : List (Event Work)) (hub : Hub) (hop : MtrHop) : Prop where
  number : hop.hop = hub.number.value
  responded : hop.responded = hub.answer.isSome
  lossPercent : hop.lossPercent = hub.loss.value
  sent : hop.sent = hub.sent.value
  lastMs : hop.lastMs = hub.answer.map (·.last.value)
  avgMs : hop.avgMs = hub.answer.map (·.avg.value)
  bestMs : hop.bestMs = hub.answer.map (·.best.value)
  worstMs : hop.worstMs = hub.answer.map (·.worst.value)
  stdDevMs : hop.stdDevMs = hub.answer.map (·.stdDev.value)
  /-- An address is kept back if it is blocked and that is asked for. -/
  redacted : hop.redacted = hub.answer.any fun answer =>
    settings.redactPrivateHops && policy.blocklist.isBlocked answer.address
  address : hop.address = if hop.redacted then none else
    hub.answer.map fun answer => rt.addressToString answer.address
  hostname : ∀ name ∈ hop.hostname, hop.redacted = false ∧
    ∃ answer ∈ hub.answer, IsNamed es answer.address name

theorem shows_mtrHop {es : List (Event Work)} {names : List (IPAddress × Str)}
    (hnames : ∀ address name, (address, name) ∈ names → IsNamed es address name) (hub : Hub) :
    Shows rt policy settings es hub (mtrHop rt policy settings names hub.raw) := by
  obtain ⟨number, loss, sent, answer⟩ := hub
  cases answer with
  | none => constructor <;> simp [mtrHop, present, Hub.raw]
  | some answer =>
    cases hredacted : settings.redactPrivateHops && policy.blocklist.isBlocked answer.address with
    | true => constructor <;> simp [mtrHop, present, Hub.raw, hredacted]
    | false =>
      have hlookup : ∀ name ∈ names.lookup answer.address, IsNamed es answer.address name := by
        intro name hname
        obtain ⟨before, after, rfl, -⟩ := List.lookup_eq_some_iff.mp hname
        exact hnames _ _ (by simp)
      constructor <;> simp [mtrHop, present, Hub.raw, hredacted]
      exact hlookup

/-- The output of every process that is started. A request starts one at most, so this is what its
tool has left. -/
def Leaves (es : List (Event Work)) (exitCode : ℤ) (stdOut : Str) : Prop :=
  ∀ fileName arguments maxOutputBytes answer,
    ⟨.runProcess fileName arguments maxOutputBytes, answer⟩ ∈ es →
      ∃ result, answer = .ok result ∧ result.exitCode = exitCode ∧ result.stdOut = stdOut

/-- What the probe returns of the output that is left. -/
theorem parse_of_runs_mtrAsync {parsers : Parsers} {target : IPAddress} {es : List (Event Work)}
    {raw : MtrRaw} {json : Str}
    (h : Task.Runs (NativeProbeRunner.mtrAsync rt policy settings parsers target) es (.ok raw))
    (hleaves : Leaves es 0 json) : parsers.mtr json = .ok raw := by
  obtain ⟨fst, result, snd, rfl, htool, hrest⟩ := Task.runs_bind_ok.mp h
  obtain ⟨result', heq, hexit, hout⟩ :=
    hleaves _ _ _ _ (List.mem_append_left _ (NativeProbeRunner.runProcess_mem_of_runs htool))
  obtain rfl := Except.ok.inj heq
  rw [if_neg (not_not.mpr hexit), hout] at hrest
  exact (Task.runs_ofExcept.mp hrest).2.symm

/-- **From the report to the response**: in every run in which `mtr` has left a report, what is
returned has its cycles and shows its hubs, one by one. -/
theorem shows_of_runs {parseDocument : Str → Option Json}
    {printAddress : IPAddress → Str} {json : Str} {root : Json} {report : Report}
    (hwf : Utf8.isWellFormed json = true) (hroot : parseDocument json = some root)
    (hprinted : report.IsPrinted printAddress root) (hread : report.IsRead printAddress rt)
    {request : Option DestinationRequest} {requestId : Str}
    {es : List (Event (Exec.sum Work))} {response : MtrResponse}
    (hrun : Task.Runs (mtrAsync rt policy settings (hostResolver rt)
      (nativeProbeRunner rt policy settings (parsers rt parseDocument)) request requestId) es
      (.ok response)) (hleaves : Leaves (DiagnosticsExecutor.workEvents es) 0 json) :
    response.cycles = report.cycles ∧
      List.Forall₂ (Shows rt policy settings (DiagnosticsExecutor.workEvents es)) report.hubs
        response.hops := by
  have hparse := parse_of_isPrinted hwf hroot hprinted hread
  obtain ⟨es₀, started, rest₀, hes₀, -, h₁⟩ := Task.runs_bind_ok.mp (runs_of_executeAsync hrun)
  obtain ⟨es₁, target, rest₁, hes₁, -, h₂⟩ := Task.runs_bind_ok.mp h₁
  obtain ⟨es₂, raw, rest₂, hes₂, hprobe, h₃⟩ := Task.runs_bind_ok.mp h₂
  obtain ⟨es₃, names, rest₃, hes₃, hnames, h₄⟩ := Task.runs_bind_ok.mp h₃
  obtain ⟨_, durationMs, _, -, -, h₅⟩ := Task.runs_bind_ok.mp h₄
  obtain rfl := Except.ok.inj (Task.runs_pure.mp h₅).2
  have hraw : parse rt parseDocument json = .ok raw := by
    refine parse_of_runs_mtrAsync hprobe fun fileName arguments maxOutputBytes answer hmem => ?_
    refine hleaves _ _ _ _ ?_
    rw [hes₀, hes₁, hes₂]
    exact List.mem_append_right _ (List.mem_append_right _ (List.mem_append_left _ hmem))
  obtain rfl := Except.ok.inj (hparse.symm.trans hraw)
  refine ⟨rfl, ?_⟩
  show List.Forall₂ _ _ ((report.hubs.map Hub.raw).map _)
  rw [List.map_map, List.forall₂_map_right_iff, List.forall₂_same]
  refine fun hub _ => shows_mtrHop (fun address name hmem => ?_) hub
  refine (isNamed_of_mem hnames hmem).mono fun e he => ?_
  rw [hes₀, hes₁, hes₂, hes₃]
  simp [he]

end DiagnosticsService

end LookingGlass
