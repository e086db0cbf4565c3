import LookingGlass.Diagnostics.ParserFailures

/-!
# What the parser of `mtr` makes of any output

This parser has a handler, and nearly all that goes wrong in a document is handled. What is not is a
text with half a surrogate pair, which `JsonDocument.Parse` answers with an `ArgumentException`. A
number of a document need not be finite either, and only those that are in a hop of the result
matter: the loss, and the times where the host is an address.

## Which exceptions there are

The handler names four types. The parser of documents raises one of them, the accessors two, and
reading a number the fourth; a cast never raises any, because a number that is out of range is cast
to the closest integer. So a document that can be parsed is either read or reported, whatever is in
it, and what is left is the parsing itself, of a text that is no valid UTF-16.

Numbers that are not finite are another matter. They are read without an exception and end up in the
response, where they cannot be written as JSON. A loss is always read, and the times of a hub are
read if its host is an address; nothing else of a hub matters.

## Main results

* `MtrParser.controlled_parse_iff` — for which texts the parser ends as it is meant to
-/

namespace LookingGlass

open Utf16

def MtrHopRaw.IsFinite (hop : MtrHopRaw) : Prop :=
  hop.lossPercent.isFinite = true ∧
    ∀ value ∈ [hop.lastMs, hop.avgMs, hop.bestMs, hop.worstMs, hop.stdDevMs].reduceOption,
      value.isFinite = true

def MtrRaw.IsFinite (raw : MtrRaw) : Prop := ∀ hop ∈ raw.hops, hop.IsFinite

namespace MtrParser

open JsonElement

/-- An element that can be asked for its number. -/
def IsNumeric (element : Json) : Prop := ∃ value, readNumber element = .ok value

/-- The number of the element, if it has one, is finite. -/
def HasFiniteNumber (element : Json) : Prop :=
  ∀ value, readNumber element = .ok (some value) → value.isFinite = true

/-- The host of a hub is the text of an address. -/
def responds (rt : Runtime) (hub : Json) : Bool :=
  match member "host" hub with
  | some (.string (some text)) => (rt.tryParseAddress text).isSome
  | _ => false

/-- The members with the times of a hub. -/
def timeNames (rt : Runtime) (hub : Json) : List Str :=
  if responds rt hub then ["Last", "Avg", "Best", "Wrst", "StDev"] else []

/-- A hub that can be read: it has a host, and what is asked for its number can be asked for it. A
number may be infinite here; that is another question. -/
structure IsHub (rt : Runtime) (hub : Json) : Prop where
  host : ∃ host, member "host" hub = some host ∧ host.IsText
  numbers : ∀ name ∈ ofString "Snt" :: ofString "count" :: ofString "Loss%" :: timeNames rt hub,
    ∃ value, member name hub = some value ∧ IsNumeric value

/-- A document with these hubs that can be read. Where it is none, the parser raises an exception
that is reported, whatever the numbers are. -/
structure IsReport (rt : Runtime) (root : Json) (hubs : List Json) : Prop where
  report : ∃ report, member "report" root = some report ∧
    member "hubs" report = some (.array hubs) ∧
    report.Offers "mtr" fun details => details.Offers "tests" fun tests =>
      ∃ value, readNumber tests = .ok (some value)
  hub : ∀ hub ∈ hubs, IsHub rt hub

/-- If the exit code is zero, no half of a surrogate pair is alone, and the losses and times of a
document that can be read are finite. -/
def Clean (rt : Runtime) (parseDocument : Str → Option Json) (result : ProcessResult) : Prop :=
  result.exitCode = 0 → Utf8.isWellFormed result.stdOut = true ∧
    ∀ root hubs, parseDocument result.stdOut = some root → IsReport rt root hubs →
      ∀ hub ∈ hubs, ∀ name ∈ ofString "Loss%" :: timeNames rt hub, ∀ value,
        member name hub = some value → HasFiniteNumber value

theorem failsOnly_readNumber {element : Json} :
    Except.FailsOnly IsReported (readNumber element) := by
  have hkind : IsReported .invalidOperation := by decide
  have hformat : IsReported .format := by decide
  cases element with
  | number token =>
    exact Except.failsOnly_bind.mpr ⟨failsOnly_getDouble hkind hformat,
      fun _ _ => Except.failsOnly_pure _⟩
  | string text =>
    exact Except.failsOnly_bind.mpr ⟨failsOnly_getString hkind, fun _ _ => Except.failsOnly_pure _⟩
  | null | bool _ | array _ | object _ => exact Except.failsOnly_ok _

theorem hasFiniteNumber_iff {element : Json} {x : Option Double} (h : readNumber element = .ok x) :
    HasFiniteNumber element ↔ ∀ value ∈ x, value.isFinite = true := by
  constructor
  · rintro hfinite value rfl
    exact hfinite value h
  · exact fun hx value hvalue => hx value (Except.ok.inj (h.symm.trans hvalue))

/-! One hub. -/

variable {rt : Runtime} {hub : Json}

theorem responds_eq {host : Json} {text : Option Str} (hhost : member "host" hub = some host)
    (htext : getString host = .ok text) :
    responds rt hub = (text.bind rt.tryParseAddress).isSome := by
  rw [responds, hhost]
  cases host with
  | null =>
    obtain rfl : none = text := by simpa [getString, access, Json.getString] using htext
    rfl
  | string s =>
    cases s with
    | none => exact absurd htext (by simp [getString, access, Json.getString])
    | some s =>
      obtain rfl : some s = text := by simpa [getString, access, Json.getString] using htext
      rfl
  | bool _ | number _ | array _ | object _ =>
    exact absurd htext (by simp [getString, access, Json.getString])

theorem readIf_true_eq_ok_iff {name : Str} {x : Option Double} :
    readIf true name hub = .ok x ↔
      ∃ value, member name hub = some value ∧ readNumber value = .ok x := by
  simp only [readIf, if_pos, Except.bind_eq_ok, getProperty_eq_ok_iff]

theorem readIf_false_eq_ok_iff {name : Str} {x : Option Double} :
    readIf false name hub = .ok x ↔ x = none := by
  simp [readIf, eq_comm]

/-- What is read of a hub, member by member. -/
theorem readHub_eq_ok_iff {index : ℕ} {hop : MtrHopRaw} :
    readHub rt index hub = .ok hop ↔
      ∃ host, member "host" hub = some host ∧ ∃ text, getString host = .ok text ∧
      ∃ snt, member "Snt" hub = some snt ∧ ∃ sent, readNumber snt = .ok sent ∧
      ∃ number, member "count" hub = some number ∧ ∃ count, readNumber number = .ok count ∧
      ∃ share, member "Loss%" hub = some share ∧ ∃ loss, readNumber share = .ok loss ∧
      ∃ last, readIf (responds rt hub) "Last" hub = .ok last ∧
      ∃ avg, readIf (responds rt hub) "Avg" hub = .ok avg ∧
      ∃ best, readIf (responds rt hub) "Best" hub = .ok best ∧
      ∃ worst, readIf (responds rt hub) "Wrst" hub = .ok worst ∧
      ∃ stdDev, readIf (responds rt hub) "StDev" hub = .ok stdDev ∧
      hop = ⟨toInt (count.getD (.finite (index + 1))), text.bind rt.tryParseAddress,
        loss.getD (.finite 100), toInt (sent.getD 0), last, avg, best, worst, stdDev⟩ := by
  simp only [readHub, Except.bind_eq_ok, getProperty_eq_ok_iff, pure, Except.pure,
    Except.ok.injEq, eq_comm (b := hop)]
  refine exists_congr fun host => and_congr_right fun hhost => exists_congr fun text =>
    and_congr_right fun htext => ?_
  rw [responds_eq hhost htext]

/-- The times of a hub are read if it has them as numbers, where it has to have them. -/
theorem exists_times_iff :
    ((∃ last, readIf (responds rt hub) "Last" hub = .ok last) ∧
      (∃ avg, readIf (responds rt hub) "Avg" hub = .ok avg) ∧
      (∃ best, readIf (responds rt hub) "Best" hub = .ok best) ∧
      (∃ worst, readIf (responds rt hub) "Wrst" hub = .ok worst) ∧
      ∃ stdDev, readIf (responds rt hub) "StDev" hub = .ok stdDev) ↔
        ∀ name ∈ timeNames rt hub, ∃ value, member name hub = some value ∧ IsNumeric value := by
  have hread : ∀ name, (∃ x, readIf true name hub = .ok x) ↔
      ∃ value, member name hub = some value ∧ IsNumeric value := by
    intro name
    simp only [readIf_true_eq_ok_iff, IsNumeric]
    exact ⟨fun ⟨x, value, hvalue, hx⟩ => ⟨value, hvalue, x, hx⟩,
      fun ⟨value, hvalue, x, hx⟩ => ⟨x, value, hvalue, hx⟩⟩
  rw [timeNames]
  cases responds rt hub with
  | true =>
    simp only [hread, if_pos, List.forall_mem_cons, List.not_mem_nil, false_imp_iff, implies_true,
      and_true]
  | false => simp [readIf]

theorem exists_readHub_iff {index : ℕ} :
    (∃ hop, readHub rt index hub = .ok hop) ↔ IsHub rt hub := by
  simp only [readHub_eq_ok_iff]
  constructor
  · rintro ⟨_, host, hhost, text, htext, snt, hsnt, sent, hsent, number, hnumber, count, hcount,
      share, hshare, loss, hloss, last, hlast, avg, havg, best, hbest, worst, hworst,
      stdDev, hstdDev, -⟩
    have htimes := exists_times_iff.mp
      ⟨⟨last, hlast⟩, ⟨avg, havg⟩, ⟨best, hbest⟩, ⟨worst, hworst⟩, stdDev, hstdDev⟩
    refine ⟨⟨host, hhost, exists_getString_eq_ok_iff.mp ⟨text, htext⟩⟩, ?_⟩
    rw [List.forall_mem_cons, List.forall_mem_cons, List.forall_mem_cons]
    exact ⟨⟨snt, hsnt, sent, hsent⟩, ⟨number, hnumber, count, hcount⟩, ⟨share, hshare, loss, hloss⟩,
      htimes⟩
  · rintro ⟨⟨host, hhost, htext⟩, hnumbers⟩
    rw [List.forall_mem_cons, List.forall_mem_cons, List.forall_mem_cons] at hnumbers
    obtain ⟨⟨snt, hsnt, sent, hsent⟩, ⟨number, hnumber, count, hcount⟩,
      ⟨share, hshare, loss, hloss⟩, htimes⟩ := hnumbers
    obtain ⟨text, htext⟩ := exists_getString_eq_ok_iff.mpr htext
    obtain ⟨⟨last, hlast⟩, ⟨avg, havg⟩, ⟨best, hbest⟩, ⟨worst, hworst⟩, stdDev, hstdDev⟩ :=
      exists_times_iff.mpr htimes
    exact ⟨_, host, hhost, text, htext, snt, hsnt, sent, hsent, number, hnumber, count, hcount,
      share, hshare, loss, hloss, last, hlast, avg, havg, best, hbest, worst, hworst,
      stdDev, hstdDev, rfl⟩

theorem isFinite_of_readIf {name : Str} {x : Option Double}
    (h : readIf (responds rt hub) name hub = .ok x) :
    (∀ value ∈ x, value.isFinite = true) ↔ responds rt hub = true → ∀ value,
      member name hub = some value → HasFiniteNumber value := by
  cases hresponds : responds rt hub with
  | false =>
    rw [hresponds, readIf_false_eq_ok_iff] at h
    simp [h]
  | true =>
    rw [hresponds, readIf_true_eq_ok_iff] at h
    obtain ⟨value, hvalue, hx⟩ := h
    simp only [hvalue, Option.some.injEq, forall_eq', hasFiniteNumber_iff hx, forall_const]

theorem isFinite_of_readHub {index : ℕ} {hop : MtrHopRaw} (h : readHub rt index hub = .ok hop) :
    hop.IsFinite ↔ ∀ name ∈ ofString "Loss%" :: timeNames rt hub, ∀ value,
      member name hub = some value → HasFiniteNumber value := by
  obtain ⟨_, -, _, -, _, -, _, -, _, -, _, -, share, hshare, loss, hloss, last, hlast, avg, havg,
    best, hbest, worst, hworst, stdDev, hstdDev, rfl⟩ := readHub_eq_ok_iff.mp h
  have hshareFinite : (∀ value, member "Loss%" hub = some value → HasFiniteNumber value) ↔
      (loss.getD (.finite 100)).isFinite = true := by
    simp only [hshare, Option.some.injEq, forall_eq', hasFiniteNumber_iff hloss]
    cases loss <;> simp [Double.isFinite]
  have hnames : (∀ name ∈ timeNames rt hub, ∀ value, member name hub = some value →
      HasFiniteNumber value) ↔ ∀ name ∈ (["Last", "Avg", "Best", "Wrst", "StDev"] : List Str),
        responds rt hub = true → ∀ value, member name hub = some value → HasFiniteNumber value := by
    rw [timeNames]
    cases responds rt hub <;> simp
  rw [List.forall_mem_cons, hshareFinite, hnames, MtrHopRaw.IsFinite, forall_mem_reduceOption]
  simp only [List.forall_mem_cons, isFinite_of_readIf hlast, isFinite_of_readIf havg,
    isFinite_of_readIf hbest, isFinite_of_readIf hworst, isFinite_of_readIf hstdDev,
    List.not_mem_nil, false_imp_iff, implies_true]

/-! The document. -/

theorem exists_readCycles_iff {report : Json} :
    (∃ cycles, readCycles report = .ok cycles) ↔
      report.Offers "mtr" fun details => details.Offers "tests" fun tests =>
        ∃ value, readNumber tests = .ok (some value) := by
  rw [readCycles, Except.exists_bind_eq_ok_iff]
  constructor
  · rintro ⟨found, hmtr, hcycles⟩
    refine ⟨found, access_eq_ok_iff.mp hmtr, ?_⟩
    rintro details rfl
    obtain ⟨found, htests, hcycles⟩ := Except.exists_bind_eq_ok_iff.mp hcycles
    refine ⟨found, access_eq_ok_iff.mp htests, ?_⟩
    rintro tests rfl
    obtain ⟨x, hx, hrequired⟩ := Except.exists_bind_eq_ok_iff.mp hcycles
    obtain ⟨value, hvalue, -⟩ := Except.exists_bind_eq_ok_iff.mp hrequired
    exact ⟨value, access_eq_ok_iff.mp hvalue ▸ hx⟩
  · rintro ⟨found, hmtr, hdetails⟩
    refine ⟨found, access_eq_ok_iff.mpr hmtr, ?_⟩
    cases found with
    | none => exact ⟨0, rfl⟩
    | some details =>
      obtain ⟨found, htests, hnumber⟩ := hdetails details rfl
      refine Except.exists_bind_eq_ok_iff.mpr ⟨found, access_eq_ok_iff.mpr htests, ?_⟩
      cases found with
      | none => exact ⟨0, rfl⟩
      | some tests =>
        obtain ⟨value, hvalue⟩ := hnumber tests rfl
        exact Except.exists_bind_eq_ok_iff.mpr ⟨some value, hvalue, toInt value, rfl⟩

theorem failsOnly_access {α : Type} {x : Option α} : Except.FailsOnly IsReported (access x) := by
  cases x with
  | none => exact Except.failsOnly_error.mpr (by decide)
  | some a => exact Except.failsOnly_ok a

theorem failsOnly_column {name : Str} {hub : Json} :
    Except.FailsOnly IsReported (do readNumber (← getProperty name hub)) :=
  Except.failsOnly_bind.mpr ⟨failsOnly_getProperty (by decide) (by decide),
    fun _ _ => failsOnly_readNumber⟩

theorem failsOnly_readHub {index : ℕ} : Except.FailsOnly IsReported (readHub rt index hub) := by
  have hif : ∀ responded name, Except.FailsOnly IsReported (readIf responded name hub) := by
    intro responded name
    cases responded with
    | true => exact failsOnly_column
    | false => exact Except.failsOnly_ok none
  have hproperty : ∀ name, Except.FailsOnly IsReported (getProperty name hub) :=
    fun name => failsOnly_getProperty (by decide) (by decide)
  have hstring : ∀ element, Except.FailsOnly IsReported (getString element) :=
    fun element => failsOnly_getString (by decide)
  simp only [readHub, Except.failsOnly_bind, hif, hproperty, hstring, failsOnly_readNumber,
    Except.failsOnly_pure, implies_true, and_true]

theorem failsOnly_readCycles {report : Json} :
    Except.FailsOnly IsReported (readCycles report) := by
  refine Except.failsOnly_bind.mpr ⟨failsOnly_access, fun found _ => ?_⟩
  cases found with
  | none => exact Except.failsOnly_pure _
  | some details =>
    refine Except.failsOnly_bind.mpr ⟨failsOnly_access, fun found _ => ?_⟩
    cases found with
    | none => exact Except.failsOnly_pure _
    | some tests =>
      refine Except.failsOnly_bind.mpr ⟨failsOnly_readNumber, fun x _ => ?_⟩
      exact Except.failsOnly_bind.mpr ⟨failsOnly_access, fun _ _ => Except.failsOnly_pure _⟩

variable {parseDocument : Str → Option Json} {json : Str}

theorem failsOnly_read (h : Utf8.isWellFormed json = true) :
    Except.FailsOnly IsReported (read rt parseDocument json) := by
  refine Except.failsOnly_bind.mpr ⟨?_, fun root _ => ?_⟩
  · rw [parseText, if_pos h]
    cases parseDocument json with
    | none => exact Except.failsOnly_error.mpr (by decide)
    | some root => exact Except.failsOnly_ok root
  refine Except.failsOnly_bind.mpr
    ⟨failsOnly_getProperty (by decide) (by decide), fun report _ => ?_⟩
  refine Except.failsOnly_bind.mpr ⟨failsOnly_readCycles, fun cycles _ => ?_⟩
  refine Except.failsOnly_bind.mpr ⟨failsOnly_getProperty (by decide) (by decide), fun list _ => ?_⟩
  refine Except.failsOnly_bind.mpr ⟨failsOnly_enumerateArray (by decide), fun hubs _ => ?_⟩
  exact Except.failsOnly_bind.mpr ⟨Except.failsOnly_mapM.mpr fun _ _ _ _ _ => failsOnly_readHub,
    fun _ _ => Except.failsOnly_pure _⟩

/-- What is read of a document. -/
theorem read_eq_ok_iff (h : Utf8.isWellFormed json = true) {raw : MtrRaw} :
    read rt parseDocument json = .ok raw ↔
      ∃ root, parseDocument json = some root ∧ ∃ report, member "report" root = some report ∧
      ∃ cycles, readCycles report = .ok cycles ∧
      ∃ hubs, member "hubs" report = some (.array hubs) ∧
      ∃ hops, hubs.zipIdx.mapM (fun x => readHub rt x.2 x.1) = .ok hops ∧
        raw = ⟨if cycles > 0 then cycles else (hops.map (·.sent)).max?.getD 0, hops⟩ := by
  have hroot : ∀ root, parseText parseDocument json = .ok root ↔
    parseDocument json = some root := by
    intro root
    rw [parseText, if_pos h]
    cases parseDocument json <;> simp
  simp only [read, Except.bind_eq_ok, hroot, getProperty_eq_ok_iff, enumerateArray_eq_ok_iff, pure,
    Except.pure, Except.ok.injEq, eq_comm (b := raw)]
  refine exists_congr fun root => and_congr_right fun _ => exists_congr fun report =>
    and_congr_right fun _ => exists_congr fun cycles => and_congr_right fun _ => ?_
  constructor
  · rintro ⟨_, hhubs, hubs, rfl, hrest⟩
    exact ⟨hubs, hhubs, hrest⟩
  · rintro ⟨hubs, hhubs, hrest⟩
    exact ⟨_, hhubs, hubs, rfl, hrest⟩

/-- Hub by hub, with the indices counted from any number on. -/
theorem forall_of_readHubs {start : ℕ} {hubs : List Json} {hops : List MtrHopRaw}
    (h : List.Forall₂ (fun x hop => readHub rt x.2 x.1 = .ok hop) (hubs.zipIdx start) hops) :
    (∀ hub ∈ hubs, IsHub rt hub) ∧ ((∀ hop ∈ hops, hop.IsFinite) ↔
      ∀ hub ∈ hubs, ∀ name ∈ ofString "Loss%" :: timeNames rt hub, ∀ value,
        member name hub = some value → HasFiniteNumber value) := by
  induction hubs generalizing start hops with
  | nil =>
    rw [List.zipIdx_nil, List.forall₂_nil_left_iff] at h
    simp [h]
  | cons hub hubs ih =>
    rw [List.zipIdx_cons, List.forall₂_cons_left_iff] at h
    obtain ⟨hop, hops, hfirst, hrest, rfl⟩ := h
    obtain ⟨hhubs, hfinite⟩ := ih hrest
    refine ⟨List.forall_mem_cons.mpr ⟨exists_readHub_iff.mp ⟨hop, hfirst⟩, hhubs⟩, ?_⟩
    rw [List.forall_mem_cons, List.forall_mem_cons, isFinite_of_readHub hfirst, hfinite]

/-- The document that is read is a report, and what is read of it is finite if its numbers are. -/
theorem isFinite_of_read (h : Utf8.isWellFormed json = true) {raw : MtrRaw}
    (hread : read rt parseDocument json = .ok raw) :
    ∃ root hubs, parseDocument json = some root ∧ IsReport rt root hubs ∧
      (raw.IsFinite ↔ ∀ hub ∈ hubs, ∀ name ∈ ofString "Loss%" :: timeNames rt hub, ∀ value,
        member name hub = some value → HasFiniteNumber value) := by
  obtain ⟨root, hroot, report, hreport, cycles, hcycles, hubs, hhubs, hops, hhops, rfl⟩ :=
    (read_eq_ok_iff h).mp hread
  obtain ⟨hhub, hfinite⟩ := forall_of_readHubs (forall₂_of_mapM_eq_ok hhops)
  exact ⟨root, hubs, hroot,
    ⟨⟨report, hreport, hhubs, exists_readCycles_iff.mp ⟨cycles, hcycles⟩⟩, hhub⟩, hfinite⟩

/-- A report is read. -/
theorem exists_read_of_isReport (h : Utf8.isWellFormed json = true) {root : Json} {hubs : List Json}
    (hroot : parseDocument json = some root) (hreport : IsReport rt root hubs) :
    ∃ raw, read rt parseDocument json = .ok raw := by
  obtain ⟨report, hmember, hhubs, htests⟩ := hreport.report
  obtain ⟨cycles, hcycles⟩ := exists_readCycles_iff.mpr htests
  have hall : ∀ x ∈ hubs.zipIdx, ∃ hop, readHub rt x.2 x.1 = .ok hop :=
    fun x hx => exists_readHub_iff.mpr (hreport.hub x.1 (List.fst_mem_of_mem_zipIdx hx))
  obtain ⟨hops, hhops⟩ := Except.exists_mapM_eq_ok_iff.mpr hall
  exact ⟨_, (read_eq_ok_iff h).mpr
    ⟨root, hroot, report, hmember, cycles, hcycles, hubs, hhubs, hops,
    hhops, rfl⟩⟩

/-- The document with the hubs is the only one. -/
theorem hubs_unique {root : Json} {hubs hubs' : List Json} (h : IsReport rt root hubs)
    (h' : IsReport rt root hubs') : hubs = hubs' := by
  obtain ⟨report, hreport, hhubs, -⟩ := h.report
  obtain ⟨report', hreport', hhubs', -⟩ := h'.report
  obtain rfl := Option.some.inj (hreport.symm.trans hreport')
  exact Json.array.inj (Option.some.inj (hhubs.symm.trans hhubs'))

theorem controlled_parse_iff :
    Controlled MtrRaw.IsFinite (parse rt parseDocument json) ↔
      Utf8.isWellFormed json = true ∧
        ∀ root hubs, parseDocument json = some root → IsReport rt root hubs →
          ∀ hub ∈ hubs, ∀ name ∈ ofString "Loss%" :: timeNames rt hub, ∀ value,
            member name hub = some value → HasFiniteNumber value := by
  by_cases hwf : Utf8.isWellFormed json = true
  · rw [and_iff_right hwf]
    cases hread : read rt parseDocument json with
    | ok raw =>
      have hparse : parse rt parseDocument json = .ok raw := by rw [parse, hread]; rfl
      obtain ⟨root, hubs, hroot, hreport, hfinite⟩ := isFinite_of_read hwf hread
      rw [hparse, controlled_ok_iff, hfinite]
      constructor
      · intro hall root' hubs' hroot' hreport'
        obtain rfl := Option.some.inj (hroot.symm.trans hroot')
        exact hubs_unique hreport hreport' ▸ hall
      · exact fun hall => hall root hubs hroot hreport
    | error e =>
      have hparse : parse rt parseDocument json = .error (LookingGlassException.failed
          "The diagnostic returned output that could not be understood.") := by
        rw [parse, hread]
        exact if_pos (failsOnly_read hwf e hread)
      rw [hparse]
      refine iff_of_true controlled_error fun root hubs hroot hreport => ?_
      obtain ⟨raw, hraw⟩ := exists_read_of_isReport hwf hroot hreport
      exact absurd (hread.symm.trans hraw) (by simp)
  · have hparse : parse rt parseDocument json = .error .other := by
      rw [parse, read, parseText, if_neg hwf]
      rfl
    rw [hparse]
    exact iff_of_false (not_controlled_error (by simp)) fun h => hwf h.1

end MtrParser

end LookingGlass
