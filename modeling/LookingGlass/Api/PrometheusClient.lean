import LookingGlass.Api.DiagnosticsClient
import LookingGlass.Api.TrafficService
import LookingGlass.Contracts.JsonElement
import LookingGlass.Foundations.Utf8

/-!
# The client of Prometheus

`queryRangeAsync` asks for the values of a query over a range of time and turns the answer into
series. Whatever goes wrong is meant to be reported as `service_unavailable`, and five types of
exceptions are. Reading the document throws others as well: a pair of a time and a value that has no
second element, a label that is there twice, and a time that no `DateTimeOffset` can hold. They only
come up if nothing that is reported comes up before, so the order in which the document is read
matters.

The body is read together with the headers, so one that breaks off is a `HttpRequestException`.

## Conditions by the order of reading

A document that violates two rules is reported or not according to which violation is found first.
So a condition for the document as a whole cannot be a list of rules. It is put together in the
order of reading: the results up to the first one that is no series have to be in order, in it the
labels up to the first one that is no label, then the pairs up to the first one that is no point.
What comes after an exception is never looked at, and nothing is asked of it.

The rules for loops in `Foundations.Failures` have this shape, and each condition below is what they
make of one loop.

## Main results

* `PrometheusClient.failsOnly_parse_iff` — for which documents the reading throws what is reported
* `PrometheusClient.controlled_iff` — for which replies the client ends as it is meant to
-/

namespace LookingGlass

open Utf16 JsonElement

namespace PrometheusClient

/-! ### The request

The query is escaped byte by byte, in the encoding of its characters. Times and steps are integers.
-/

/-- A character of a URI that stands for itself. -/
def isUnreserved (b : UInt8) : Bool :=
  let c := b.toUInt16
  isAlnum c || c == ofChar '-' || c == ofChar '.' || c == ofChar '_' || c == ofChar '~'

/-- `Uri.EscapeDataString` -/
def escapeDataString (s : Str) : Str :=
  (Utf8.encode s).flatMap fun b =>
    if isUnreserved b then [b.toUInt16] else ofChar '%' :: TrafficService.toHexString [b]

/-- Times are counted from the year 1, Unix seconds from 1970. -/
def toUnixTimeSeconds (time : DateTimeOffset) : ℤ := time / 10000000 - 62135596800

def requestUri (query : Str) (start stop : DateTimeOffset) (stepSeconds : ℤ) : Str :=
  concat ["api/v1/query_range?query=", escapeDataString query,
    "&start=", Double.decimalInt (toUnixTimeSeconds start),
    "&end=", Double.decimalInt (toUnixTimeSeconds stop),
    "&step=", Double.decimalInt stepSeconds]

/-- `GetAsync`, which reads the body as well. -/
def getAsync : Reply → Except Exn HttpResponse
  | .failed => .error .httpRequest
  | .timedOut => .error .operationCanceled
  | .response response =>
    if response.content.isComplete then .ok response else .error .httpRequest

/-! ### The document

The accessors insist on the kind of an element. Their exceptions are among those that are reported;
three others are not. -/

def fromUnixTimeMilliseconds (milliseconds : ℤ) : Except Exn DateTimeOffset :=
  if -62135596800000 ≤ milliseconds ∧ milliseconds ≤ 253402300799999 then
    .ok ((milliseconds + 62135596800000) * 10000)
  -- an `ArgumentOutOfRangeException`
  else .error .other

/-- The seconds of a pair in milliseconds, as a `long`. -/
def toMilliseconds (seconds : Double) : ℤ := (seconds.mulNat 1000).truncate (-2 ^ 63) (2 ^ 63 - 1)

def pointOf (pair : Json) : Except Exn TrafficPoint := do
  let seconds ← getDouble (← item 0 pair)
  let time ← fromUnixTimeMilliseconds (toMilliseconds seconds)
  let text ← getString (← item 1 pair)
  return ⟨time, (text.bind (Numerals.tryParse false)).filter Double.isFinite⟩

/-- One step of `ToDictionary`. -/
def addLabel (labels : List (Str × Str)) (property : JsonName × Json) :
    Except Exn (List (Str × Str)) := do
  let key ← name property.1
  let value ← getString property.2
  -- an `ArgumentException`
  if (labels.lookup key).isSome then throw .other
  return labels ++ [(key, value.getD [])]

def seriesOf (result : Json) : Except Exn PromSeries := do
  let labels ← (← enumerateObject (← getProperty "metric" result)).foldlM addLabel []
  let points ← (← enumerateArray (← getProperty "values" result)).mapM pointOf
  return ⟨labels, points⟩

def parse (root : Json) : Except Exn (List PromSeries) := do
  let status ← getString (← getProperty "status" root)
  if status ≠ some (ofString "success") then throw .invalidOperation
  (← enumerateArray (← getProperty "result" (← getProperty "data" root))).mapM seriesOf

/-! ### The query

The exceptions that are reported are those of one filter, and it is off when the caller has
cancelled. -/

def unavailable : Exn :=
  .lookingGlass (LookingGlassException.unavailable "Traffic data is currently unavailable.")

/-- The exceptions that are reported as `service_unavailable`. -/
def IsReported (ex : Exn) : Prop :=
  ex = .httpRequest ∨ ex = .operationCanceled ∨ ex = .json ∨ ex = .invalidOperation ∨
    ex = .keyNotFound

instance (ex : Exn) : Decidable (IsReported ex) :=
  inferInstanceAs (Decidable (_ ∨ _ ∨ _ ∨ _ ∨ _))

/-- What the request comes to, before exceptions are reported. `parseDocument` reads JSON, with
`none` for a `JsonException`. -/
def request (parseDocument : List UInt8 → Option Json) (reply : Reply) :
    Except Exn (List PromSeries) := do
  let response ← getAsync reply
  if !response.isSuccessStatusCode then throw unavailable
  match parseDocument response.content.bytes with
  | none => throw .json
  | some root => parse root

/-- The server answers a URI. -/
def queryRangeAsync (parseDocument : List UInt8 → Option Json) (isCancellationRequested : Bool)
    (server : Str → Reply) (query : Str) (start stop : DateTimeOffset) (stepSeconds : ℤ) :
    Except Exn (List PromSeries) :=
  tryCatch (request parseDocument (server (requestUri query start stop stepSeconds))) fun ex =>
    if IsReported ex ∧ !isCancellationRequested then throw unavailable else throw ex

/-! ### Points

A pair of a time and a text. The value may be absent, if the text is not a finite number, but the
pair may not be short. -/

/-- A number of seconds that a `DateTimeOffset` can hold. -/
def IsTime (token : Str) : Prop :=
  ∃ seconds, Numerals.readNumeral false token = some seconds ∧
    -62135596800000 ≤ toMilliseconds seconds ∧ toMilliseconds seconds ≤ 253402300799999

/-- A time and a text, and whatever comes after these. -/
def IsPoint (pair : Json) : Prop :=
  ∃ token text rest, pair = .array (.number token :: text :: rest) ∧ IsTime token ∧ text.IsText

/-- A pair that is an array has a first element, and if that is a number, it is a time and there is
a second element. Everything else about a pair ends in an exception that is reported; these are the
ways out of it. -/
def PairInOrder (pair : Json) : Prop :=
  ∀ items, pair = .array items → items ≠ [] ∧
    ∀ token rest, items = .number token :: rest → IsTime token ∧ rest ≠ []

theorem fromUnixTimeMilliseconds_of_isTime {token : Str} (h : IsTime token) :
    ∃ seconds time, getDouble (.number token) = .ok seconds ∧
      fromUnixTimeMilliseconds (toMilliseconds seconds) = .ok time := by
  obtain ⟨seconds, hread, hrange⟩ := h
  refine ⟨seconds, _, ?_, if_pos hrange⟩
  rw [getDouble, Json.getDouble, hread]
  rfl

/-- A number that is no time is an exception that is not reported. -/
theorem not_failsOnly_of_not_isTime {token : Str} (h : ¬ IsTime token)
    {f : DateTimeOffset → Except Exn TrafficPoint} :
    ¬ Except.FailsOnly IsReported (do
      let seconds ← getDouble (.number token)
      let time ← fromUnixTimeMilliseconds (toMilliseconds seconds)
      f time) := by
  rw [getDouble, Json.getDouble]
  cases hread : Numerals.readNumeral false token with
  | none =>
    intro hfails
    exact absurd (hfails .format rfl) (by decide)
  | some seconds =>
    have hrange : fromUnixTimeMilliseconds (toMilliseconds seconds) = .error .other :=
      if_neg fun hrange => h ⟨seconds, hread, hrange⟩
    intro hfails
    refine absurd (hfails .other ?_) (by decide)
    show (fromUnixTimeMilliseconds (toMilliseconds seconds) >>= _) = _
    rw [hrange]
    rfl

theorem pointOf_cons {token : Str} {rest : List Json} (h : IsTime token) :
    ∃ time, pointOf (.array (.number token :: rest)) = (do
      let text ← getString (← item 1 (.array (.number token :: rest)))
      return ⟨time, (text.bind (Numerals.tryParse false)).filter Double.isFinite⟩) := by
  obtain ⟨seconds, time, hseconds, htime⟩ := fromUnixTimeMilliseconds_of_isTime h
  refine ⟨time, ?_⟩
  show (getDouble (.number token) >>= _) = _
  rw [hseconds]
  show (fromUnixTimeMilliseconds _ >>= _) = _
  rw [htime]
  rfl

theorem failsOnly_pointOf_iff {pair : Json} :
    Except.FailsOnly IsReported (pointOf pair) ↔ PairInOrder pair := by
  have hkind : IsReported .invalidOperation := by decide
  cases pair with
  | array items =>
    cases items with
    | nil =>
      refine iff_of_false ?_ fun h => (h [] rfl).1 rfl
      intro hfails
      exact absurd (hfails .other rfl) (by decide)
    | cons first rest =>
      cases first with
      | number token =>
        by_cases htime : IsTime token
        · obtain ⟨time, hpoint⟩ := @pointOf_cons token rest htime
          rw [hpoint]
          cases rest with
          | nil =>
            refine iff_of_false ?_ fun h => ((h _ rfl).2 token [] rfl).2 rfl
            intro hfails
            exact absurd (hfails .other rfl) (by decide)
          | cons text rest =>
            refine iff_of_true ?_ ?_
            · show Except.FailsOnly _ (getString text >>= _)
              exact Except.failsOnly_bind.mpr ⟨failsOnly_getString hkind, fun _ _ => by simp⟩
            · rintro items ⟨rfl⟩
              refine ⟨by simp, ?_⟩
              rintro token' rest' ⟨rfl, rfl⟩
              exact ⟨htime, by simp⟩
        · exact iff_of_false (not_failsOnly_of_not_isTime htime) fun h =>
            htime ((h _ rfl).2 token rest rfl).1
      | null | bool _ | string _ | array _ | object _ =>
        exact iff_of_true (Except.failsOnly_error.mpr hkind) (by rintro items ⟨rfl⟩; simp)
  | null | bool _ | string _ | number _ | object _ =>
    exact iff_of_true (Except.failsOnly_error.mpr hkind) (by rintro items ⟨⟩)

theorem exists_pointOf_iff {pair : Json} : (∃ point, pointOf pair = .ok point) ↔ IsPoint pair := by
  constructor
  · rintro ⟨point, h⟩
    simp only [pointOf, Except.bind_eq_ok, item_eq_ok_iff, getDouble_eq_ok_iff] at h
    obtain ⟨_, ⟨items, rfl, hfirst⟩, seconds, ⟨token, rfl, hread⟩, time, htime, _, ⟨items', hitems,
      hsecond⟩, text, htext, -⟩ := h
    obtain rfl := Json.array.inj hitems
    match items, hfirst, hsecond with
    | _ :: _ :: rest, rfl, rfl =>
      refine ⟨token, _, rest, rfl, ⟨seconds, hread, ?_⟩,
        exists_getString_eq_ok_iff.mp ⟨text, htext⟩⟩
      by_contra hrange
      exact absurd htime (by rw [fromUnixTimeMilliseconds, if_neg hrange]; simp)
  · rintro ⟨token, text, rest, rfl, htime, htext⟩
    obtain ⟨time, hpoint⟩ := @pointOf_cons token (text :: rest) htime
    obtain ⟨value, hvalue⟩ := exists_getString_eq_ok_iff.mpr htext
    refine ⟨⟨time, (value.bind (Numerals.tryParse false)).filter Double.isFinite⟩, ?_⟩
    rw [hpoint]
    show (getString text >>= _) = _
    rw [hvalue]
    rfl

/-- What a point has for a value is finite. -/
theorem isFinite_of_pointOf {pair : Json} {point : TrafficPoint} (h : pointOf pair = .ok point) :
    ∀ value ∈ point.bitsPerSecond, value.isFinite = true := by
  simp only [pointOf, Except.bind_eq_ok] at h
  obtain ⟨_, -, _, -, _, -, _, -, text, -, h⟩ := h
  obtain rfl := Except.ok.inj h
  intro value hvalue
  exact (Option.mem_filter_iff.mp hvalue).2

/-! ### Labels

A label that is there twice raises an exception that is not reported, unless something before it
raises one that is. -/

/-- A name and a text, both of which can be read. -/
def IsLabel (property : JsonName × Json) : Prop :=
  (∃ key, property.1 = .text key) ∧ property.2.IsText

/-- Labels, none of which is there twice. -/
def AreLabels (members : List (JsonName × Json)) : Prop :=
  (∀ property ∈ members, IsLabel property) ∧ members.Pairwise fun p q => p.1 ≠ q.1

/-- Where the members before a label are labels, none of them has its name. A name that comes twice
raises an exception that is not reported, but only if the reading gets that far. -/
def LabelsInOrder (members : List (JsonName × Json)) : Prop :=
  ∀ before key value after, members = before ++ (.text key, value) :: after → AreLabels before →
    value.IsText → ∀ property ∈ before, property.1 ≠ .text key

theorem addLabel_eq_ok_iff {labels labels' : List (Str × Str)} {property : JsonName × Json} :
    addLabel labels property = .ok labels' ↔ ∃ key value, property.1 = .text key ∧
      getString property.2 = .ok value ∧ labels.lookup key = none ∧
        labels' = labels ++ [(key, value.getD [])] := by
  simp only [addLabel, Except.bind_eq_ok, name_eq_ok_iff, exists_and_left]
  refine exists_congr fun key => and_congr_right fun _ => exists_congr fun value =>
    and_congr_right fun _ => ?_
  cases hlookup : labels.lookup key with
  | some v => exact iff_of_false (fun h => nomatch h) (by simp)
  | none => exact ⟨fun h => ⟨rfl, (Except.ok.inj h).symm⟩, fun h => congrArg Except.ok h.2.symm⟩

theorem failsOnly_addLabel_iff {labels : List (Str × Str)} {property : JsonName × Json} :
    Except.FailsOnly IsReported (addLabel labels property) ↔
      ∀ key, property.1 = .text key → property.2.IsText → labels.lookup key = none := by
  have hkind : IsReported .invalidOperation := by decide
  simp only [addLabel, Except.failsOnly_bind, name_eq_ok_iff]
  constructor
  · rintro ⟨-, h⟩ key hkey htext
    obtain ⟨value, hvalue⟩ := exists_getString_eq_ok_iff.mpr htext
    have hfails := (h key hkey).2 value hvalue
    cases hlookup : labels.lookup key with
    | none => rfl
    | some v =>
      rw [hlookup] at hfails
      exact absurd (hfails .other rfl) (by decide)
  · refine fun h => ⟨failsOnly_name hkind, fun key hkey => ⟨failsOnly_getString hkind, ?_⟩⟩
    intro value hvalue
    rw [h key hkey (exists_getString_eq_ok_iff.mp ⟨value, hvalue⟩)]
    exact Except.failsOnly_ok _

/-- The labels that a run of members leads to have the names of these. -/
theorem lookup_of_foldlM_addLabel {members : List (JsonName × Json)} {labels : List (Str × Str)}
    (h : members.foldlM addLabel [] = .ok labels) (key : Str) :
    labels.lookup key = none ↔ ∀ property ∈ members, property.1 ≠ .text key := by
  induction members using List.reverseRecOn generalizing labels with
  | nil =>
    obtain rfl := Except.ok.inj h
    exact iff_of_true rfl (by simp)
  | append_singleton members property ih =>
    rw [List.foldlM_append, Except.bind_eq_ok] at h
    obtain ⟨labels', hmembers, hlast⟩ := h
    rw [List.foldlM_cons, Except.bind_eq_ok] at hlast
    obtain ⟨labels'', hadd, hnil⟩ := hlast
    obtain rfl := Except.ok.inj hnil
    obtain ⟨other, value, hother, -, -, rfl⟩ := addLabel_eq_ok_iff.mp hadd
    rw [List.lookup_append, Option.or_eq_none_iff, ih hmembers, List.forall_mem_append,
      List.forall_mem_singleton, hother]
    refine and_congr_right fun _ => ?_
    by_cases hkey : key = other
    · simp [hkey]
    · simp [List.lookup_cons, beq_eq_false_iff_ne.mpr hkey, Ne.symm hkey]

theorem exists_foldlM_addLabel_iff {members : List (JsonName × Json)} :
    (∃ labels, members.foldlM addLabel [] = .ok labels) ↔ AreLabels members := by
  induction members using List.reverseRecOn with
  | nil => exact iff_of_true ⟨[], rfl⟩ ⟨by simp, .nil⟩
  | append_singleton members property ih =>
    have hlast : AreLabels (members ++ [property]) ↔ AreLabels members ∧ IsLabel property ∧
        ∀ p ∈ members, p.1 ≠ property.1 := by
      simp only [AreLabels, List.forall_mem_append, List.forall_mem_singleton,
        List.pairwise_append, List.pairwise_singleton]
      tauto
    rw [hlast, ← ih]
    simp only [List.foldlM_append, List.foldlM_cons, List.foldlM_nil, bind_pure,
      Except.bind_eq_ok, addLabel_eq_ok_iff]
    constructor
    · rintro ⟨labels, labels', hmembers, key, value, hkey, hvalue, hlookup, -⟩
      refine ⟨⟨labels', hmembers⟩, ⟨⟨key, hkey⟩, exists_getString_eq_ok_iff.mp ⟨value, hvalue⟩⟩, ?_⟩
      rw [hkey]
      exact (lookup_of_foldlM_addLabel hmembers key).mp hlookup
    · rintro ⟨⟨labels', hmembers⟩, ⟨⟨key, hkey⟩, htext⟩, hnew⟩
      obtain ⟨value, hvalue⟩ := exists_getString_eq_ok_iff.mpr htext
      rw [hkey] at hnew
      exact ⟨_, labels', hmembers, key, value, hkey, hvalue,
        (lookup_of_foldlM_addLabel hmembers key).mpr hnew, rfl⟩

theorem failsOnly_foldlM_addLabel_iff {members : List (JsonName × Json)} :
    Except.FailsOnly IsReported (members.foldlM addLabel []) ↔ LabelsInOrder members := by
  rw [Except.failsOnly_foldlM]
  constructor
  · rintro h before key value after rfl hbefore htext
    obtain ⟨labels, hlabels⟩ := exists_foldlM_addLabel_iff.mpr hbefore
    have hlookup := failsOnly_addLabel_iff.mp (h before _ after rfl labels hlabels) key rfl htext
    exact (lookup_of_foldlM_addLabel hlabels key).mp hlookup
  · rintro h before ⟨other, value⟩ after rfl labels hlabels
    refine failsOnly_addLabel_iff.mpr fun key hkey htext => ?_
    obtain rfl : other = .text key := hkey
    exact (lookup_of_foldlM_addLabel hlabels key).mpr
      (h before key value after rfl (exists_foldlM_addLabel_iff.mp ⟨labels, hlabels⟩) htext)

/-! ### Series

The labels are read before the values, so the values matter only if the labels can be read. -/

/-- Labels and points. -/
def IsSeries (result : Json) : Prop :=
  (∃ members, member "metric" result = some (.object members) ∧ AreLabels members) ∧
    ∃ pairs, member "values" result = some (.array pairs) ∧ ∀ pair ∈ pairs, IsPoint pair

/-- The labels are in order, and if they are labels, the first pair that is no point is. What comes
after that pair is never looked at. -/
def SeriesInOrder (result : Json) : Prop :=
  ∀ members, member "metric" result = some (.object members) →
    LabelsInOrder members ∧ (AreLabels members →
      ∀ pairs, member "values" result = some (.array pairs) →
        ∀ before pair after, pairs = before ++ pair :: after → (∀ p ∈ before, IsPoint p) →
          PairInOrder pair)

theorem exists_seriesOf_iff {result : Json} :
    (∃ series, seriesOf result = .ok series) ↔ IsSeries result := by
  simp only [seriesOf, Except.bind_eq_ok, getProperty_eq_ok_iff, enumerateObject_eq_ok_iff,
    enumerateArray_eq_ok_iff]
  constructor
  · rintro ⟨_, _, hmetric, members, rfl, labels, hlabels, _, hvalues, pairs, rfl, points, hpoints,
      -⟩
    refine ⟨⟨members, hmetric, exists_foldlM_addLabel_iff.mp ⟨labels, hlabels⟩⟩,
      pairs, hvalues, fun pair hpair => ?_⟩
    exact exists_pointOf_iff.mp (Except.exists_mapM_eq_ok_iff.mp ⟨points, hpoints⟩ pair hpair)
  · rintro ⟨⟨members, hmetric, hlabels⟩, pairs, hvalues, hpairs⟩
    obtain ⟨labels, hlabels⟩ := exists_foldlM_addLabel_iff.mpr hlabels
    obtain ⟨points, hpoints⟩ := Except.exists_mapM_eq_ok_iff.mpr fun pair hpair =>
      exists_pointOf_iff.mpr (hpairs pair hpair)
    exact ⟨⟨labels, points⟩, _, hmetric, members, rfl, labels, hlabels, _, hvalues, pairs, rfl,
      points, hpoints, rfl⟩

theorem failsOnly_seriesOf_iff {result : Json} :
    Except.FailsOnly IsReported (seriesOf result) ↔ SeriesInOrder result := by
  have hkind : IsReported .invalidOperation := by decide
  have hkey : IsReported .keyNotFound := by decide
  simp only [seriesOf, Except.failsOnly_bind, failsOnly_getProperty hkind hkey,
    failsOnly_enumerateObject hkind, failsOnly_enumerateArray hkind, getProperty_eq_ok_iff,
    enumerateObject_eq_ok_iff, enumerateArray_eq_ok_iff, failsOnly_foldlM_addLabel_iff,
    Except.failsOnly_mapM, failsOnly_pointOf_iff, exists_pointOf_iff, Except.failsOnly_pure,
    true_and, and_true, implies_true]
  constructor
  · intro h members hmetric
    obtain ⟨horder, hrest⟩ := h _ hmetric members rfl
    refine ⟨horder, fun hlabels pairs hvalues => ?_⟩
    obtain ⟨labels, hlabels⟩ := exists_foldlM_addLabel_iff.mpr hlabels
    exact hrest labels hlabels _ hvalues pairs rfl
  · rintro h _ hmetric members rfl
    obtain ⟨horder, hrest⟩ := h members hmetric
    refine ⟨horder, ?_⟩
    rintro labels hlabels _ hvalues pairs rfl
    exact hrest (exists_foldlM_addLabel_iff.mp ⟨labels, hlabels⟩) pairs hvalues

theorem isFinite_of_seriesOf {result : Json} {series : PromSeries}
    (h : seriesOf result = .ok series) {point : TrafficPoint} (hpoint : point ∈ series.points) :
    ∀ value ∈ point.bitsPerSecond, value.isFinite = true := by
  simp only [seriesOf, Except.bind_eq_ok] at h
  obtain ⟨_, -, _, -, _, -, _, -, pairs, -, points, hpoints, h⟩ := h
  obtain rfl := Except.ok.inj h
  obtain ⟨pair, -, hpair⟩ := (mem_iff_of_mapM_eq_ok hpoints).mp hpoint
  exact isFinite_of_pointOf hpair

/-! ### Documents

The status is read first. A document that does not say that it is an answer is reported, whatever
else is in it. -/

/-- The series of an answer, if the answer says that it is one. -/
def Results (root : Json) (results : List Json) : Prop :=
  member "status" root = some (.string (some (ofString "success"))) ∧
    ∃ data, member "data" root = some data ∧ member "result" data = some (.array results)

/-- The first of the results that is no series is in order. Those before it have been read, and
those after it are not looked at, so nothing is asked of either. -/
def InOrder (root : Json) : Prop :=
  ∀ results, Results root results → ∀ before result after, results = before ++ result :: after →
    (∀ other ∈ before, IsSeries other) → SeriesInOrder result

/-- **For which documents the reading throws only what is reported.** -/
theorem failsOnly_parse_iff {root : Json} :
    Except.FailsOnly IsReported (parse root) ↔ InOrder root := by
  have hkind : IsReported .invalidOperation := by decide
  have hkey : IsReported .keyNotFound := by decide
  have hstatus : ∀ element : Json, getString element = .ok (some (ofString "success")) ↔
      element = .string (some (ofString "success")) := by
    intro element
    cases element with
    | string text => cases text <;> simp [getString, Json.getString, access]
    | _ => simp [getString, Json.getString, access]
  have hread : ∀ data : Json, Except.FailsOnly IsReported (do
      (← enumerateArray (← getProperty "result" data)).mapM seriesOf) ↔
        ∀ results, member "result" data = some (.array results) →
          ∀ before result after, results = before ++ result :: after →
            (∀ other ∈ before, IsSeries other) → SeriesInOrder result := by
    intro data
    simp only [Except.failsOnly_bind, failsOnly_getProperty hkind hkey,
      failsOnly_enumerateArray hkind, getProperty_eq_ok_iff, enumerateArray_eq_ok_iff,
      Except.failsOnly_mapM, failsOnly_seriesOf_iff, exists_seriesOf_iff, true_and]
    exact ⟨fun h results hresults => h _ hresults results rfl,
      fun h _ hresults results heq => h results (heq ▸ hresults)⟩
  have hrest : ∀ status : Option Str, Except.FailsOnly IsReported (do
      if status ≠ some (ofString "success") then throw .invalidOperation
      (← enumerateArray (← getProperty "result" (← getProperty "data" root))).mapM seriesOf) ↔
        (status = some (ofString "success") → ∀ data, member "data" root = some data →
          Except.FailsOnly IsReported (do
            (← enumerateArray (← getProperty "result" data)).mapM seriesOf)) := by
    intro status
    by_cases hsuccess : status = some (ofString "success")
    · rw [if_neg (not_not.mpr hsuccess), Except.failsOnly_bind]
      simp only [hsuccess, failsOnly_getProperty hkind hkey, getProperty_eq_ok_iff, true_and,
        true_imp_iff]
    · rw [if_pos hsuccess]
      exact iff_of_true (Except.failsOnly_error.mpr hkind) fun h => absurd h hsuccess
  rw [parse, Except.failsOnly_bind]
  simp only [failsOnly_getProperty hkind hkey, getProperty_eq_ok_iff, true_and]
  constructor
  · rintro h results ⟨hroot, data, hdata, hresults⟩
    have hdocument := (Except.failsOnly_bind.mp (h _ hroot)).2 _ ((hstatus _).mpr rfl)
    exact (hread data).mp ((hrest _).mp hdocument rfl data hdata) results hresults
  · intro h element helement
    refine Except.failsOnly_bind.mpr ⟨failsOnly_getString hkind, fun status hstring => ?_⟩
    refine (hrest status).mpr ?_
    rintro rfl data hdata
    refine (hread data).mpr fun results hresults => h results ⟨?_, data, hdata, hresults⟩
    rw [helement, (hstatus element).mp hstring]

theorem isFinite_of_parse {root : Json} {series : List PromSeries} (h : parse root = .ok series) :
    ∀ s ∈ series, ∀ point ∈ s.points, ∀ value ∈ point.bitsPerSecond, value.isFinite = true := by
  have hseries : ∃ results : List Json, results.mapM seriesOf = .ok series := by
    simp only [parse, Except.bind_eq_ok] at h
    obtain ⟨_, -, status, -, h⟩ := h
    by_cases hsuccess : status = some (ofString "success")
    · rw [if_neg (not_not.mpr hsuccess)] at h
      simp only [Except.bind_eq_ok] at h
      obtain ⟨_, -, _, -, results, -, h⟩ := h
      exact ⟨results, h⟩
    · rw [if_pos hsuccess] at h
      exact absurd h (fun h => nomatch h)
  obtain ⟨results, hresults⟩ := hseries
  intro s hs point hpoint
  obtain ⟨result, -, hresult⟩ := (mem_iff_of_mapM_eq_ok hresults).mp hs
  exact isFinite_of_seriesOf hresult hpoint

/-- Whatever the reading throws, it is no refusal of its own. -/
theorem parse_ne_lookingGlass {root : Json} (ex : LookingGlassException) :
    parse root ≠ .error (.lookingGlass ex) := by
  have hpoint : ∀ pair, Except.FailsOnly (fun e => e ≠ .lookingGlass ex) (pointOf pair) := by
    intro pair
    refine Except.failsOnly_bind.mpr ⟨failsOnly_item (by simp) (by simp), fun first _ => ?_⟩
    refine Except.failsOnly_bind.mpr ⟨failsOnly_getDouble (by simp) (by simp), fun seconds _ => ?_⟩
    refine Except.failsOnly_bind.mpr ⟨?_, fun time _ => ?_⟩
    · unfold fromUnixTimeMilliseconds
      split <;> simp
    refine Except.failsOnly_bind.mpr ⟨failsOnly_item (by simp) (by simp), fun second _ => ?_⟩
    exact Except.failsOnly_bind.mpr ⟨failsOnly_getString (by simp), fun _ _ => by simp⟩
  have hlabel : ∀ labels property,
      Except.FailsOnly (fun e => e ≠ .lookingGlass ex) (addLabel labels property) := by
    intro labels property
    refine Except.failsOnly_bind.mpr ⟨failsOnly_name (by simp), fun key _ => ?_⟩
    refine Except.failsOnly_bind.mpr ⟨failsOnly_getString (by simp), fun value _ => ?_⟩
    cases labels.lookup key with
    | none => exact Except.failsOnly_ok _
    | some other => exact Except.failsOnly_error.mpr (by simp)
  have hseries : ∀ result, Except.FailsOnly (fun e => e ≠ .lookingGlass ex) (seriesOf result) := by
    intro result
    simp only [seriesOf, Except.failsOnly_bind]
    refine ⟨failsOnly_getProperty (by simp) (by simp), fun _ _ =>
      ⟨failsOnly_enumerateObject (by simp), fun members _ => ⟨?_, fun _ _ =>
        ⟨failsOnly_getProperty (by simp) (by simp), fun _ _ =>
          ⟨failsOnly_enumerateArray (by simp), fun pairs _ => ⟨?_, fun _ _ => by simp⟩⟩⟩⟩⟩⟩
    · exact Except.failsOnly_foldlM.mpr fun _ property _ _ labels _ => hlabel labels property
    · exact Except.failsOnly_mapM.mpr fun _ pair _ _ _ => hpoint pair
  have hparse : Except.FailsOnly (fun e => e ≠ .lookingGlass ex) (parse root) := by
    refine Except.failsOnly_bind.mpr ⟨failsOnly_getProperty (by simp) (by simp), fun _ _ => ?_⟩
    refine Except.failsOnly_bind.mpr ⟨failsOnly_getString (by simp), fun status _ => ?_⟩
    split
    · exact Except.failsOnly_error.mpr (by simp)
    · simp only [Except.failsOnly_bind]
      refine ⟨failsOnly_getProperty (by simp) (by simp), fun _ _ =>
        ⟨failsOnly_getProperty (by simp) (by simp), fun _ _ =>
          ⟨failsOnly_enumerateArray (by simp), fun results _ => ?_⟩⟩⟩
      exact Except.failsOnly_mapM.mpr fun _ result _ _ _ => hseries result
  exact fun h => hparse _ h rfl

/-! ### Replies

What the server sends, and how the client ends. -/

/-- Series with finite values, or `service_unavailable`. These are the two ways in which a query is
meant to end. -/
def Controlled (r : Except Exn (List PromSeries)) : Prop :=
  (∃ series, r = .ok series ∧
    ∀ s ∈ series, ∀ point ∈ s.points, ∀ value ∈ point.bitsPerSecond, value.isFinite = true) ∨
  ∃ ex, r = .error (.lookingGlass ex) ∧ ex.code = ProblemCodes.serviceUnavailable

/-- A document that comes with a status of success is in order. -/
def Orderly (parseDocument : List UInt8 → Option Json) : Reply → Prop
  | .failed | .timedOut => True
  | .response response => response.isSuccessStatusCode = true → response.content.isComplete = true →
      ∀ root, parseDocument response.content.bytes = some root → InOrder root

variable {parseDocument : List UInt8 → Option Json}

theorem controlled_unavailable : Controlled (.error unavailable) := .inr ⟨_, rfl, rfl⟩

/-- What the client makes of an outcome that is no refusal. -/
theorem controlled_tryCatch_iff {r : Except Exn (List PromSeries)}
    (hfinite : ∀ series, r = .ok series →
      ∀ s ∈ series, ∀ point ∈ s.points, ∀ value ∈ point.bitsPerSecond, value.isFinite = true)
    (hrefusal : ∀ ex, r ≠ .error (.lookingGlass ex)) :
    Controlled (tryCatch r fun ex =>
        if IsReported ex ∧ !false then throw unavailable else throw ex) ↔
      Except.FailsOnly IsReported r := by
  cases r with
  | ok series => exact iff_of_true (.inl ⟨series, rfl, hfinite series rfl⟩) (Except.failsOnly_ok _)
  | error ex =>
    rw [Except.failsOnly_error]
    show Controlled (if IsReported ex ∧ !false then throw unavailable else throw ex) ↔ _
    by_cases hreported : IsReported ex
    · rw [if_pos ⟨hreported, rfl⟩]
      exact iff_of_true controlled_unavailable hreported
    · rw [if_neg fun h => hreported h.1]
      refine iff_of_false ?_ hreported
      rintro (⟨series, hseries, -⟩ | ⟨ex', hex, -⟩)
      · exact absurd hseries (fun h => nomatch h)
      · exact hrefusal ex' hex

theorem request_response (response : HttpResponse) :
    request parseDocument (.response response) =
      if response.content.isComplete then
        if response.isSuccessStatusCode then
          match parseDocument response.content.bytes with
          | none => .error .json
          | some root => parse root
        else .error unavailable
      else .error .httpRequest := by
  unfold request getAsync
  dsimp only
  by_cases hcomplete : response.content.isComplete = true
  · rw [if_pos hcomplete, if_pos hcomplete]
    show (if (!response.isSuccessStatusCode) = true then _ else _) = _
    cases response.isSuccessStatusCode <;> rfl
  · rw [if_neg hcomplete, if_neg hcomplete]
    rfl

/-- **For which replies the client ends as it is meant to**: exactly if the document, where there is
one, is in order. -/
theorem controlled_iff (parseDocument : List UInt8 → Option Json) (server : Str → Reply)
    (query : Str) (start stop : DateTimeOffset) (stepSeconds : ℤ) :
    Controlled (queryRangeAsync parseDocument false server query start stop stepSeconds) ↔
      Orderly parseDocument (server (requestUri query start stop stepSeconds)) := by
  rw [queryRangeAsync]
  generalize server (requestUri query start stop stepSeconds) = reply
  cases reply with
  | failed | timedOut => exact iff_of_true controlled_unavailable trivial
  | response response =>
    rw [request_response, Orderly]
    by_cases hcomplete : response.content.isComplete = true
    · rw [if_pos hcomplete]
      by_cases hstatus : response.isSuccessStatusCode = true
      · rw [if_pos hstatus]
        cases parseDocument response.content.bytes with
        | none => exact iff_of_true controlled_unavailable (by simp)
        | some root =>
          rw [controlled_tryCatch_iff (fun _ => isFinite_of_parse) fun ex =>
            parse_ne_lookingGlass ex, failsOnly_parse_iff]
          simp [hstatus, hcomplete]
      · rw [if_neg hstatus]
        exact iff_of_true controlled_unavailable fun h => absurd h hstatus
    · rw [if_neg hcomplete]
      exact iff_of_true controlled_unavailable fun _ h => absurd h hcomplete

/-- An answer with one series. -/
def answer (metric values : Json) : Json :=
  .object [(.text "status", .string (some "success")), (.text "data", .object [(.text "result",
    .array [.object [(.text "metric", metric), (.text "values", values)]])])]

/-- The text of an answer with a pair that has no value. -/
def shortPairText : Str :=
  "\x7b\"status\":\"success\",\"data\":\x7b\"result\":[\x7b\"metric\":\x7b\x7d,\"values\":[[1]]\x7d]\x7d\x7d"

/-- A reader that knows this text. -/
def parseShortPair (bytes : List UInt8) : Option Json :=
  if bytes = Utf8.encode shortPairText then
    some (answer (.object []) (.array [.array [.number "1"]]))
  else none

def shortPairReply : Reply := .response ⟨200, none, ⟨Utf8.encode shortPairText, true⟩⟩

/-- The pair has a time and no value, and nobody handles the exception. -/
theorem short_pair_escapes :
    queryRangeAsync parseShortPair false (fun _ => shortPairReply) "up" 0 0 30 = .error .other ∧
      ¬ Controlled
        (queryRangeAsync parseShortPair false (fun _ => shortPairReply) "up" 0 0 30) := by
  have hescapes :
      queryRangeAsync parseShortPair false (fun _ => shortPairReply) "up" 0 0 30 =
        .error .other := by
    decide +kernel
  refine ⟨hescapes, ?_⟩
  rw [hescapes]
  rintro (⟨series, hseries, -⟩ | ⟨ex, hex, -⟩)
  · exact absurd hseries (fun h => nomatch h)
  · exact absurd hex (fun h => nomatch h)

end PrometheusClient

end LookingGlass
