import LookingGlass.Api.TrafficService
import LookingGlass.Foundations.Failures

/-!
# What is reported of a source that is not available

The internet link and the web traffic are answered by two queries each, and either of the two may
fail or find nothing on its own. A source is available if both have found something. If it is not,
the response is to say nothing else about it: no series and no current values.

The current values are guarded by the availability and the series are not, so a source that answers
in one direction only is reported as unavailable together with the series of that direction.

## What a reader is promised

The documentation of the endpoint says that `available: false` comes with empty series. The flag
needs both directions, and the code takes the series of each direction from its own answer, without
looking at the flag. So the promise is kept exactly if no source has answered in one direction with
something to show while the other one was empty. The condition is on the four answers, and `Paired`
states it for the two of one source.

An answer may contain a series without points. It counts as an answer for the flag and shows
nothing, which is why the condition is about what would be shown and not about which list is empty.

## Main results

* `TrafficService.runs_buildAsync_ok` — the four optional answers, and what the response makes of
  them
* `TrafficService.whollyEmpty_iff` — for which answers an unavailable source is reported as empty
-/

namespace LookingGlass

open Utf16 Interaction

namespace TrafficService

/-- The series in the answer to a query. There are none in a failure. -/
def seriesOf : Event Prometheus → List PromSeries
  | ⟨.queryRange _ _ _ _, .ok series⟩ => series
  | _ => []

/-- The series in the answer to a call, counted from the call for the time; none if there is no such
call. -/
def answered (es : List (Event Prometheus)) (index : ℕ) : List PromSeries :=
  (es[index]?.map seriesOf).getD []

/-- A source that is not available is reported without series and without current values. It says
nothing about a source that is available. -/
structure WhollyEmpty (response : TrafficResponse) : Prop where
  internet : response.internet.available = false →
    response.internet.rx = [] ∧ response.internet.tx = [] ∧
      response.current.internetRxBps = none ∧ response.current.internetTxBps = none
  web : response.web.available = false →
    response.web.inbound = [] ∧ response.web.outbound = [] ∧
      response.current.webInBps = none ∧ response.current.webOutBps = none

/-- A direction without series leaves nothing to show in the other one. A series without points is a
series all the same, so the two sides are not symmetric. -/
def Paired (x y : List PromSeries) : Prop := (x = [] → first y = []) ∧ (y = [] → first x = [])

instance (x y : List PromSeries) : Decidable (Paired x y) := inferInstanceAs (Decidable (_ ∧ _))

variable {rt : Runtime} {settings : TrafficOptions} {range : Str}

/-! ### The answers of a run

The calls of a run stand in a fixed order, so an answer is found by its place. -/

theorem runs_queryRangeAsync {query : Str} {start stop : DateTimeOffset} {step : ℤ}
    {es : List (Event Prometheus)} {r : Except Exn (List PromSeries)}
    (h : Task.Runs (Prometheus.queryRangeAsync query start stop step) es r) :
    ∃ e, es = [e] ∧ ∀ series, r = .ok series → series = seriesOf e := by
  obtain ⟨answer, rfl, rfl⟩ := Task.runs_call.mp h
  refine ⟨_, rfl, fun series hseries => ?_⟩
  subst hseries
  rfl

/-- A query that may fail finds what is in its answer, and nothing in a failure. -/
theorem runs_optionalAsync {query : Str} {start stop : DateTimeOffset} {step : ℤ}
    {es : List (Event Prometheus)} {r : Except Exn (List PromSeries)}
    (h : Task.Runs (optionalAsync (Prometheus.queryRangeAsync query start stop step)) es r) :
    ∃ e, es = [e] ∧ ∀ series, r = .ok series → series = seriesOf e := by
  rcases Task.runs_tryCatch.mp h with ⟨series, hquery, rfl⟩ | ⟨fst, e, snd, rfl, hquery, hcatch⟩
  · obtain ⟨event, rfl, hevent⟩ := runs_queryRangeAsync hquery
    exact ⟨event, rfl, fun _ heq => Except.ok.inj heq ▸ hevent series rfl⟩
  · obtain ⟨answer, rfl, rfl⟩ := Task.runs_call.mp hquery
    cases e with
    | lookingGlass ex =>
      obtain ⟨rfl, rfl⟩ := Task.runs_pure.mp hcatch
      exact ⟨_, rfl, fun series hseries => (Except.ok.inj hseries).symm⟩
    | _ =>
      obtain ⟨rfl, rfl⟩ := Task.runs_throw.mp hcatch
      exact ⟨_, rfl, fun series hseries => nomatch hseries⟩

theorem respond_eq_ok {step : ℤ} {stop : DateTimeOffset}
    {nodeRx nodeTx capacity clusterRx clusterTx webIn webOut wanRx wanTx : List PromSeries}
    {response : TrafficResponse}
    (h : respond rt range step stop nodeRx nodeTx capacity clusterRx clusterTx webIn webOut wanRx
      wanTx = .ok response) :
    response.internet = ⟨0 < wanRx.length && 0 < wanTx.length, first wanRx, first wanTx⟩ ∧
      response.web = ⟨0 < webIn.length && 0 < webOut.length, first webIn, first webOut⟩ ∧
      (response.internet.available = false →
        response.current.internetRxBps = none ∧ response.current.internetTxBps = none) ∧
      (response.web.available = false →
        response.current.webInBps = none ∧ response.current.webOutBps = none) := by
  obtain ⟨nodes, -, hresponse⟩ := Except.bind_eq_ok.mp h
  obtain rfl := Except.ok.inj hresponse
  refine ⟨rfl, rfl, fun havailable => ?_, fun havailable => ?_⟩
  · exact ⟨if_neg (Bool.eq_false_iff.mp havailable), if_neg (Bool.eq_false_iff.mp havailable)⟩
  · exact ⟨if_neg (Bool.eq_false_iff.mp havailable), if_neg (Bool.eq_false_iff.mp havailable)⟩

/-- The value of a computation that is followed by another one, where both have one. -/
theorem runs_ofExcept_bind_ok {α β : Type} {x : Except Exn α} {f : α → Task Prometheus Exn β}
    {es : List (Event Prometheus)} {b : β} (h : Task.Runs (Task.ofExcept x >>= f) es (.ok b)) :
    ∃ a, x = .ok a ∧ Task.Runs (f a) es (.ok b) := by
  rcases Task.runs_ofExcept_bind.mp h with ⟨_, -, -, heq⟩ | ha
  · exact absurd heq (by simp)
  · exact ha

/-- **The four optional answers are what the response is made of**, besides the others. -/
theorem runs_buildAsync_ok {es : List (Event Prometheus)} {response : TrafficResponse}
    (h : Task.Runs (buildAsync rt settings range) es (.ok response)) :
    ∃ step stop nodeRx nodeTx capacity clusterRx clusterTx,
      respond rt range step stop nodeRx nodeTx capacity clusterRx clusterTx (answered es 6)
        (answered es 7) (answered es 8) (answered es 9) = .ok response := by
  unfold buildAsync at h
  obtain ⟨⟨window, step⟩, -, h⟩ := runs_ofExcept_bind_ok h
  dsimp only at h
  obtain ⟨stop, rest₀, hes₀, h⟩ := Task.runs_perform_bind.mp h
  obtain ⟨es₁, a₁, rest₁, hes₁, h₁, h⟩ := Task.runs_attempt_bind.mp h
  obtain ⟨es₂, a₂, rest₂, hes₂, h₂, h⟩ := Task.runs_attempt_bind.mp h
  obtain ⟨es₃, a₃, rest₃, hes₃, h₃, h⟩ := Task.runs_attempt_bind.mp h
  obtain ⟨es₄, a₄, rest₄, hes₄, h₄, h⟩ := Task.runs_attempt_bind.mp h
  obtain ⟨es₅, a₅, rest₅, hes₅, h₅, h⟩ := Task.runs_attempt_bind.mp h
  obtain ⟨es₆, a₆, rest₆, hes₆, h₆, h⟩ := Task.runs_attempt_bind.mp h
  obtain ⟨es₇, a₇, rest₇, hes₇, h₇, h⟩ := Task.runs_attempt_bind.mp h
  obtain ⟨es₈, a₈, rest₈, hes₈, h₈, h⟩ := Task.runs_attempt_bind.mp h
  obtain ⟨es₉, a₉, rest₉, hes₉, h₉, h⟩ := Task.runs_attempt_bind.mp h
  obtain ⟨_, -, h⟩ := runs_ofExcept_bind_ok h
  obtain ⟨nodeRx, ha₁, h⟩ := runs_ofExcept_bind_ok h
  obtain ⟨nodeTx, ha₂, h⟩ := runs_ofExcept_bind_ok h
  obtain ⟨capacity, ha₃, h⟩ := runs_ofExcept_bind_ok h
  obtain ⟨clusterRx, ha₄, h⟩ := runs_ofExcept_bind_ok h
  obtain ⟨clusterTx, ha₅, h⟩ := runs_ofExcept_bind_ok h
  obtain ⟨webIn, ha₆, h⟩ := runs_ofExcept_bind_ok h
  obtain ⟨webOut, ha₇, h⟩ := runs_ofExcept_bind_ok h
  obtain ⟨wanRx, ha₈, h⟩ := runs_ofExcept_bind_ok h
  obtain ⟨wanTx, ha₉, h⟩ := runs_ofExcept_bind_ok h
  obtain ⟨hend, hrespond⟩ := Task.runs_ofExcept.mp h
  refine ⟨step, stop, nodeRx, nodeTx, capacity, clusterRx, clusterTx, ?_⟩
  -- one call each, so that the positions in the run are those of the queries
  obtain ⟨e₁, he₁, -⟩ := runs_queryRangeAsync h₁
  obtain ⟨e₂, he₂, -⟩ := runs_queryRangeAsync h₂
  obtain ⟨e₃, he₃, -⟩ := runs_queryRangeAsync h₃
  obtain ⟨e₄, he₄, -⟩ := runs_queryRangeAsync h₄
  obtain ⟨e₅, he₅, -⟩ := runs_queryRangeAsync h₅
  obtain ⟨e₆, he₆, hwebIn⟩ := runs_optionalAsync h₆
  obtain ⟨e₇, he₇, hwebOut⟩ := runs_optionalAsync h₇
  have hes : es = ⟨.getUtcNow, stop⟩ :: e₁ :: e₂ :: e₃ :: e₄ :: e₅ :: e₆ :: e₇ :: (es₈ ++ es₉) := by
    simp [hes₀, hes₁, hes₂, hes₃, hes₄, hes₅, hes₆, hes₇, hes₈, hes₉, hend, he₁, he₂, he₃, he₄,
      he₅, he₆, he₇]
  have hin : answered es 6 = webIn := by rw [hwebIn webIn ha₆, hes]; rfl
  have hout : answered es 7 = webOut := by rw [hwebOut webOut ha₇, hes]; rfl
  have hwan : answered es 8 = wanRx ∧ answered es 9 = wanTx := by
    rw [hes]
    split at h₈
    · next hdevice =>
      rw [if_pos hdevice] at h₉
      obtain ⟨rfl, hrx⟩ := Task.runs_pure.mp h₈
      obtain ⟨rfl, htx⟩ := Task.runs_pure.mp h₉
      exact ⟨Except.ok.inj (hrx.symm.trans ha₈), Except.ok.inj (htx.symm.trans ha₉)⟩
    · next hdevice =>
      rw [if_neg hdevice] at h₉
      obtain ⟨e₈, rfl, hrx⟩ := runs_optionalAsync h₈
      obtain ⟨e₉, rfl, htx⟩ := runs_optionalAsync h₉
      exact ⟨(hrx wanRx ha₈).symm, (htx wanTx ha₉).symm⟩
  rw [hin, hout, hwan.1, hwan.2]
  exact hrespond.symm

/-! ### When nothing is said

One source at a time; the two do not touch each other. -/

/-- One source: what is left of it in the response where one of its answers has no series. -/
theorem paired_iff (x y : List PromSeries) :
    Paired x y ↔ ((decide (0 < x.length) && decide (0 < y.length)) = false →
      first x = [] ∧ first y = []) := by
  cases x with
  | nil => simp [Paired, first]
  | cons s x =>
    cases y with
    | nil => simp [Paired, first]
    | cons t y => simp [Paired]

/-- **An unavailable source is reported as wholly empty** if and only if none of the two sources has
something to show in one direction and no series in the other. -/
theorem whollyEmpty_iff {es : List (Event Prometheus)} {response : TrafficResponse}
    (h : Task.Runs (buildAsync rt settings range) es (.ok response)) :
    WhollyEmpty response ↔
      Paired (answered es 8) (answered es 9) ∧ Paired (answered es 6) (answered es 7) := by
  obtain ⟨step, stop, nodeRx, nodeTx, capacity, clusterRx, clusterTx, hrespond⟩ :=
    runs_buildAsync_ok h
  obtain ⟨hinternet, hweb, hcurrent, hcurrent'⟩ := respond_eq_ok hrespond
  rw [paired_iff, paired_iff]
  constructor
  · rintro ⟨hempty, hempty'⟩
    rw [hinternet] at hempty
    rw [hweb] at hempty'
    exact ⟨fun hnone => ⟨(hempty hnone).1, (hempty hnone).2.1⟩,
      fun hnone => ⟨(hempty' hnone).1, (hempty' hnone).2.1⟩⟩
  · rintro ⟨hpaired, hpaired'⟩
    refine ⟨fun hnone => ?_, fun hnone => ?_⟩
    · have hshown := hpaired (by rwa [hinternet] at hnone)
      rw [hinternet]
      exact ⟨hshown.1, hshown.2, hcurrent hnone⟩
    · have hshown := hpaired' (by rwa [hweb] at hnone)
      rw [hweb]
      exact ⟨hshown.1, hshown.2, hcurrent' hnone⟩

/-- A run for the internet link, of which only the received bytes are known: the query for the
transmitted ones answers `transmitted`. -/
def halfRun (transmitted : Except Exn (List PromSeries)) :
    List (Event Prometheus) × Except Exn TrafficResponse :=
  Prog.simulate answer (buildAsync .reference { wanDevice := some "igb0" } "1h").run
where
  answer : ∀ op, Prometheus.Ret op
    | .getUtcNow => (0 : ℤ)
    | .queryRange query _ _ _ =>
      if containsText "opnsense" query then
        if containsText "transmit" query then transmitted else .ok [⟨[], [⟨0, some 800000⟩]⟩]
      else .ok []

/-- Prometheus fails on the last query. -/
theorem not_whollyEmpty_of_halfRun :
    ∃ response, (halfRun (.error (.lookingGlass
        (.unavailable "Traffic data is currently unavailable.")))).2 = .ok response ∧
      response.internet.available = false ∧
      response.internet.rx = [⟨0, some 800000⟩] ∧
      ¬ WhollyEmpty response := by
  refine ⟨_, rfl, by decide +kernel, by decide +kernel, fun h => ?_⟩
  exact absurd (h.internet (by decide +kernel)).1 (by decide +kernel)

theorem whollyEmpty_iff_of_halfRun :
    ∃ response, (halfRun (.ok [⟨[], [⟨0, some 900000⟩]⟩])).2 = .ok response ∧
      (WhollyEmpty response ↔
        Paired (answered (halfRun (.ok [⟨[], [⟨0, some 900000⟩]⟩])).1 8)
            (answered (halfRun (.ok [⟨[], [⟨0, some 900000⟩]⟩])).1 9) ∧
          Paired (answered (halfRun (.ok [⟨[], [⟨0, some 900000⟩]⟩])).1 6)
            (answered (halfRun (.ok [⟨[], [⟨0, some 900000⟩]⟩])).1 7)) :=
  ⟨_, rfl, whollyEmpty_iff (Prog.run_simulate _ _)⟩

end TrafficService

end LookingGlass
