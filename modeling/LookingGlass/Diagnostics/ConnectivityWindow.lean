import LookingGlass.Diagnostics.ConnectivityMonitor

/-!
# The window of a snapshot

Samples are dropped when a new one is recorded, so what a snapshot is computed from is decided by
the last completed round: the rounds that are at most `WindowSeconds` older than that one. The
label of the snapshot is decided when it is taken, and never exceeds `WindowSeconds`. Between the
two, the samples grow older and the label does not.

## Two clocks that are one

A round and a snapshot read the same clock, at different times. The samples that a snapshot reports
are those that were not too old at the last round; the label is how long ago the oldest of these
was, capped by the option. If nothing is added for a while, because rounds take long or because the
interval is, the cap takes effect and what is reported is older than the label says.

So the condition is on the times of the rounds and of the snapshot, and on nothing that the snapshot
computes. The second that is allowed for is that by which the label is rounded down.

## Main results

* `ConnectivityMonitor.samples_of_sampling` — which rounds are in the history after any run
* `ConnectivityMonitor.labelled_iff` — when the label covers all that is reported
-/

namespace LookingGlass

open Utf16 Interaction

namespace ConnectivityMonitor

variable {N : Interface} {monitor : ConnectivityMonitor N} {state : State} {family : IpVersion}
  {times : List DateTimeOffset} {now : DateTimeOffset}

/-! ### Runs of the monitor

The times of the completed rounds determine which of them are in the history of each family. -/

/-- Rounds under a clock that does not go back: the times at which the completed ones were recorded,
and the state they lead to. A round that fails changes nothing. -/
inductive Sampling (monitor : ConnectivityMonitor N) : List DateTimeOffset → State → Prop
  | start : Sampling monitor [] State.new
  | completed {times : List DateTimeOffset} {state state' : State} {now : DateTimeOffset}
      {es : List (Event (Clock.sum N))} (before : Sampling monitor times state)
      (run : Task.Runs (monitor.sampleOnceAsync state) (es ++ [⟨.inl .getUtcNow, now⟩])
        (.ok state'))
      (clock : ∀ time ∈ times, time ≤ now) : Sampling monitor (times ++ [now]) state'
  | failed {times : List DateTimeOffset} {state : State}
    {es : List (Event (Clock.sum N))} {ex : Exn}
      (before : Sampling monitor times state)
      (run : Task.Runs (monitor.sampleOnceAsync state) es (.error ex)) :
        Sampling monitor times state

/-- The rounds that are not yet too old at any of them. -/
def retained (monitor : ConnectivityMonitor N) (times : List DateTimeOffset) :
    List DateTimeOffset :=
  times.filter fun time => times.all fun other => !decide (time < monitor.cutoff other)

theorem cutoff_le (monitor : ConnectivityMonitor N) (now : DateTimeOffset) :
    monitor.cutoff now ≤ now :=
  sub_le_self now (mul_nonneg (Int.natCast_nonneg _) (by decide))

theorem mem_retained {time : DateTimeOffset} :
    time ∈ monitor.retained times ↔
      time ∈ times ∧ ∀ other ∈ times, monitor.cutoff other ≤ time := by
  simp [retained]

/-- The times in the history, after one more round. -/
theorem retained_append (h : ∀ time ∈ times, time ≤ now) :
    monitor.retained (times ++ [now]) =
      (monitor.retained times).filter (fun time => !decide (time < monitor.cutoff now)) ++
        [now] := by
  have hnow : ∀ other ∈ times ++ [now], monitor.cutoff other ≤ now := by
    intro other hother
    rcases List.mem_append.mp hother with hother | hother
    · exact (cutoff_le monitor other).trans (h other hother)
    · exact List.mem_singleton.mp hother ▸ cutoff_le monitor now
  have hself : [now].filter (fun time =>
      (times ++ [now]).all fun other => !decide (time < monitor.cutoff other)) = [now] := by
    rw [List.filter_eq_self]
    intro time htime
    obtain rfl := List.mem_singleton.mp htime
    exact List.all_eq_true.mpr fun other hother => by simpa using hnow other hother
  rw [retained, retained, List.filter_append, hself, List.filter_filter]
  refine congrArg (· ++ [now]) (List.filter_congr fun time _ => ?_)
  rw [List.all_append, Bool.and_comm]
  simp

/-- **Which rounds are in the history** of a family with targets, after any run. -/
theorem samples_of_sampling (h : monitor.Sampling times state)
    (hconf : (monitor.targets family).length > 0) :
    (state.samples family).map LatencySample.sampledAt = monitor.retained times := by
  induction h with
  | start => rfl
  | failed before run ih => exact ih
  | @completed times state state' now es before run clock ih =>
    obtain ⟨fst, _, snd, _, -, -, hfail | ⟨v4, v6, now', -, -, hes, hstate⟩⟩ :=
      runs_sampleOnceAsync.mp run
    · obtain ⟨_, -, -, hr⟩ := hfail
      exact absurd hr (by simp)
    obtain rfl : now' = now := by
      rw [← List.append_assoc] at hes
      have hlast := (List.append_inj' hes rfl).2
      simpa using hlast.symm
    obtain rfl := Except.ok.inj hstate
    rw [(complete_spec hconf v4 v6 now' state).1, List.map_append,
      retained_append clock, ← ih, kept, List.filter_map]
    rfl

/-- The completed rounds are recorded in order. -/
theorem pairwise_of_sampling (h : monitor.Sampling times state) : times.Pairwise (· ≤ ·) := by
  induction h with
  | start => exact .nil
  | failed before run ih => exact ih
  | completed before run clock ih =>
    refine List.pairwise_append.mpr
      ⟨ih, List.pairwise_singleton _ _, fun time htime other hother => ?_⟩
    exact List.mem_singleton.mp hother ▸ clock time htime

/-! ### The label

All families that are probed have the same oldest round, so the label is decided by that. -/

/-- The first point of a summary is as old as the oldest sample. -/
theorem head?_downsample (samples : List LatencySample) :
    (downsample samples).head?.map LatencySample.sampledAt =
      samples.head?.map LatencySample.sampledAt := by
  rw [downsample]
  by_cases hfew : samples.length ≤ maxPoints
  · rw [if_pos hfew]
  · rw [if_neg hfew]
    have hsize : 0 < blockSize samples.length := by
      rw [blockSize, maxPoints] at *
      omega
    obtain ⟨first, rest, rfl⟩ := List.exists_cons_of_length_pos (Nat.zero_lt_of_lt (not_le.mp hfew))
    rw [List.head?_map, List.head?_chunk hsize (List.length_pos_of_ne_nil (by simp))]
    obtain ⟨size, hsize⟩ := Nat.exists_eq_succ_of_ne_zero hsize.ne'
    rw [hsize]
    rfl

theorem samples_summarise (configured : Bool) :
    (summarise state family configured).samples =
      if configured then downsample (state.samples family) else [] := by
  cases configured with
  | false => rfl
  | true =>
    simp only [summarise, Bool.not_true, Bool.false_eq_true, if_false, if_true]
    cases hlast : (state.samples family).getLast? with
    | none => rw [List.getLast?_eq_none_iff.mp hlast]; rfl
    | some last => rfl

/-- The oldest of the first points, where each family shows the same first point or none. -/
theorem min?_firsts {ipv4 ipv6 : Option LatencySample} {first : Option DateTimeOffset}
    (h₄ : ipv4.map LatencySample.sampledAt = first ∨ ipv4 = none)
    (h₆ : ipv6.map LatencySample.sampledAt = first ∨ ipv6 = none)
    (h : ipv4.map LatencySample.sampledAt = first ∨ ipv6.map LatencySample.sampledAt = first) :
    (([ipv4, ipv6].filterMap id).map LatencySample.sampledAt).min? = first := by
  cases ipv4 <;> cases ipv6 <;> cases first <;> simp_all [List.min?]

/-- The label of a snapshot, after any run of a monitor that has targets. -/
theorem windowSeconds_of_sampling (h : monitor.Sampling times state)
    (hconf : ∃ family, (monitor.targets family).length > 0) (now : DateTimeOffset) :
    (monitor.performance now state).windowSeconds =
      monitor.coveredSeconds now ((monitor.retained times).head?.getD now) := by
  have hfirst : ∀ family, (monitor.targets family).length > 0 →
      (summarise state family (decide ((monitor.targets family).length > 0))).samples.head?.map
        LatencySample.sampledAt = (monitor.retained times).head? := by
    intro family hconf
    rw [samples_summarise, decide_eq_true hconf, if_pos rfl, head?_downsample,
      ← samples_of_sampling h hconf, List.head?_map]
  have hnone : ∀ family, ¬ (monitor.targets family).length > 0 →
      (summarise state family (decide ((monitor.targets family).length > 0))).samples.head? =
        none := by
    intro family hconf
    rw [samples_summarise, decide_eq_false hconf]
    rfl
  have heach : ∀ family, _ ∨ _ := fun family =>
    (em ((monitor.targets family).length > 0)).imp (hfirst family) (hnone family)
  show monitor.coveredSeconds now (Option.getD _ now) = _
  rw [min?_firsts (heach .ipv4) (heach .ipv6)]
  obtain ⟨family, hconf⟩ := hconf
  cases family with
  | ipv4 => exact .inl (hfirst .ipv4 hconf)
  | ipv6 => exact .inr (hfirst .ipv6 hconf)

/-- The label is at most the option, and either it is the option or less than a second is missing
to the oldest sample. -/
theorem coveredSeconds_spec (monitor : ConnectivityMonitor N) {oldest : DateTimeOffset}
    (h : oldest ≤ now) :
    monitor.coveredSeconds now oldest ≤ monitor.options.windowSeconds ∧
      (monitor.coveredSeconds now oldest = monitor.options.windowSeconds ∨
        now - (monitor.coveredSeconds now oldest + 1) * 10000000 < oldest) := by
  have hspec : ∀ age window : ℤ, 0 ≤ age → 0 ≤ window →
      let covered := (min age (window * 10000000)).tdiv 10000000
      covered ≤ window ∧ (covered = window ∨ age < (covered + 1) * 10000000) := by
    intro age window hage hwindow covered
    have hcovered : covered = min age (window * 10000000) / 10000000 :=
      Int.tdiv_eq_ediv_of_nonneg (le_min hage (by omega))
    omega
  obtain ⟨hle, hmissing⟩ := hspec _ _ (sub_nonneg.mpr h)
    (Int.natCast_nonneg monitor.options.windowSeconds)
  exact ⟨hle, hmissing.imp_right sub_lt_comm.mp⟩

/-! ### When the label covers all that is reported

An equivalence, for every run and every later snapshot. -/

/-- Everything the averages and the uptimes of a response are computed from was sampled within the
window of its label, give or take a second. -/
def Labelled (monitor : ConnectivityMonitor N) (state : State) (response : PerformanceResponse) :
    Prop :=
  ∀ family, (monitor.targets family).length > 0 → ∀ sample ∈ state.samples family,
    response.generatedAt - (response.windowSeconds + 1) * 10000000 ≤ sample.sampledAt

/-- What is reported for the families are the rounds in the history. -/
theorem forall_reported_iff (h : monitor.Sampling times state) (p : DateTimeOffset → Prop) :
    (∀ family, (monitor.targets family).length > 0 →
      ∀ sample ∈ state.samples family, p sample.sampledAt) ↔
        ((∃ family, (monitor.targets family).length > 0) →
          ∀ time ∈ monitor.retained times, p time) := by
  constructor
  · rintro hall ⟨family, hconf⟩ time htime
    rw [← samples_of_sampling h hconf] at htime
    obtain ⟨sample, hsample, rfl⟩ := List.mem_map.mp htime
    exact hall family hconf sample hsample
  · intro hall family hconf sample hsample
    refine hall ⟨family, hconf⟩ _ ?_
    rw [← samples_of_sampling h hconf]
    exact List.mem_map_of_mem hsample

/-- The seconds covered since the oldest round reach as far as the configured window does, as long
as they reach the oldest round at all. -/
theorem forall_covered_iff (monitor : ConnectivityMonitor N) {oldest : DateTimeOffset}
    (hsorted : (oldest :: times).Pairwise (· ≤ ·)) (holdest : oldest ≤ now) :
    (∀ time ∈ oldest :: times, now - (monitor.coveredSeconds now oldest + 1) * 10000000 ≤ time) ↔
      ∀ time ∈ oldest :: times, now - (monitor.options.windowSeconds + 1) * 10000000 ≤ time := by
  have hfirst : ∀ time ∈ oldest :: times, oldest ≤ time := by
    intro time htime
    rcases List.mem_cons.mp htime with rfl | htime
    · exact le_rfl
    · exact (List.pairwise_cons.mp hsorted).1 time htime
  obtain ⟨hle, hlabel⟩ := coveredSeconds_spec monitor holdest
  generalize monitor.coveredSeconds now oldest = covered at hle hlabel ⊢
  constructor
  · intro hall time htime
    refine le_trans ?_ (hall time htime)
    exact sub_le_sub_left (mul_le_mul_of_nonneg_right (add_le_add hle le_rfl) (by decide)) now
  · intro hall time htime
    rcases hlabel with rfl | hmissing
    · exact hall time htime
    · exact hmissing.le.trans (hfirst time htime)

/-- **When the label is right.** After any run, a snapshot that is taken later covers all that it
reports exactly if every completed round that is not too old at the last one is at most a second
older than the configured window when the snapshot is taken. -/
theorem labelled_iff (h : monitor.Sampling times state) (hclock : ∀ time ∈ times, time ≤ now)
    {response : PerformanceResponse}
    (hrun : Task.Runs (monitor.snapshot state) [⟨.getUtcNow, now⟩] (.ok response)) :
    monitor.Labelled state response ↔
      ((∃ family, (monitor.targets family).length > 0) →
        ∀ time ∈ times, (∀ other ∈ times, monitor.cutoff other ≤ time) →
          now - (monitor.options.windowSeconds + 1) * 10000000 ≤ time) := by
  obtain ⟨_, _, hes, hpure⟩ := Task.runs_perform_bind.mp hrun
  obtain ⟨hnow, rfl⟩ := List.cons.inj hes
  obtain rfl := (Event.mk.inj hnow).2
  obtain rfl := Except.ok.inj (Task.runs_pure.mp hpure).2
  have hmem : ∀ time, time ∈ monitor.retained times ↔
      time ∈ times ∧ ∀ other ∈ times, monitor.cutoff other ≤ time := fun _ => mem_retained
  rw [Labelled, forall_reported_iff h fun time =>
    (monitor.performance now state).generatedAt -
      ((monitor.performance now state).windowSeconds + 1) * 10000000 ≤ time]
  refine forall_congr' fun hconf => ?_
  show (∀ time ∈ monitor.retained times,
    now - ((monitor.performance now state).windowSeconds + 1) * 10000000 ≤ time) ↔ _
  rw [windowSeconds_of_sampling h hconf now]
  simp only [← and_imp, ← hmem]
  cases hretained : monitor.retained times with
  | nil => simp
  | cons oldest rest =>
    have hsorted : (oldest :: rest).Pairwise (· ≤ ·) :=
      hretained ▸ (pairwise_of_sampling h).filter _
    have holdest : oldest ≤ now :=
      hclock oldest ((hmem oldest).mp (hretained ▸ List.mem_cons_self ..)).1
    exact forall_covered_iff monitor hsorted holdest

/-! ### A label that is too short

Two rounds a minute apart, and a snapshot almost a minute after the second one. -/

/-- The smallest window that is admitted, sampled once a minute. -/
def minuteMonitor : ConnectivityMonitor Outcomes :=
  { exampleMonitor with options := { windowSeconds := 60 } }

/-- The history after a round at the start and one a minute later. -/
def minuteState : State :=
  minuteMonitor.complete (some 5) none 600000000 (minuteMonitor.complete (some 5) none 0 State.new)

theorem sampling_minuteState : minuteMonitor.Sampling [0, 600000000] minuteState := by
  have hrun : ∀ state now, Task.Runs (minuteMonitor.sampleOnceAsync state)
      ([⟨.inr (), some 5⟩] ++ [⟨.inl .getUtcNow, now⟩])
      (.ok (minuteMonitor.complete (some 5) none now state)) :=
    fun state now => .call _ (.call _ (.done _))
  exact (Sampling.start.completed (hrun _ 0) (by simp)).completed (hrun _ 600000000) (by simp)

/-- A second before the third round, the first one still counts for the uptime, and the label says
60 seconds. -/
theorem label_too_short :
    ∃ response, Task.Runs (minuteMonitor.snapshot minuteState) [⟨.getUtcNow, 1190000000⟩]
        (.ok response) ∧
      response.windowSeconds = 60 ∧ (⟨0, some 5⟩ : LatencySample) ∈ minuteState.samples .ipv4 ∧
      ¬ minuteMonitor.Labelled minuteState response := by
  have hwindow : (minuteMonitor.performance 1190000000 minuteState).windowSeconds = 60 :=
    (windowSeconds_of_sampling sampling_minuteState ⟨.ipv4, Nat.one_pos⟩ _).trans (by decide)
  have hmem : (⟨0, some 5⟩ : LatencySample) ∈ minuteState.samples .ipv4 := by decide
  refine ⟨minuteMonitor.performance 1190000000 minuteState, .call _ (.done _), hwindow, hmem, ?_⟩
  intro hlabelled
  have hage := hlabelled .ipv4 Nat.one_pos _ hmem
  rw [hwindow] at hage
  exact absurd hage (by decide)

/-- Right after the second round, the label covers both. -/
theorem labelled_minuteState :
    ∃ response, minuteMonitor.Labelled minuteState response :=
  ⟨minuteMonitor.performance 600000000 minuteState,
    (labelled_iff sampling_minuteState (by simp) (.call _ (.done _))).mpr fun _ => by decide⟩

end ConnectivityMonitor

end LookingGlass
