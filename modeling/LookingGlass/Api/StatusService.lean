import LookingGlass.Api.DiagnosticsClient
import LookingGlass.Diagnostics.ConnectivityMonitor
import LookingGlass.Foundations.Interleaving

/-!
# The status of the service

The status page asks the diagnostics service whether it is ready and for its measurements, and makes
one status for everything out of six components. What decides it is on the other side: the samples
that the connectivity monitor has of each family when it is asked.

The overall status is an outage if the service itself is down, or if there is no connectivity in any
of the families that are monitored; BGP alone never is one. It does not depend on the order of the
components, and a component that gets worse never makes it better.

## Two layers

The rule for the overall status is a function of a list of components, and what it says about any
list is proved first: in three steps, whatever the order, and never better when something gets
worse. Which lists there are is another matter. There are six components, three of which depend on
what the diagnostics service answers, and two of these on the samples of its monitor. `Reports` puts
the two layers together, and is about the samples and the readiness only.

## Measurements that are not there

A performance response that cannot be had is not an error of the status page. The two families are
then reported as degraded, without a number, since nothing is known of them; and so the whole is not
operational, but it is no outage either unless the service is not ready.

## Main definitions

* `StatusService.buildAsync` — the checks and the response
* `StatusService.overall` — one status for all components

## Main results

* `StatusService.overall_mono`, `StatusService.overall_perm`
* `StatusService.reports_of_runs` — the overall status, in terms of the samples
-/

namespace LookingGlass

open Utf16 Interaction

structure ComponentStatus where
  id : Str
  name : Str
  status : ServiceStatus
  detail : Option Str := none
  latencyMs : Option Double := none
  deriving DecidableEq

structure StatusResponse where
  overall : ServiceStatus
  checkedAt : DateTimeOffset
  version : Str
  components : List ComponentStatus

inductive StatusOp
  /-- `http.GetAsync("health/ready", timeout.Token)` -/
  | getReady
  /-- `stopwatch.Elapsed.TotalMilliseconds` -/
  | getElapsed
  /-- `diagnostics.GetPerformanceAsync` -/
  | getPerformance
  | getUtcNow

abbrev StatusOp.Ret : StatusOp → Type
  | getReady => Reply
  | getElapsed => Double
  | getPerformance => Except Exn PerformanceResponse
  | getUtcNow => DateTimeOffset

abbrev StatusCalls : Interface := ⟨StatusOp, StatusOp.Ret⟩

/-- `CheckReadyAsync`, which gives up after two seconds -/
def DiagnosticsClient.checkReadyAsync (isCancellationRequested : Bool) :
    Task StatusCalls Exn (Option Double) :=
  tryCatch (do
    let response ← Task.call (I := StatusCalls) .getReady DiagnosticsClient.send
    if response.isSuccessStatusCode then
      let elapsed : Double ← Task.perform (I := StatusCalls) .getElapsed
      pure (some elapsed)
    else pure none)
    fun ex =>
      if (ex = .httpRequest ∨ ex = .operationCanceled) ∧ !isCancellationRequested then pure none
      else throw ex

/-- `DisabledBgpProvider.GetComponentAsync` -/
def DisabledBgpProvider.getComponentAsync (enabled : Bool) : ComponentStatus where
  id := "bgp"
  name := "BGP"
  status := if enabled then .outage else .notConfigured
  detail := some (if enabled then "BGP is enabled but no BGP provider is available."
    else "BGP is not enabled on this Looking Glass.")

/-- `DisabledBgpProvider.QueryAsync`, which throws this whatever is asked for on the four routes
under `/bgp`. -/
def DisabledBgpProvider.queryAsync {T : Type} : Except Exn T :=
  .error (.lookingGlass ⟨ProblemCodes.bgpUnavailable, 503,
    "BGP information is currently unavailable. The Looking Glass is still operational.", none⟩)

namespace StatusService

def connectivity (id name label : Str) : Option FamilyPerformance → ComponentStatus
  | none => {
      id := id
      name := name
      status := .degraded
      detail := some "Connectivity measurements are currently unavailable." }
  | some performance => {
      id := id
      name := name
      status := performance.status
      detail :=
        match performance.status with
        | .notConfigured => some (concat [label, " connectivity monitoring is not configured."])
        | .outage => some (concat ["No ", label, " connectivity detected."])
        | .degraded =>
          if performance.samples.length = 0 then some "Waiting for the first measurement."
          else some (concat ["Intermittent ", label, " connectivity."])
        | .operational => performance.avgLatencyMs.map fun avg =>
            concat ["Average latency ", avg.format 0 1, " ms"]
      latencyMs := performance.avgLatencyMs }

def coreIds : List Str := ["web", "api", "diagnostics"]

def ipIds : List Str := ["ipv4", "ipv6"]

def overall (components : List ComponentStatus) : ServiceStatus :=
  let core := (components.filter fun c => coreIds.contains c.id).map ComponentStatus.status
  if core.contains .outage then .outage
  else
    let ip := components.filter fun c => ipIds.contains c.id && c.status != .notConfigured
    if ip.length > 0 ∧ ip.all (fun c => c.status == .outage) then .outage
    else
      let rest := (components.filter fun c => c.status != .notConfigured).map ComponentStatus.status
      if rest.any (· != .operational) then .degraded else .operational

def components (bgpEnabled : Bool) (latency : Option Double) (perf : Option PerformanceResponse) :
    List ComponentStatus :=
  [{ id := "web", name := "Looking Glass", status := .operational },
    { id := "api", name := "API", status := .operational },
    { id := "diagnostics"
      name := "Diagnostics"
      status := if latency.isSome then .operational else .outage
      detail := if latency.isSome then none else some "The diagnostics service is not responding."
      latencyMs := latency.map (Double.round 1) },
    DisabledBgpProvider.getComponentAsync bgpEnabled,
    connectivity "ipv4" "IPv4 Connectivity" "IPv4" (perf.map PerformanceResponse.ipv4),
    connectivity "ipv6" "IPv6 Connectivity" "IPv6" (perf.map PerformanceResponse.ipv6)]

def tryGetPerformanceAsync : Task StatusCalls Exn (Option PerformanceResponse) :=
  Task.call (I := StatusCalls) .getPerformance fun answer => match answer with
    | .ok performance => .ok (some performance)
    | .error (.lookingGlass _) => .ok none
    | .error ex => .error ex

/-- Both checks are run to their ends, and a failure of either is one of the whole. -/
def buildAsync (bgpEnabled isCancellationRequested : Bool) (version : Str) :
    Task StatusCalls Exn StatusResponse := do
  let readiness ← Task.attempt (DiagnosticsClient.checkReadyAsync isCancellationRequested)
  let performance ← Task.attempt tryGetPerformanceAsync
  let _ ← Task.ofExcept (gather [readiness.map fun _ => (), performance.map fun _ => ()])
  let latency ← Task.ofExcept readiness
  let perf ← Task.ofExcept performance
  let components := components bgpEnabled latency perf
  let now : DateTimeOffset ← Task.perform (I := StatusCalls) .getUtcNow
  pure ⟨overall components, now, version, components⟩

/-! ### One status for all

`IsDown`, `IsOffline` and `IsAffected` are the three questions that decide, asked of the list and
not of its filters. -/

variable {cs cs' : List ComponentStatus}

/-- A component that the service cannot do without is down. -/
def IsDown (cs : List ComponentStatus) : Prop :=
  ∃ c ∈ cs, c.id ∈ coreIds ∧ c.status = .outage

/-- There is something to measure connectivity with, and none anywhere. -/
def IsOffline (cs : List ComponentStatus) : Prop :=
  (∃ c ∈ cs, c.id ∈ ipIds ∧ c.status = .outage) ∧
    ∀ c ∈ cs, c.id ∈ ipIds → c.status = .outage ∨ c.status = .notConfigured

/-- A component that there is does not work as it should. -/
def IsAffected (cs : List ComponentStatus) : Prop :=
  ∃ c ∈ cs, c.status = .degraded ∨ c.status = .outage

theorem contains_core_iff :
    ((cs.filter fun c => coreIds.contains c.id).map ComponentStatus.status).contains .outage =
      true ↔ IsDown cs := by
  simp [IsDown, and_assoc]

/-- The components that connectivity is measured with. -/
def measured (cs : List ComponentStatus) : List ComponentStatus :=
  cs.filter fun c => ipIds.contains c.id && c.status != .notConfigured

theorem mem_measured {c : ComponentStatus} :
    c ∈ measured cs ↔ c ∈ cs ∧ c.id ∈ ipIds ∧ c.status ≠ .notConfigured := by
  simp [measured]

theorem measured_iff :
    (measured cs).length > 0 ∧ (measured cs).all (fun c => c.status == .outage) = true ↔
      IsOffline cs := by
  rw [gt_iff_lt, List.length_pos_iff_exists_mem, List.all_eq_true]
  constructor
  · rintro ⟨⟨c, hc⟩, hall⟩
    refine ⟨⟨c, (mem_measured.mp hc).1, (mem_measured.mp hc).2.1, by simpa using hall c hc⟩, ?_⟩
    intro other hother hid
    by_cases hconfigured : other.status = .notConfigured
    · exact .inr hconfigured
    · exact .inl (by simpa using hall other (mem_measured.mpr ⟨hother, hid, hconfigured⟩))
  · rintro ⟨⟨c, hc, hid, hstatus⟩, hall⟩
    refine ⟨⟨c, mem_measured.mpr ⟨hc, hid, by simp [hstatus]⟩⟩, fun other hother => ?_⟩
    obtain ⟨hmem, hid, hconfigured⟩ := mem_measured.mp hother
    simpa using (hall other hmem hid).resolve_right hconfigured

theorem any_rest_iff :
    (((cs.filter fun c => c.status != .notConfigured).map ComponentStatus.status).any
      (· != .operational)) = true ↔ IsAffected cs := by
  have hstatus : ∀ status : ServiceStatus, status ≠ .notConfigured ∧ status ≠ .operational ↔
      status = .degraded ∨ status = .outage := by
    intro status
    cases status <;> simp
  simp [IsAffected, ← hstatus]

/-- The overall status, in three steps. -/
theorem overall_spec (cs : List ComponentStatus) :
    (overall cs = .outage ∧ (IsDown cs ∨ IsOffline cs)) ∨
      (overall cs = .degraded ∧ ¬ (IsDown cs ∨ IsOffline cs) ∧ IsAffected cs) ∨
      (overall cs = .operational ∧ ¬ IsAffected cs) := by
  simp only [overall]
  split
  · next hdown => exact .inl ⟨rfl, .inl (contains_core_iff.mp hdown)⟩
  · next hdown =>
    split
    · next hoffline => exact .inl ⟨rfl, .inr (measured_iff.mp hoffline)⟩
    · next hoffline =>
      split
      · next hrest =>
        refine .inr (.inl ⟨rfl, not_or.mpr ⟨?_, ?_⟩, any_rest_iff.mp hrest⟩)
        · exact fun h => hdown (contains_core_iff.mpr h)
        · exact fun h => hoffline (measured_iff.mpr h)
      · next hrest => exact .inr (.inr ⟨rfl, fun h => hrest (any_rest_iff.mpr h)⟩)

/-- What is down is affected. -/
theorem isAffected_of_outage (h : IsDown cs ∨ IsOffline cs) : IsAffected cs := by
  rcases h with ⟨c, hc, -, hstatus⟩ | ⟨⟨c, hc, -, hstatus⟩, -⟩ <;> exact ⟨c, hc, .inr hstatus⟩

theorem overall_eq_outage_iff : overall cs = .outage ↔ IsDown cs ∨ IsOffline cs := by
  rcases overall_spec cs with ⟨h, houtage⟩ | ⟨h, hnot, -⟩ | ⟨h, hnot⟩
  · exact iff_of_true h houtage
  · exact iff_of_false (by simp [h]) hnot
  · exact iff_of_false (by simp [h]) fun houtage => hnot (isAffected_of_outage houtage)

theorem overall_eq_operational_iff : overall cs = .operational ↔ ¬ IsAffected cs := by
  rcases overall_spec cs with ⟨h, houtage⟩ | ⟨h, -, haffected⟩ | ⟨h, hnot⟩
  · exact iff_of_false (by simp [h]) fun hnot => hnot (isAffected_of_outage houtage)
  · exact iff_of_false (by simp [h]) fun hnot => hnot haffected
  · exact iff_of_true h hnot

theorem overall_ne_notConfigured : overall cs ≠ .notConfigured := by
  rcases overall_spec cs with ⟨h, -⟩ | ⟨h, -⟩ | ⟨h, -⟩ <;> simp [h]

/-- The status is what it was, or worse. What is not configured stays so. -/
inductive Worsens : ServiceStatus → ServiceStatus → Prop
  | refl (status : ServiceStatus) : Worsens status status
  | degraded : Worsens .operational .degraded
  | outage {status : ServiceStatus} (h : status ≠ .notConfigured) : Worsens status .outage

theorem Worsens.eq_outage {status : ServiceStatus} (h : Worsens .outage status) :
    status = .outage := by
  cases h <;> rfl

theorem Worsens.notConfigured_iff {status status' : ServiceStatus} (h : Worsens status status') :
    status' = .notConfigured ↔ status = .notConfigured := by
  cases h with
  | refl => rfl
  | degraded => simp
  | outage h => simp [h]

theorem Worsens.isAffected {status status' : ServiceStatus} (h : Worsens status status')
    (haffected : status = .degraded ∨ status = .outage) :
    status' = .degraded ∨ status' = .outage := by
  cases h with
  | refl => exact haffected
  | degraded => exact .inl rfl
  | outage => exact .inr rfl

/-- Each component is what it was, or worse. -/
def ComponentsWorsen (cs cs' : List ComponentStatus) : Prop :=
  List.Forall₂ (fun c c' => c'.id = c.id ∧ Worsens c.status c'.status) cs cs'

theorem ComponentsWorsen.exists_mem (h : ComponentsWorsen cs cs') {c : ComponentStatus}
    (hc : c ∈ cs) : ∃ c' ∈ cs', c'.id = c.id ∧ Worsens c.status c'.status := by
  induction h with
  | nil => exact absurd hc (List.not_mem_nil)
  | cons hhead _ ih =>
    rcases List.mem_cons.mp hc with rfl | hc
    · exact ⟨_, List.mem_cons_self .., hhead⟩
    · obtain ⟨c', hc', hrest⟩ := ih hc
      exact ⟨c', List.mem_cons_of_mem _ hc', hrest⟩

theorem ComponentsWorsen.exists_mem_of_mem (h : ComponentsWorsen cs cs') {c' : ComponentStatus}
    (hc' : c' ∈ cs') : ∃ c ∈ cs, c'.id = c.id ∧ Worsens c.status c'.status := by
  induction h with
  | nil => exact absurd hc' (List.not_mem_nil)
  | cons hhead _ ih =>
    rcases List.mem_cons.mp hc' with rfl | hc'
    · exact ⟨_, List.mem_cons_self .., hhead⟩
    · obtain ⟨c, hc, hrest⟩ := ih hc'
      exact ⟨c, List.mem_cons_of_mem _ hc, hrest⟩

theorem isOutage_of_componentsWorsen (h : ComponentsWorsen cs cs')
    (houtage : IsDown cs ∨ IsOffline cs) : IsDown cs' ∨ IsOffline cs' := by
  rcases houtage with ⟨c, hc, hid, hstatus⟩ | ⟨⟨c, hc, hid, hstatus⟩, hall⟩
  · obtain ⟨c', hc', hid', hworse⟩ := h.exists_mem hc
    exact .inl ⟨c', hc', hid' ▸ hid, (hstatus ▸ hworse).eq_outage⟩
  · obtain ⟨c', hc', hid', hworse⟩ := h.exists_mem hc
    refine .inr ⟨⟨c', hc', hid' ▸ hid, (hstatus ▸ hworse).eq_outage⟩, fun other' hother' hip => ?_⟩
    obtain ⟨other, hother, hidOther, hworseOther⟩ := h.exists_mem_of_mem hother'
    rcases hall other hother (hidOther ▸ hip) with hstatus' | hstatus'
    · exact .inl (hstatus' ▸ hworseOther).eq_outage
    · exact .inr (hworseOther.notConfigured_iff.mpr hstatus')

/-- The overall status is about which components there are. -/
theorem overall_eq_of_perm (h : cs.Perm cs') : overall cs = overall cs' := by
  have hdown : IsDown cs ↔ IsDown cs' := exists_congr fun c => and_congr_left' h.mem_iff
  have hoffline : IsOffline cs ↔ IsOffline cs' :=
    and_congr (exists_congr fun c => and_congr_left' h.mem_iff)
      (forall_congr' fun c => imp_congr_left h.mem_iff)
  have haffected : IsAffected cs ↔ IsAffected cs' :=
    exists_congr fun c => and_congr_left' h.mem_iff
  have hspec := overall_spec cs
  have hspec' := overall_spec cs'
  have haffected' : IsDown cs' ∨ IsOffline cs' → IsAffected cs' := isAffected_of_outage
  rw [hdown, hoffline, haffected] at hspec
  rcases hspec with ⟨h, hc⟩ | ⟨h, hc, hc'⟩ | ⟨h, hc⟩ <;>
    rcases hspec' with ⟨h', hd⟩ | ⟨h', hd, hd'⟩ | ⟨h', hd⟩ <;> simp_all

theorem worsens_of_componentsWorsen (h : ComponentsWorsen cs cs') :
    Worsens (overall cs) (overall cs') := by
  rcases overall_spec cs with ⟨hcs, houtage⟩ | ⟨hcs, -, c, hc, hstatus⟩ | ⟨hcs, -⟩
  · rw [hcs, overall_eq_outage_iff.mpr (isOutage_of_componentsWorsen h houtage)]
    exact .refl _
  · obtain ⟨c', hc', -, hworse⟩ := h.exists_mem hc
    have haffected : IsAffected cs' := ⟨c', hc', hworse.isAffected hstatus⟩
    rw [hcs]
    rcases overall_spec cs' with ⟨hcs', -⟩ | ⟨hcs', -⟩ | ⟨-, hnot⟩
    · rw [hcs']
      exact .outage (by decide)
    · rw [hcs']
      exact .refl _
    · exact absurd haffected hnot
  · rw [hcs]
    rcases overall_spec cs' with ⟨hcs', -⟩ | ⟨hcs', -⟩ | ⟨hcs', -⟩ <;> rw [hcs']
    · exact .outage (by decide)
    · exact .degraded
    · exact .refl _

/-- **A component that gets worse never makes the whole better**, in whichever order the components
are. -/
theorem overall_mono {cs'' : List ComponentStatus} (h : ComponentsWorsen cs cs'')
    (hperm : cs''.Perm cs') : Worsens (overall cs) (overall cs') := by
  rw [← overall_eq_of_perm hperm]
  exact worsens_of_componentsWorsen h

def exampleComponent (id : Str) (status : ServiceStatus) : ComponentStatus :=
  { id := id, name := id, status := status }

theorem overall_mono_of_lost :
    Worsens (overall [exampleComponent "web" .operational, exampleComponent "ipv4" .operational])
      (overall [exampleComponent "ipv4" .outage, exampleComponent "web" .operational]) := by
  have h : ComponentsWorsen
      [exampleComponent "web" .operational, exampleComponent "ipv4" .operational]
      [exampleComponent "web" .operational, exampleComponent "ipv4" .outage] :=
    .cons ⟨rfl, .refl _⟩ (.cons ⟨rfl, .outage nofun⟩ .nil)
  exact overall_mono h (.swap _ _ _)

/-! ### The checks

Both checks are run to their ends before either result is looked at, so a run has the calls of both.
-/

section

variable {bgpEnabled isCancellationRequested : Bool} {version : Str}
  {es : List (Event StatusCalls)} {response : StatusResponse}

/-- The diagnostics service has answered, in time, that it is ready. -/
def IsReady : Reply → Bool
  | .response response => response.isSuccessStatusCode
  | _ => false

/-- One request, and a look at the stopwatch if it was answered well. -/
def Checked (es : List (Event StatusCalls)) (x : Except Exn (Option Double)) : Prop :=
  ∃ reply timed, es = ⟨.getReady, reply⟩ :: timed ∧ (∀ e ∈ timed, e.op = .getElapsed) ∧
    ∀ latency, x = .ok latency → latency.isSome = IsReady reply

theorem follows_checkReadyAsync :
    Task.Follows (Task.history StatusCalls) Checked
      (DiagnosticsClient.checkReadyAsync isCancellationRequested) [] := by
  refine Task.follows_tryCatch.mpr (Task.follows_bind.mpr ⟨trivial, fun reply => ?_⟩)
  have hfails : ∀ ex, IsReady reply = false → Task.Follows (Task.history StatusCalls) Checked
      (if (ex = Exn.httpRequest ∨ ex = .operationCanceled) ∧ !isCancellationRequested then pure none
        else throw ex) [⟨.getReady, reply⟩] := by
    intro ex hready
    have hnone : Checked [⟨.getReady, reply⟩] (.ok none) :=
      ⟨reply, [], rfl, by simp, fun latency h => by rw [hready, ← Except.ok.inj h]; rfl⟩
    have herror : Checked [⟨.getReady, reply⟩] (.error ex) :=
      ⟨reply, [], rfl, by simp, fun latency h => (nomatch h)⟩
    exact Task.follows_ite.mpr ⟨fun _ => hnone, fun _ => herror⟩
  cases reply with
  | failed => exact hfails _ rfl
  | timedOut => exact hfails _ rfl
  | response response =>
    refine Task.follows_ite.mpr ⟨fun hsuccess => ?_, fun hsuccess => ?_⟩
    · refine Task.follows_bind.mpr ⟨trivial, fun elapsed => ?_⟩
      refine ⟨.response response, [⟨.getElapsed, elapsed⟩], rfl, by simp, fun latency h => ?_⟩
      rw [← Except.ok.inj h]
      exact hsuccess.symm
    · refine ⟨.response response, [], rfl, by simp, fun latency h => ?_⟩
      rw [← Except.ok.inj h]
      exact (Bool.eq_false_iff.mpr hsuccess).symm

/-- The response that the two checks lead to. -/
structure Built (bgpEnabled : Bool) (es : List (Event StatusCalls)) (reply : Reply)
    (answer : Except Exn PerformanceResponse) (response : StatusResponse) : Prop where
  events : ∃ timed now, es = ⟨.getReady, reply⟩ ::
    (timed ++ [⟨.getPerformance, answer⟩, ⟨.getUtcNow, now⟩]) ∧ ∀ e ∈ timed, e.op = .getElapsed
  components : ∃ latency, latency.isSome = IsReady reply ∧
    response.components = StatusService.components bgpEnabled latency answer.toOption
  overall : response.overall = StatusService.overall response.components
  known : ∀ ex, answer = .error ex → ∃ ex', ex = .lookingGlass ex'

theorem exists_built_of_runs
    (h : Task.Runs (buildAsync bgpEnabled isCancellationRequested version) es (.ok response)) :
    ∃ reply answer, Built bgpEnabled es reply answer response := by
  obtain ⟨fst, readiness, snd, rfl, hready, hrest⟩ := Task.runs_attempt_bind.mp h
  obtain ⟨reply, timed, rfl, htimed, hlatency⟩ := Task.post_of_runs follows_checkReadyAsync hready
  obtain ⟨fst', performance, rest, rfl, hperformance, hgather⟩ := Task.runs_attempt_bind.mp hrest
  obtain ⟨answer, rfl, hanswer⟩ := Task.runs_call.mp hperformance
  obtain ⟨_, -, -, hfail⟩ | ⟨_, -, hboth⟩ := Task.runs_ofExcept_bind.mp hgather
  · exact absurd hfail nofun
  obtain ⟨_, -, -, hfail⟩ | ⟨latency, hreadiness, hlast⟩ := Task.runs_ofExcept_bind.mp hboth
  · exact absurd hfail nofun
  obtain ⟨_, -, -, hfail⟩ | ⟨perf, hperf, hnow⟩ := Task.runs_ofExcept_bind.mp hlast
  · exact absurd hfail nofun
  obtain ⟨now, tail, rfl, hpure⟩ := Task.runs_perform_bind.mp hnow
  obtain ⟨rfl, hresponse⟩ := Task.runs_pure.mp hpure
  obtain rfl := Except.ok.inj hresponse
  have hknown : perf = answer.toOption ∧
      ∀ ex, answer = .error ex → ∃ ex', ex = .lookingGlass ex' := by
    subst hanswer
    match answer, hperf with
    | .ok performance, hperf => exact ⟨(Except.ok.inj hperf).symm, fun _ h => (nomatch h)⟩
    | .error (.lookingGlass ex'), hperf =>
      exact ⟨(Except.ok.inj hperf).symm, fun ex h => ⟨ex', (Except.error.inj h).symm⟩⟩
  obtain ⟨rfl, hknown⟩ := hknown
  exact ⟨reply, answer, ⟨timed, now, rfl, htimed⟩, ⟨latency, hlatency latency hreadiness, rfl⟩, rfl,
    hknown⟩

end

/-! ### What the samples say

A family is connected or lost by its last samples, and this is what the status of its component
comes from. -/

variable {N : Interface} {monitor : ConnectivityMonitor N} {state : ConnectivityMonitor.State}
  {family : IpVersion}

/-- The last attempt to reach a target of the family was a success. -/
def IsConnected (state : ConnectivityMonitor.State) (family : IpVersion) : Prop :=
  ∃ last, (state.samples family).getLast? = some last ∧ last.latencyMs.isSome = true

/-- The last attempt failed, and so did most of the last five. With fewer than five samples it is
about all of them. -/
def IsLost (state : ConnectivityMonitor.State) (family : IpVersion) : Prop :=
  let recent := (state.samples family).drop ((state.samples family).length - 5)
  ∃ last, (state.samples family).getLast? = some last ∧ last.latencyMs = none ∧
    2 * recent.countP (fun s => s.latencyMs.isSome) < recent.length

def IsMonitored (monitor : ConnectivityMonitor N) (family : IpVersion) : Prop :=
  (monitor.targets family).length > 0

instance : Decidable (IsMonitored monitor family) := inferInstanceAs (Decidable (_ > _))

/-- The status of a family that is not monitored, or of one that is. -/
theorem status_summarise :
    let status := (ConnectivityMonitor.summarise state family
      (decide (IsMonitored monitor family))).status
    (¬ IsMonitored monitor family ∧ status = .notConfigured) ∨ IsMonitored monitor family ∧
      ((status = .operational ∧ IsConnected state family ∧ ¬ IsLost state family) ∨
        (status = .degraded ∧ ¬ IsConnected state family ∧ ¬ IsLost state family) ∨
        (status = .outage ∧ ¬ IsConnected state family ∧ IsLost state family)) := by
  by_cases hmonitored : IsMonitored monitor family
  · refine .inr ⟨hmonitored, ?_⟩
    simp only [ConnectivityMonitor.summarise, hmonitored, decide_true, Bool.not_true,
      Bool.false_eq_true, if_false]
    cases hlast : (state.samples family).getLast? with
    | none => simp [IsConnected, IsLost, hlast]
    | some last =>
      cases hlatency : last.latencyMs with
      | some latency => simp [IsConnected, IsLost, hlast, hlatency]
      | none =>
        by_cases hrecent : ((state.samples family).drop ((state.samples family).length - 5)).countP
            (fun s => s.latencyMs.isSome) * 2 ≥
              ((state.samples family).drop ((state.samples family).length - 5)).length
        · simp only [hlatency, Option.isSome_none, Bool.false_eq_true, if_false, hrecent, if_true]
          refine .inr (.inl ⟨trivial, ?_, ?_⟩)
          · simp [IsConnected, hlast, hlatency]
          · rintro ⟨-, -, -, hlt⟩
            omega
        · simp only [hlatency, Option.isSome_none, Bool.false_eq_true, if_false, hrecent]
          refine .inr (.inr ⟨trivial, ?_, last, hlast, hlatency, ?_⟩)
          · simp [IsConnected, hlast, hlatency]
          · omega
  · refine .inl ⟨hmonitored, ?_⟩
    simp [ConnectivityMonitor.summarise, hmonitored]

theorem connectivity_id {id name label : Str} (p : Option FamilyPerformance) :
    (connectivity id name label p).id = id := by
  cases p <;> rfl

theorem connectivity_status {id name label : Str} (p : Option FamilyPerformance) :
    (connectivity id name label p).status = (p.map FamilyPerformance.status).getD .degraded := by
  cases p <;> rfl

section

variable {bgpEnabled : Bool} {latency : Option Double} {perf : Option PerformanceResponse}

/-- The status of the connectivity in a family, without measurements a doubtful one. -/
def familyStatus (perf : Option PerformanceResponse) : IpVersion → ServiceStatus
  | .ipv4 => ((perf.map PerformanceResponse.ipv4).map FamilyPerformance.status).getD .degraded
  | .ipv6 => ((perf.map PerformanceResponse.ipv6).map FamilyPerformance.status).getD .degraded

/-- What holds of a component that is among the six. -/
theorem exists_components_iff {p : Str → ServiceStatus → Prop} :
    (∃ c ∈ components bgpEnabled latency perf, p c.id c.status) ↔
      p "web" .operational ∨ p "api" .operational ∨
      p "diagnostics" (if latency.isSome then .operational else .outage) ∨
      p "bgp" (if bgpEnabled then .outage else .notConfigured) ∨
      p "ipv4" (familyStatus perf .ipv4) ∨ p "ipv6" (familyStatus perf .ipv6) := by
  simp only [components, List.mem_cons, List.not_mem_nil, or_false, exists_eq_or_imp,
    exists_eq_left, connectivity_id, connectivity_status]
  rfl

theorem isDown_components :
    IsDown (components bgpEnabled latency perf) ↔ latency.isSome = false := by
  rw [IsDown, exists_components_iff (p := fun id status => id ∈ coreIds ∧ status = .outage)]
  have hweb : ofString "diagnostics" ∈ coreIds := by decide
  have hbgp : ofString "bgp" ∉ coreIds := by decide
  have hipv4 : ofString "ipv4" ∉ coreIds := by decide
  have hipv6 : ofString "ipv6" ∉ coreIds := by decide
  cases latency <;> simp [hweb, hbgp, hipv4, hipv6]

theorem exists_family_iff {p : IpVersion → Prop} : (∃ family, p family) ↔ p .ipv4 ∨ p .ipv6 :=
  ⟨fun ⟨family, h⟩ => by cases family <;> simp [h],
    fun h => h.elim (fun h => ⟨_, h⟩) fun h => ⟨_, h⟩⟩

theorem isOffline_components :
    IsOffline (components bgpEnabled latency perf) ↔
      (∃ family, familyStatus perf family = .outage) ∧
        ∀ family, familyStatus perf family = .outage ∨
          familyStatus perf family = .notConfigured := by
  have hforall : ∀ {p : Str → ServiceStatus → Prop},
      (∀ c ∈ components bgpEnabled latency perf, c.id ∈ ipIds → p c.id c.status) ↔
        ¬ ∃ c ∈ components bgpEnabled latency perf, c.id ∈ ipIds ∧ ¬ p c.id c.status := by
    intro p
    push Not
    rfl
  have hcore : ofString "web" ∉ ipIds ∧ ofString "api" ∉ ipIds ∧ ofString "diagnostics" ∉ ipIds ∧
      ofString "bgp" ∉ ipIds ∧ ofString "ipv4" ∈ ipIds ∧ ofString "ipv6" ∈ ipIds := by decide
  obtain ⟨hweb, hapi, hdiagnostics, hbgp, hipv4, hipv6⟩ := hcore
  rw [IsOffline, hforall (p := fun _ status => status = .outage ∨ status = .notConfigured),
    exists_components_iff (p := fun id status => id ∈ ipIds ∧ status = .outage),
    exists_components_iff (p := fun id status => id ∈ ipIds ∧
      ¬ (status = .outage ∨ status = .notConfigured)), exists_family_iff]
  simp only [hweb, hapi, hdiagnostics, hbgp, hipv4, hipv6, false_and, true_and, false_or]
  refine and_congr_right fun _ => ?_
  rw [not_or, not_not, not_not]
  exact ⟨fun h family => by cases family <;> simp [h], fun h => ⟨h _, h _⟩⟩

theorem isAffected_components :
    IsAffected (components bgpEnabled latency perf) ↔
      latency.isSome = false ∨ bgpEnabled = true ∨
        ∃ family, familyStatus perf family = .degraded ∨ familyStatus perf family = .outage := by
  rw [IsAffected,
    exists_components_iff (p := fun _ status => status = .degraded ∨ status = .outage),
    exists_family_iff]
  cases latency <;> cases bgpEnabled <;> simp

end

/-- What the overall status says: each of its values is equivalent to a condition on the readiness
and on the samples. The third value is what is left, and a fourth one never comes. -/
structure Reports (monitor : ConnectivityMonitor N) (state : ConnectivityMonitor.State)
    (bgpEnabled isReady : Bool) (overall : ServiceStatus) : Prop where
  outage : overall = .outage ↔ isReady = false ∨
    (∃ family, IsMonitored monitor family) ∧
      ∀ family, IsMonitored monitor family → IsLost state family
  operational : overall = .operational ↔ isReady = true ∧ bgpEnabled = false ∧
    ∀ family, IsMonitored monitor family → IsConnected state family
  configured : overall ≠ .notConfigured

/-- The status of a family in a snapshot. -/
theorem familyStatus_performance (now : DateTimeOffset) (family : IpVersion) :
    let status := familyStatus (some (monitor.performance now state)) family
    (status = .outage ↔ IsMonitored monitor family ∧ IsLost state family) ∧
      (status = .notConfigured ↔ ¬ IsMonitored monitor family) ∧
      (status = .degraded ∨ status = .outage ↔
        IsMonitored monitor family ∧ ¬ IsConnected state family) := by
  have hstatus : familyStatus (some (monitor.performance now state)) family =
      (ConnectivityMonitor.summarise state family
        (decide (IsMonitored monitor family))).status := by
    cases family <;> rfl
  rw [hstatus]
  rcases @status_summarise N monitor state family with
    ⟨hmonitored, h⟩ | ⟨hmonitored, ⟨h, hconnected, hlost⟩ | ⟨h, hconnected, hlost⟩ |
      ⟨h, hconnected, hlost⟩⟩ <;> simp only [h] <;> simp [*]

theorem reports_components {bgpEnabled : Bool} {latency : Option Double} (now : DateTimeOffset) :
    Reports monitor state bgpEnabled latency.isSome
      (overall (components bgpEnabled latency (some (monitor.performance now state)))) := by
  have hstatus := @familyStatus_performance N monitor state now
  refine ⟨?_, ?_, overall_ne_notConfigured⟩
  · rw [overall_eq_outage_iff, isDown_components, isOffline_components]
    refine or_congr_right ⟨fun ⟨⟨family, h⟩, hall⟩ => ?_, fun ⟨⟨family, h⟩, hall⟩ => ?_⟩
    · refine ⟨⟨family, ((hstatus family).1.mp h).1⟩, fun other hother => ?_⟩
      rcases hall other with hout | hnone
      · exact ((hstatus other).1.mp hout).2
      · exact absurd hother ((hstatus other).2.1.mp hnone)
    · refine ⟨⟨family, (hstatus family).1.mpr ⟨h, hall family h⟩⟩, fun other => ?_⟩
      by_cases hother : IsMonitored monitor other
      · exact .inl ((hstatus other).1.mpr ⟨hother, hall other hother⟩)
      · exact .inr ((hstatus other).2.1.mpr hother)
  · rw [overall_eq_operational_iff, isAffected_components, not_or, not_or, Bool.not_eq_false,
      Bool.not_eq_true, not_exists]
    refine and_congr_right fun _ => and_congr_right fun _ => forall_congr' fun family => ?_
    rw [(hstatus family).2.2, not_and, not_not]

/-- Without measurements nobody knows about the connectivity. -/
theorem overall_components_none {bgpEnabled : Bool} {latency : Option Double} :
    overall (components bgpEnabled latency none) =
      if latency.isSome then .degraded else .outage := by
  have hfamily : ∀ family, familyStatus none family = .degraded := fun family => by
    cases family <;> rfl
  have haffected : IsAffected (components bgpEnabled latency none) :=
    isAffected_components.mpr (.inr (.inr ⟨.ipv4, .inl (hfamily .ipv4)⟩))
  rcases overall_spec (components bgpEnabled latency none) with
    ⟨h, hdown | hoffline⟩ | ⟨h, hnot, -⟩ | ⟨-, hnot⟩
  · rw [h, isDown_components.mp hdown]
    rfl
  · obtain ⟨⟨family, houtage⟩, -⟩ := isOffline_components.mp hoffline
    exact absurd ((hfamily family).symm.trans houtage) (by decide)
  · have hready : latency.isSome = true := by
      rw [← Bool.not_eq_false]
      exact fun hdown => hnot (.inl (isDown_components.mpr hdown))
    rw [h, hready]
    rfl
  · exact absurd haffected hnot

/-- **The overall status, in terms of the samples.** Where the check has got measurements, it is an
outage if the diagnostics service is not ready, or if there are families to monitor and the last
attempts have failed in each; it is operational if nothing is the matter anywhere. Where it has got
none, it is never operational. -/
theorem reports_of_runs {bgpEnabled isCancellationRequested : Bool} {version : Str}
    {es : List (Event StatusCalls)} {response : StatusResponse}
    (h : Task.Runs (buildAsync bgpEnabled isCancellationRequested version) es (.ok response)) :
    ∃ reply answer, Built bgpEnabled es reply answer response ∧
      (∀ (N : Interface) (monitor : ConnectivityMonitor N) state now,
        answer = .ok (monitor.performance now state) →
        Reports monitor state bgpEnabled (IsReady reply) response.overall) ∧
      (∀ ex, answer = .error ex →
        response.overall = if IsReady reply then .degraded else .outage) := by
  obtain ⟨reply, answer, hbuilt⟩ := exists_built_of_runs h
  obtain ⟨latency, hlatency, hcomponents⟩ := hbuilt.components
  refine ⟨reply, answer, hbuilt, ?_, ?_⟩
  · rintro N monitor state now rfl
    rw [hbuilt.overall, hcomponents, ← hlatency]
    exact reports_components now
  · rintro ex rfl
    rw [hbuilt.overall, hcomponents, ← hlatency]
    exact overall_components_none

end StatusService

end LookingGlass
