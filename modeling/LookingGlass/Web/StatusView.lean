import LookingGlass.Api.StatusService

/-!
# The status page

What the page says about the status it is told: a headline, and the components that it comes from.
The page leaves room for a status that no component accounts for; the API never sends one.

From the samples of the monitor to the headline there are three programs, and what the headline says
in the end is about the samples.

## Three programs

The monitor makes a report of its samples, with a status for each address family. The API asks for
that report and for whether the service is ready, and makes components of what it hears. The page
makes a headline and a list of names of the components.

The overall status is an outage if a core component is out, or if every family that is monitored is.
Anything else that is the matter degrades it. So the headline can be said in terms of samples: which
families are monitored, and whether the last attempts have failed in each of them. A service that
does not answer has no samples to tell of, and then it is only known that the headline does not say
that all is well.

## Main results

* `StatusView.describes_of_runs` — what the page says, in terms of the samples
-/

namespace LookingGlass

open Utf16 Interaction StatusService

inductive DisplayStatus
  | component (status : ServiceStatus)
  | unavailable
  deriving DecidableEq

structure OverallView where
  status : DisplayStatus
  headline : Str
  detail : Str
  deriving DecidableEq

namespace StatusView

/-- The names of the components that do not work as they should. -/
def affected (components : List ComponentStatus) : List Str :=
  (components.filter fun c => c.status == .degraded || c.status == .outage).map ComponentStatus.name

def describeOverall : Option StatusResponse → OverallView
  | none =>
    ⟨.unavailable, "Status unavailable",
      "The status service can't be reached right now. Diagnostics may still work, and this page keeps retrying."⟩
  | some status =>
    let affected := affected status.components
    match status.overall with
    | .operational => ⟨.component .operational, "Online", "All systems operational"⟩
    | .degraded =>
      ⟨.component .degraded, "Degraded",
        if affected.length ≠ 0 then concat ["Reduced performance: ", join ", " affected]
        else "Some components are degraded"⟩
    | .outage =>
      ⟨.component .outage, "Service disruption",
        if affected.length ≠ 0 then concat ["Affected: ", join ", " affected]
        else "Some components are unavailable"⟩
    | .notConfigured =>
      ⟨.unavailable, "Status unavailable", "The current status could not be determined."⟩

/-- The status is shown, with the components that it comes from. Which components are named depends
on their status alone, and they are named in their order. -/
structure Describes (components : List ComponentStatus) (overall : ServiceStatus)
    (view : OverallView) : Prop where
  status : view.status = .component overall
  detail : view.detail = match overall with
    | .operational => ofString "All systems operational"
    | .degraded => concat ["Reduced performance: ", join ", " (affected components)]
    | _ => concat ["Affected: ", join ", " (affected components)]
  accounted : overall = .operational ↔ affected components = []

theorem affected_eq_nil_iff {components : List ComponentStatus} :
    affected components = [] ↔ ¬ IsAffected components := by
  simp [affected, IsAffected, not_or]

theorem describes_describeOverall {response : StatusResponse}
    (h : response.overall = overall response.components) :
    Describes response.components response.overall (describeOverall (some response)) := by
  obtain ⟨status, checkedAt, version, components⟩ := response
  change status = overall components at h
  have haccounted : status = .operational ↔ affected components = [] := by
    rw [h, overall_eq_operational_iff, affected_eq_nil_iff]
  have hlength : status ≠ .operational → (affected components).length ≠ 0 := fun hne hlength =>
    hne (haccounted.mpr (List.length_eq_zero_iff.mp hlength))
  cases status with
  | notConfigured => exact absurd h.symm overall_ne_notConfigured
  | operational => exact ⟨rfl, rfl, haccounted⟩
  | degraded => exact ⟨rfl, if_pos (hlength (by decide)), haccounted⟩
  | outage => exact ⟨rfl, if_pos (hlength (by decide)), haccounted⟩

/-- **What the page says, in terms of the samples.** It shows the overall status and names the
components that account for it. Where the check has got measurements, there is a disruption if the
diagnostics service is not ready, or if there are families to monitor and the last attempts have
failed in each; the service is online if nothing is the matter anywhere. Where it has got none, the
service is never online. -/
theorem describes_of_runs {bgpEnabled isCancellationRequested : Bool} {version : Str}
    {es : List (Event StatusCalls)} {response : StatusResponse}
    (h : Task.Runs (buildAsync bgpEnabled isCancellationRequested version) es (.ok response)) :
    Describes response.components response.overall (describeOverall (some response)) ∧
      ∃ reply answer, Built bgpEnabled es reply answer response ∧
        (∀ (N : Interface) (monitor : ConnectivityMonitor N) state now,
          answer = .ok (monitor.performance now state) →
          Reports monitor state bgpEnabled (IsReady reply) response.overall) ∧
        ∀ ex, answer = .error ex →
          response.overall = if IsReady reply then .degraded else .outage := by
  obtain ⟨reply, answer, hbuilt, hreports, hnone⟩ := reports_of_runs h
  exact ⟨describes_describeOverall hbuilt.overall, reply, answer, hbuilt, hreports, hnone⟩

/-! The only family that is monitored is lost. -/

def exampleState : ConnectivityMonitor.State :=
  { ConnectivityMonitor.State.new with samples := fun _ => [⟨0, none⟩] }

def exampleAnswer : ∀ op, StatusCalls.Ret op
  | .getReady => Reply.response ⟨200, none, ⟨[], true⟩⟩
  | .getElapsed => (3 : Double)
  | .getPerformance =>
    Except.ok (ConnectivityMonitor.exampleMonitor.performance 0 exampleState)
  | .getUtcNow => (0 : ℤ)

theorem describes_of_lost :
    ∃ (es : List (Event StatusCalls)) (response : StatusResponse), response.overall = .outage ∧
      Describes response.components response.overall (describeOverall (some response)) ∧
      ∃ reply answer, Built false es reply answer response ∧
        (∀ (N : Interface) (monitor : ConnectivityMonitor N) state now,
          answer = .ok (monitor.performance now state) →
          Reports monitor state false (IsReady reply) response.overall) ∧
        ∀ ex, answer = .error ex →
          response.overall = if IsReady reply then .degraded else .outage :=
  ⟨_, _, rfl, describes_of_runs (Prog.run_simulate exampleAnswer
    (buildAsync false false "1.0.0").run)⟩

end StatusView

end LookingGlass
