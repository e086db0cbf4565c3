import Mathlib.Data.List.Basic
import Mathlib.Data.Option.Basic
import Mathlib.Tactic.Common

/-!
# The hook behind a diagnostic form

Every call of `run` waits for a promise of its own, and nothing stops the visitor from starting
another one, cancelling, or clearing the form before it settles. The promises settle in any order,
also after they have been aborted, and what follows the `await` then finds the hook in a state that
may belong to another run. The reference to the controller is what tells it: a run goes on only
while the controller in the reference is its own.

`Action`s are the calls of the visitor and the settlements; a history lists them, the newest first.
A run is known by the number of its controller. What promises resolve or reject with is left open,
as are the two functions of `lib/api/errors` that sort out rejections.

## Stale runs

A run is stale once there was another one after it, or a reset. Its promise goes on waiting, since
aborting a request does not settle it by itself, and a cancelled run may even succeed: the answer
was under way when the visitor gave up. It is then shown, as it is about the run on the screen.

So what protects the screen from a stale run is not that it was aborted. The invariant says that the
reference holds the number of the most recent run since the last reset, and that a run that waits
with that number is that run, with its kind and its request.

## Main results

* `UseDiagnostic.shows_of_reached` — what is shown is about the most recent run since the last
  reset, and no other run ever changes it
-/

namespace LookingGlass

/-- The functions of `lib/api/errors` that the hook calls. -/
structure ApiErrors (Caught PlainApiError : Type) where
  isAbortError : Caught → Bool
  toPlainError : Caught → PlainApiError

namespace UseDiagnostic

inductive DiagnosticKind
  | ping
  | traceroute
  | mtr
  | dns
  deriving DecidableEq

inductive DiagnosticStatus
  | idle
  | running
  | success
  | error
  | cancelled
  deriving DecidableEq

structure DiagnosticState (Request Result PlainApiError : Type) where
  status : DiagnosticStatus
  kind : Option DiagnosticKind
  request : Option Request
  result : Option Result
  error : Option PlainApiError
  deriving DecidableEq

/-- `IDLE`. -/
def DiagnosticState.idle {Request Result PlainApiError : Type} :
    DiagnosticState Request Result PlainApiError :=
  ⟨.idle, none, none, none, none⟩

variable {Request Result Caught PlainApiError : Type}

/-- A call of `run` that waits for its promise. -/
structure Run (Request : Type) where
  controller : ℕ
  kind : DiagnosticKind
  request : Request

inductive Settlement (Result Caught : Type)
  | resolved (result : Result)
  | rejected (caught : Caught)

inductive Action (Request Result Caught : Type)
  | run (kind : DiagnosticKind) (request : Request)
  | cancel
  | reset
  | settle (controller : ℕ) (settlement : Settlement Result Caught)

/-- The state of the hook, the controllers it has made and the runs that wait. -/
structure Hook (Request Result PlainApiError : Type) where
  state : DiagnosticState Request Result PlainApiError
  attempt : ℕ
  controllerRef : Option ℕ
  /-- Controllers are numbered as they are made. -/
  controllers : ℕ
  aborted : List ℕ
  waiting : List (Run Request)

namespace Hook

variable (hook : Hook Request Result PlainApiError)

def new : Hook Request Result PlainApiError := ⟨.idle, 0, none, 0, [], []⟩

/-- `controllerRef.current?.abort()`. -/
def abort : Hook Request Result PlainApiError :=
  { hook with aborted := hook.controllerRef.toList ++ hook.aborted }

/-- The part of `run` before the `await`. -/
def run (kind : DiagnosticKind) (request : Request) : Hook Request Result PlainApiError :=
  let controller := hook.controllers
  { hook.abort with
    controllers := controller + 1
    controllerRef := some controller
    attempt := hook.attempt + 1
    state := ⟨.running, some kind, some request, none, none⟩
    waiting := ⟨controller, kind, request⟩ :: hook.waiting }

def cancel : Hook Request Result PlainApiError := hook.abort

def reset : Hook Request Result PlainApiError :=
  { hook.abort with controllerRef := none, state := .idle }

/-- The part of `run` after the `await`. -/
def resume (errors : ApiErrors Caught PlainApiError) (run : Run Request) :
    Settlement Result Caught → Hook Request Result PlainApiError
  | .resolved result =>
    if hook.controllerRef ≠ some run.controller then hook
    else { hook with state := ⟨.success, some run.kind, some run.request, some result, none⟩ }
  | .rejected caught =>
    if hook.controllerRef ≠ some run.controller then hook
    else if run.controller ∈ hook.aborted ∨ errors.isAbortError caught then
      { hook with state := ⟨.cancelled, some run.kind, some run.request, none, none⟩ }
    else
      { hook with
        state :=
          ⟨.error, some run.kind, some run.request, none, some (errors.toPlainError caught)⟩ }

/-- A promise settles once, so a settlement takes a run from those that wait. -/
def step (errors : ApiErrors Caught PlainApiError) :
    Action Request Result Caught → Option (Hook Request Result PlainApiError)
  | .run kind request => some (hook.run kind request)
  | .cancel => some hook.cancel
  | .reset => some hook.reset
  | .settle controller settlement => do
    let run ← hook.waiting.find? (·.controller == controller)
    let waiting := hook.waiting.filter (·.controller != controller)
    return { hook with waiting := waiting }.resume errors run settlement

end Hook

/-! ### Histories

The most recent run since the last reset is read off the history, and so is what may be shown. -/

/-- How many runs there have been. -/
def started : List (Action Request Result Caught) → ℕ
  | [] => 0
  | .run _ _ :: earlier => started earlier + 1
  | _ :: earlier => started earlier

/-- The most recent run since the last reset. -/
def latestRun : List (Action Request Result Caught) → Option (Run Request)
  | [] => none
  | .run kind request :: earlier => some ⟨started earlier, kind, request⟩
  | .reset :: _ => none
  | .cancel :: earlier => latestRun earlier
  | .settle _ _ :: earlier => latestRun earlier

/-- The hook after any sequence of calls and settlements. A promise settles at most once, at any
time after it was made, or never. -/
inductive Reached (errors : ApiErrors Caught PlainApiError) :
    List (Action Request Result Caught) → Hook Request Result PlainApiError → Prop
  | new : Reached errors [] Hook.new
  | step {history : List (Action Request Result Caught)} {action : Action Request Result Caught}
      {hook hook' : Hook Request Result PlainApiError} (before : Reached errors history hook)
      (next : hook.step errors action = some hook') : Reached errors (action :: history) hook'

/-- What is on the screen belongs to the most recent run since the last reset: its kind and its
request, and an outcome only if its own promise has settled with it. -/
structure Shows (errors : ApiErrors Caught PlainApiError)
    (history : List (Action Request Result Caught))
    (state : DiagnosticState Request Result PlainApiError) : Prop where
  idle : latestRun history = none → state = .idle
  kind : state.kind = (latestRun history).map (·.kind)
  request : state.request = (latestRun history).map (·.request)
  result : ∀ result ∈ state.result, ∃ run ∈ latestRun history,
    .settle run.controller (.resolved result) ∈ history
  error : ∀ error ∈ state.error, ∃ run ∈ latestRun history, ∃ caught,
    .settle run.controller (.rejected caught) ∈ history ∧ error = errors.toPlainError caught
  exclusive : state.result = none ∨ state.error = none

variable {errors : ApiErrors Caught PlainApiError}
  {history : List (Action Request Result Caught)} {action : Action Request Result Caught}
  {hook hook' : Hook Request Result PlainApiError} {run : Run Request}
  {settlement : Settlement Result Caught}

/-- Nothing new has happened to the most recent run. -/
theorem Shows.of_stale (h : Shows errors history hook.state)
    (hlatest : latestRun (action :: history) = latestRun history) :
    Shows errors (action :: history) hook.state where
  idle := hlatest ▸ h.idle
  kind := hlatest ▸ h.kind
  request := hlatest ▸ h.request
  result result hresult := by
    obtain ⟨run, hrun, hsettled⟩ := h.result result hresult
    exact ⟨run, hlatest ▸ hrun, List.mem_cons_of_mem _ hsettled⟩
  error error herror := by
    obtain ⟨run, hrun, caught, hsettled, rfl⟩ := h.error error herror
    exact ⟨run, hlatest ▸ hrun, caught, List.mem_cons_of_mem _ hsettled, rfl⟩
  exclusive := h.exclusive

/-! ### One step

What one call or settlement does to the state, for a run that is stale and for one that is not. -/

/-- What the hook knows of its history. A run that waits and has the number of the most recent one
is that one, so what it writes is about the right request. -/
structure Consistent (history : List (Action Request Result Caught))
    (hook : Hook Request Result PlainApiError) : Prop where
  controllers : hook.controllers = started history
  controllerRef : hook.controllerRef = (latestRun history).map (·.controller)
  waiting_lt : ∀ run ∈ hook.waiting, run.controller < started history
  waiting_latest : ∀ run ∈ hook.waiting, ∀ latest ∈ latestRun history,
    run.controller = latest.controller → run = latest

/-- What follows the `await` changes nothing but the state. -/
theorem resume_eq (hook : Hook Request Result PlainApiError) (run : Run Request)
    (settlement : Settlement Result Caught) :
    hook.resume errors run settlement =
      { hook with state := (hook.resume errors run settlement).state } := by
  cases settlement with
  | resolved result =>
    simp only [Hook.resume]
    split <;> rfl
  | rejected caught =>
    simp only [Hook.resume]
    split
    · rfl
    · split <;> rfl

/-- A run whose controller is not in the reference does nothing. -/
theorem resume_of_stale (h : hook.controllerRef ≠ some run.controller) :
    hook.resume errors run settlement = hook := by
  cases settlement with
  | resolved result => exact if_pos h
  | rejected caught => exact if_pos h

/-- The run that a settlement is for, and what becomes of the hook. -/
theorem exists_of_step_settle {controller : ℕ}
    (h : hook.step errors (.settle controller settlement) = some hook') :
    ∃ run ∈ hook.waiting, run.controller = controller ∧
      hook' = ({ hook with waiting := hook.waiting.filter (·.controller != controller) } :
        Hook Request Result PlainApiError).resume errors run settlement := by
  obtain ⟨run, hfind, hresume⟩ := Option.bind_eq_some_iff.mp h
  have hcontroller := List.find?_some hfind
  exact ⟨run, List.mem_of_find?_eq_some hfind, by simpa using hcontroller,
    (Option.some.inj hresume).symm⟩

theorem Consistent.step (hc : Consistent history hook) (h : hook.step errors action = some hook') :
    Consistent (action :: history) hook' := by
  cases action with
  | run kind request =>
    obtain rfl := Option.some.inj h
    refine ⟨congrArg (· + 1) hc.controllers, congrArg some hc.controllers, ?_, ?_⟩
    · intro run hrun
      rcases List.mem_cons.mp hrun with rfl | hrun
      · exact hc.controllers ▸ Nat.lt_succ_self _
      · exact Nat.lt_succ_of_lt (hc.waiting_lt run hrun)
    · intro run hrun latest hlatest hsame
      obtain rfl := Option.some.inj hlatest
      rcases List.mem_cons.mp hrun with rfl | hrun
      · rw [hc.controllers]
      · exact absurd hsame (Nat.ne_of_lt (hc.waiting_lt run hrun))
  | cancel =>
    obtain rfl := Option.some.inj h
    exact ⟨hc.controllers, hc.controllerRef, hc.waiting_lt, hc.waiting_latest⟩
  | reset =>
    obtain rfl := Option.some.inj h
    refine ⟨hc.controllers, rfl, hc.waiting_lt, ?_⟩
    intro run hrun latest hlatest
    exact absurd hlatest (by simp [latestRun])
  | settle controller settlement =>
    obtain ⟨run, -, -, rfl⟩ := exists_of_step_settle h
    have hmem : ∀ run ∈ hook.waiting.filter (·.controller != controller), run ∈ hook.waiting :=
      fun run hrun => List.mem_of_mem_filter hrun
    rw [resume_eq]
    exact ⟨hc.controllers, hc.controllerRef, fun run hrun => hc.waiting_lt run (hmem run hrun),
      fun run hrun => hc.waiting_latest run (hmem run hrun)⟩

/-- A settlement of another run than the most recent one. -/
theorem state_eq_of_stale {controller : ℕ} (hc : Consistent history hook)
    (h : hook.step errors (.settle controller settlement) = some hook')
    (hstale : ∀ run ∈ latestRun history, run.controller ≠ controller) :
      hook'.state = hook.state := by
  obtain ⟨run, -, rfl, rfl⟩ := exists_of_step_settle h
  rw [resume_of_stale]
  show hook.controllerRef ≠ some run.controller
  rw [hc.controllerRef]
  intro href
  obtain ⟨latest, hlatest, hcontroller⟩ := Option.map_eq_some_iff.mp href
  exact hstale latest hlatest hcontroller

/-- The most recent run writes about itself. -/
theorem shows_resume (hc : Consistent history hook)
    (hlatest : latestRun history = some run) (waiting : List (Run Request)) :
    Shows errors (.settle run.controller settlement :: history)
      (({ hook with waiting := waiting } : Hook Request Result PlainApiError).resume errors run
        settlement).state := by
  have href : ¬ hook.controllerRef ≠ some run.controller := by
    rw [hc.controllerRef, hlatest, not_not]
    rfl
  have hidle : latestRun history ≠ none := by simp [hlatest]
  have hkind : some run.kind = (latestRun history).map (·.kind) := by rw [hlatest]; rfl
  have hrequest : some run.request = (latestRun history).map (·.request) := by rw [hlatest]; rfl
  cases settlement with
  | resolved result =>
    rw [Hook.resume, if_neg href]
    refine ⟨fun hnone => absurd hnone hidle, hkind, hrequest, ?_, fun _ h => absurd h (by simp),
      .inr rfl⟩
    intro shown hshown
    obtain rfl := Option.some.inj hshown
    exact ⟨run, hlatest, List.mem_cons_self⟩
  | rejected caught =>
    rw [Hook.resume, if_neg href]
    split
    · exact ⟨fun hnone => absurd hnone hidle, hkind, hrequest, fun _ h => absurd h (by simp),
        fun _ h => absurd h (by simp), .inl rfl⟩
    · refine ⟨fun hnone => absurd hnone hidle, hkind, hrequest, fun _ h => absurd h (by simp), ?_,
        .inl rfl⟩
      intro shown hshown
      obtain rfl := Option.some.inj hshown
      exact ⟨run, hlatest, caught, List.mem_cons_self, rfl⟩

theorem Shows.step (hc : Consistent history hook) (hs : Shows errors history hook.state)
    (h : hook.step errors action = some hook') : Shows errors (action :: history) hook'.state := by
  cases action with
  | run kind request =>
    obtain rfl := Option.some.inj h
    exact ⟨fun hnone => absurd hnone (by simp [latestRun]), rfl, rfl,
      fun _ hresult => absurd hresult (by simp [Hook.run]),
      fun _ herror => absurd herror (by simp [Hook.run]), .inl rfl⟩
  | cancel =>
    obtain rfl := Option.some.inj h
    exact hs.of_stale rfl
  | reset =>
    obtain rfl := Option.some.inj h
    exact ⟨fun _ => rfl, rfl, rfl, fun _ hresult => absurd hresult
      (by simp [Hook.reset, DiagnosticState.idle]),
      fun _ herror => absurd herror (by simp [Hook.reset, DiagnosticState.idle]), .inl rfl⟩
  | settle controller settlement =>
    by_cases hstale : ∀ run ∈ latestRun history, run.controller ≠ controller
    · rw [state_eq_of_stale hc h hstale]
      exact hs.of_stale rfl
    · push Not at hstale
      obtain ⟨latest, hlatest, rfl⟩ := hstale
      obtain ⟨run, hrun, hcontroller, rfl⟩ := exists_of_step_settle h
      obtain rfl := hc.waiting_latest run hrun latest hlatest hcontroller
      exact shows_resume hc hlatest _

/-! ### All histories

By induction over the history. That each run can settle at any time is part of it: no settlement is
lost. -/

theorem consistent_and_shows_of_reached (h : Reached errors history hook) :
    Consistent history hook ∧ Shows errors history hook.state := by
  induction h with
  | new =>
    refine ⟨⟨rfl, rfl, ?_, ?_⟩, ⟨fun _ => rfl, rfl, rfl, ?_, ?_, .inl rfl⟩⟩
    · exact fun _ hrun => absurd hrun List.not_mem_nil
    · exact fun _ hrun => absurd hrun List.not_mem_nil
    · exact fun _ hresult => absurd hresult (by simp [Hook.new, DiagnosticState.idle])
    · exact fun _ herror => absurd herror (by simp [Hook.new, DiagnosticState.idle])
  | step _ next ih => exact ⟨ih.1.step next, ih.2.step ih.1 next⟩

/-- A run goes on waiting until its promise settles, whatever else happens: no settlement is ever
impossible. -/
theorem exists_waiting (h : Reached errors history hook) {controller : ℕ}
    (hstarted : controller < started history)
    (hopen : ∀ settlement, .settle controller settlement ∉ history) :
    ∃ run ∈ hook.waiting, run.controller = controller := by
  induction h with
  | new => exact absurd hstarted (Nat.not_lt_zero _)
  | @step history action hook hook' before next ih =>
    have hearlier : ∀ settlement, .settle controller settlement ∉ history :=
      fun settlement hmem => hopen settlement (List.mem_cons_of_mem _ hmem)
    cases action with
    | run kind request =>
      obtain rfl := Option.some.inj next
      have hcontrollers := (consistent_and_shows_of_reached before).1.controllers
      by_cases hnew : controller = started history
      · exact ⟨_, List.mem_cons_self, by rw [hcontrollers, hnew]⟩
      · have hold : controller < started history :=
          Nat.lt_of_le_of_ne (Nat.le_of_lt_succ hstarted) hnew
        obtain ⟨run, hrun, hcontroller⟩ := ih hold hearlier
        exact ⟨run, List.mem_cons_of_mem _ hrun, hcontroller⟩
    | cancel =>
      obtain rfl := Option.some.inj next
      exact ih hstarted hearlier
    | reset =>
      obtain rfl := Option.some.inj next
      exact ih hstarted hearlier
    | settle other settlement =>
      obtain ⟨run, hrun, hcontroller⟩ := ih hstarted hearlier
      obtain ⟨_, -, -, rfl⟩ := exists_of_step_settle next
      have hne : controller ≠ other := by
        rintro rfl
        exact hopen settlement List.mem_cons_self
      rw [resume_eq]
      exact ⟨run, List.mem_filter.mpr ⟨hrun, by simp [hcontroller, hne]⟩, hcontroller⟩

/-- **A stale answer is never shown.** After any calls and settlements, what is shown belongs to the
most recent run since the last reset, and the settlement of another run changes nothing of it. -/
theorem shows_of_reached (h : Reached errors history hook) :
    Shows errors history hook.state ∧
      ∀ controller settlement hook',
        hook.step errors (.settle controller settlement) = some hook' →
        (∀ run ∈ latestRun history, run.controller ≠ controller) → hook'.state = hook.state := by
  obtain ⟨hconsistent, hshows⟩ := consistent_and_shows_of_reached h
  exact ⟨hshows, fun _ _ _ hstep hstale => state_eq_of_stale hconsistent hstep hstale⟩

/-- Two runs overlap, the second is cancelled and resolves all the same, the first one resolves
last. -/
def overlapping : List (Action String String String) :=
  [.settle 0 (.resolved "first"), .settle 1 (.resolved "second"), .cancel, .run .dns "b",
    .run .ping "a"]

theorem shows_of_reached_overlapping :
    ∃ hook, Reached ⟨(· == "AbortError"), id⟩ overlapping hook ∧
      Shows ⟨(· == "AbortError"), id⟩ overlapping hook.state ∧
      hook.state = ⟨.success, some .dns, some "b", some "second", none⟩ := by
  have h : Reached (⟨(· == "AbortError"), id⟩ : ApiErrors String String) overlapping _ :=
    .step (.step (.step (.step (.step .new rfl) rfl) rfl) rfl) rfl
  exact ⟨_, h, (shows_of_reached h).1, rfl⟩

end UseDiagnostic

end LookingGlass
