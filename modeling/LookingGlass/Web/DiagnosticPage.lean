import LookingGlass.Web.DestinationForm
import LookingGlass.Web.Errors

/-!
# The page of a diagnostic

A page has a form, the hook that runs the diagnostic, and a countdown for the time that the server
asked to wait. The visitor types, picks options, submits, cancels and retries in any order; the
promise of a request settles at any time; the countdown notices a refusal some time after it is on
the screen, and its timer ticks whenever the browser lets it.

The hook is prepared for runs that overlap. On a page there are none: the form and the retry button
look at the same state, and that state says whether a request is under way.

What the visitor does is seen by the page as it was last rendered, so an action is a step from the
state that all actions before it have led to. The noticing of the countdown is a step of its own.

## What the countdown has noticed

The time to wait comes with an error and is on the screen at once. The effect that starts the
countdown runs after the page has been rendered, so there is a moment at which the error is there
and nothing counts yet. A visitor who is that fast can send a request. So the statement on waiting
is about the error that the countdown has noticed, which `seconds` records, and it does not say that
no request is sent in that moment.

The timer may be late, as browsers slow down timers of pages that are not visible. The countdown
then shows more seconds than are left, since it computes them when the timer ticks, from the clock.
So it may keep a visitor waiting for too long, but never for too short a time.

## Main definitions

* `buildRequest` — the request for what is in the form, or what is wrong with it
* `DiagnosticPage.step` — what an action makes of the page

## Main results

* `DiagnosticPage.safe_of_reached` — what is on the page in every state, and when it sends a request
-/

namespace LookingGlass

open Utf16 Validation UseDiagnostic

inductive DnsRecordType
  | a
  | aaaa
  | cname
  | mx
  | ns
  | txt
  | soa
  | ptr
  deriving DecidableEq

inductive DiagnosticRequest
  | destination (destination : Str) (family : Validation.IpFamily)
  | dns (name : Str) (recordType : DnsRecordType)
  deriving DecidableEq

inductive BuildResult
  | ok (request : DiagnosticRequest)
  | fail (message : Str)
  deriving DecidableEq

def buildRequest (kind : UseDiagnostic.DiagnosticKind) (rawValue : Str)
    (family : Option Validation.IpFamily) (recordType : Option DnsRecordType) : BuildResult :=
  if kind = .dns then
    match validateDestination rawValue
      { subject := some "domain name or IP address", allowUnderscore := some true } with
    | .fail message => .fail message
    | .ok value kind => .ok (.dns value (recordType.getD (if kind = .hostname then .a else .ptr)))
  else
    let family := family.getD .auto
    match validateDestination rawValue { family := some family } with
    | .fail message => .fail message
    | .ok value _ => .ok (.destination value family)

/-- Which errors a visitor may try again after: the `retryable` of `describeDiagnosticError` -/
def retryable : ApiErrorCode → Bool
  | .validationFailed | .destinationBlocked | .payloadTooLarge | .unsupportedMediaType => false
  | _ => true

/-! ### The form

The form checks itself when it is left and when it is submitted. While an error is shown, it does so
whenever the text or the family changes. -/

structure Form where
  value : Str := []
  family : Validation.IpFamily := .auto
  recordType : DnsRecordType := .a
  error : Option Str := none

namespace Form

/-- What is wrong with the values, if anything is. -/
def validate (kind : UseDiagnostic.DiagnosticKind) (form : Form) : Option Str :=
  match buildRequest kind form.value (some form.family) (some form.recordType) with
  | .ok _ => none
  | .fail message => some message

/-- An error that is shown is looked at again. -/
def revalidate (kind : UseDiagnostic.DiagnosticKind) (form : Form) : Form :=
  if form.error.isSome then { form with error := form.validate kind } else form

def change (kind : UseDiagnostic.DiagnosticKind) (form : Form) (value : Str) : Form :=
  { form with value := value }.revalidate kind

def blur (kind : UseDiagnostic.DiagnosticKind) (form : Form) : Form :=
  if trim Validation.isSpace form.value ≠ [] then { form with error := form.validate kind }
  else form

def changeFamily (kind : UseDiagnostic.DiagnosticKind) (form : Form)
    (family : Validation.IpFamily) : Form :=
  { form with family := family }.revalidate kind

/-- The error is left as it is. -/
def changeRecordType (form : Form) (recordType : DnsRecordType) : Form :=
  { form with recordType := recordType }

def fill (form : Form) (example_ : Str) : Form := { form with value := example_, error := none }

end Form

/-! ### The countdown

What is counted is derived from the time at which the effect ran, so a tick that is missed does no
harm. -/

structure Countdown where
  remaining : ℕ := 0
  /-- The dependencies of the effect when it last ran. -/
  seconds : Option Double := none
  token : ℕ := 0
  /-- When it ran, in milliseconds. -/
  startedAt : ℤ := 0
  ticking : Bool := false

namespace Countdown

/-- The whole seconds to wait, if there is a time to wait. -/
def duration : Option Double → ℕ
  | some (.finite q) => if 0 < q then ⌈q⌉.toNat else 0
  | _ => 0

def endsAt (countdown : Countdown) : ℤ :=
  countdown.startedAt + duration countdown.seconds * 1000

/-- The effect for other dependencies. -/
def effect (seconds : Option Double) (token : ℕ) (now : ℤ) : Countdown where
  remaining := duration seconds
  seconds := seconds
  token := token
  startedAt := now
  ticking := decide (0 < duration seconds)

/-- The callback of the timer. -/
def tick (countdown : Countdown) (now : ℤ) : Countdown :=
  let left := (max 0 ⌈((countdown.endsAt - now : ℤ) : ℚ) / 1000⌉).toNat
  { countdown with remaining := left, ticking := decide (left ≠ 0) }

end Countdown

/-! ### The page

The form, the hook and the countdown side by side, and what a visitor can do to them. -/

abbrev PageHook (Result : Type) : Type := Hook DiagnosticRequest Result PlainApiError

structure DiagnosticPage (Result : Type) where
  form : Form := {}
  hook : PageHook Result := Hook.new
  countdown : Countdown := {}
  now : ℤ := 0

/-- What happens on a page. -/
inductive PageAction (Result : Type)
  | change (value : Str)
  | blur
  | changeFamily (family : Validation.IpFamily)
  | changeRecordType (recordType : DnsRecordType)
  | fill (example_ : Str)
  | submit
  | cancel
  | retry
  | settle (controller : ℕ) (settlement : Settlement Result Caught)
  | effect
  | tick

namespace DiagnosticPage

variable {Result : Type} (kind : UseDiagnostic.DiagnosticKind) (page : DiagnosticPage Result)

def running : Bool := page.hook.state.status = .running

/-- The time to wait that is on the screen. -/
def retryAfter : Option Double :=
  match page.hook.state.error with
  | some error =>
    if error.code = .rateLimited ∨ error.code = .busy then error.retryAfterSeconds else none
  | none => none

def submit : DiagnosticPage Result :=
  if page.running ∨ 0 < page.countdown.remaining then page
  else
    let form := page.form
    match buildRequest kind form.value (some form.family) (some form.recordType) with
    | .fail message => { page with form := { form with error := some message } }
    | .ok request =>
      { page with form := { form with error := none }, hook := page.hook.run kind request }

/-- The button is there for an error that can be tried again, and disabled while there is time to
wait. -/
def retry : Option (DiagnosticPage Result) :=
  match page.hook.state with
  | ⟨.error, some kind, some request, _, some error⟩ =>
    if retryable error.code ∧ page.countdown.remaining = 0 then
      some { page with hook := page.hook.run kind request }
    else none
  | _ => none

/-- What an action makes of the page, if it is possible. -/
def act : PageAction Result → Option (DiagnosticPage Result)
  | .change value => some { page with form := page.form.change kind value }
  | .blur => some { page with form := page.form.blur kind }
  | .changeFamily family => some { page with form := page.form.changeFamily kind family }
  | .changeRecordType recordType =>
    some { page with form := page.form.changeRecordType recordType }
  | .fill example_ => some { page with form := page.form.fill example_ }
  | .submit => some (page.submit kind)
  | .cancel => if page.running then some { page with hook := page.hook.cancel } else none
  | .retry => page.retry
  | .settle controller settlement => do
    let hook ← page.hook.step Errors.apiErrors (.settle controller settlement)
    return { page with hook := hook }
  | .effect =>
    if page.countdown.seconds = page.retryAfter ∧ page.countdown.token = page.hook.attempt then none
    else
      some { page with countdown := .effect page.retryAfter page.hook.attempt page.now }
  | .tick =>
    if page.countdown.ticking then
      some { page with countdown := page.countdown.tick page.now }
    else none

/-- Time passes, and then something happens. -/
def step (now : ℤ) (action : PageAction Result) : Option (DiagnosticPage Result) :=
  if page.now ≤ now then { page with now := now }.act kind action else none

/-- The page after any actions, at any times, as long as the clock does not go back. -/
inductive Reached : DiagnosticPage Result → Prop
  | new : Reached {}
  | step {page page' : DiagnosticPage Result} {now : ℤ} {action : PageAction Result}
      (before : Reached page) (next : page.step kind now action = some page') : Reached page'

/-! ### What holds of the page

The invariant has a part for each of the three. That of the hook says that either one request is
under way or none. -/

variable {kind page} {page' : DiagnosticPage Result} {now : ℤ} {action : PageAction Result}

/-- The request is one for something that a visitor may enter. What is sent has always gone through
the checks of the form, also when it is sent a second time. -/
def IsBuilt (kind : UseDiagnostic.DiagnosticKind) (request : DiagnosticRequest) : Prop :=
  ∃ value family recordType, buildRequest kind value (some family) (some recordType) = .ok request

/-- The error is about the values that are in the form. An error that was shown for other values is
gone, or was looked at again when they changed. -/
def IsCurrent (kind : UseDiagnostic.DiagnosticKind) (form : Form) : Prop :=
  ∀ message ∈ form.error,
    buildRequest kind form.value (some form.family) (some form.recordType) = .fail message

/-- There is one request under way, and it is on the screen. -/
def IsUnderWay (kind : UseDiagnostic.DiagnosticKind) (hook : PageHook Result) : Prop :=
  ∃ controller request, hook.waiting = [⟨controller, kind, request⟩] ∧
    hook.controllerRef = some controller ∧ IsBuilt kind request ∧
    hook.state = ⟨.running, some kind, some request, none, none⟩

/-- There is nothing under way, and what is on the screen is about a request that was. -/
def IsAtRest (kind : UseDiagnostic.DiagnosticKind) (hook : PageHook Result) : Prop :=
  hook.waiting = [] ∧ hook.state.status ≠ .running ∧
    (hook.state.request = none ∨
      hook.state.kind = some kind ∧
        ∃ request, hook.state.request = some request ∧ IsBuilt kind request)

/-- What holds of the page in every state that is reached: of the form, of the hook, and of the
countdown. -/
structure Inv (kind : UseDiagnostic.DiagnosticKind) (page : DiagnosticPage Result) : Prop where
  form : IsCurrent kind page.form
  hook : IsUnderWay kind page.hook ∨ IsAtRest kind page.hook
  countdown : page.countdown.remaining = 0 → page.countdown.endsAt ≤ page.now
  startedAt : page.countdown.startedAt ≤ page.now

/-- Which record type is picked does not matter for what is wrong. -/
theorem buildRequest_eq_fail {value message : Str} {family : Option Validation.IpFamily}
    {recordType : Option DnsRecordType} (recordType' : Option DnsRecordType)
    (h : buildRequest kind value family recordType = .fail message) :
    buildRequest kind value family recordType' = .fail message := by
  unfold buildRequest at h ⊢
  split at h
  · next hdns =>
    rw [if_pos hdns]
    cases hvalidate : validateDestination value _ with
    | ok value' kind' => simp [hvalidate] at h
    | fail message' => simpa [hvalidate] using h
  · next hdns => rwa [if_neg hdns]

theorem isCurrent_validate (form : Form) :
    IsCurrent kind { form with error := form.validate kind } := by
  intro message hmessage
  change form.validate kind = some message at hmessage
  rw [Form.validate] at hmessage
  cases hbuild : buildRequest kind form.value (some form.family) (some form.recordType) with
  | ok request => simp [hbuild] at hmessage
  | fail message' => simpa [hbuild] using hmessage

theorem isCurrent_revalidate (form : Form) : IsCurrent kind (form.revalidate kind) := by
  unfold Form.revalidate
  split
  · exact isCurrent_validate form
  · next herror =>
    intro message hmessage
    exact absurd (Option.isSome_iff_exists.mpr ⟨message, hmessage⟩) herror

theorem isCurrent_none {form : Form} (h : form.error = none) : IsCurrent kind form := by
  intro message hmessage
  rw [h] at hmessage
  exact absurd hmessage nofun

theorem isCurrent_blur {form : Form} (h : IsCurrent kind form) :
    IsCurrent kind (form.blur kind) := by
  unfold Form.blur
  split
  · exact isCurrent_validate form
  · exact h

theorem isCurrent_changeRecordType {form : Form} (h : IsCurrent kind form)
    (recordType : DnsRecordType) : IsCurrent kind (form.changeRecordType recordType) :=
  fun message hmessage => buildRequest_eq_fail _ (h message hmessage)

/-- What follows the sending of a request. -/
theorem isUnderWay_run {hook : PageHook Result} (hwaiting : hook.waiting = [])
    {request : DiagnosticRequest} (hbuilt : IsBuilt kind request) :
    IsUnderWay kind (hook.run kind request) :=
  ⟨hook.controllers, request, by rw [Hook.run, hwaiting], rfl, hbuilt, rfl⟩

/-- The one request settles, and there is nothing under way. -/
theorem isAtRest_of_settle {hook hook' : PageHook Result} {controller : ℕ}
    {settlement : Settlement Result Caught} (h : IsUnderWay kind hook)
    (hstep : hook.step Errors.apiErrors (.settle controller settlement) = some hook') :
    IsAtRest kind hook' := by
  obtain ⟨current, request, hwaiting, href, hbuilt, hstate⟩ := h
  obtain ⟨run, hrun, rfl, rfl⟩ := exists_of_step_settle hstep
  rw [hwaiting, List.mem_singleton] at hrun
  subst hrun
  have hnone : hook.waiting.filter (·.controller != current) = [] := by
    rw [hwaiting]
    simp
  rw [hnone]
  have hown : ¬ hook.controllerRef ≠ some current := by rw [href, not_not]
  have hrequest : IsBuilt kind request := hbuilt
  cases settlement with
  | resolved result =>
    rw [Hook.resume, if_neg hown]
    exact ⟨rfl, (by rintro ⟨⟩), .inr ⟨rfl, request, rfl, hrequest⟩⟩
  | rejected caught =>
    rw [Hook.resume, if_neg hown]
    split
    · exact ⟨rfl, (by rintro ⟨⟩), .inr ⟨rfl, request, rfl, hrequest⟩⟩
    · exact ⟨rfl, (by rintro ⟨⟩), .inr ⟨rfl, request, rfl, hrequest⟩⟩

/-- Nothing settles where nothing is under way. -/
theorem step_settle_of_isAtRest {hook : PageHook Result} {controller : ℕ}
    {settlement : Settlement Result Caught} (h : IsAtRest kind hook) :
    hook.step Errors.apiErrors (.settle controller settlement) = none := by
  show (hook.waiting.find? _).bind _ = none
  rw [h.1]
  rfl

theorem endsAt_le_of_tick {countdown : Countdown} (h : (countdown.tick now).remaining = 0) :
    countdown.endsAt ≤ now := by
  have hceil : ⌈((countdown.endsAt - now : ℤ) : ℚ) / 1000⌉ ≤ 0 := by
    have hle := Int.toNat_eq_zero.mp h
    exact (le_max_right _ _).trans hle
  have hdiv := Int.ceil_le.mp hceil
  have hsub : ((countdown.endsAt - now : ℤ) : ℚ) ≤ 0 := by
    rw [Int.cast_zero] at hdiv
    linarith
  have hsub' : countdown.endsAt - now ≤ 0 := by exact_mod_cast hsub
  omega

/-! ### One action

Each action keeps the invariant, and those that send a request do so under conditions. -/

/-- A request is sent: no other is under way, it is for what is in the form or the one that failed,
and a time to wait that the countdown has noticed is over. -/
structure Sends (kind : UseDiagnostic.DiagnosticKind) (page : DiagnosticPage Result) (now : ℤ)
    (action : PageAction Result) (page' : DiagnosticPage Result) : Prop where
  alone : page.hook.waiting = []
  request : ∃ request, page'.hook.waiting = [⟨page.hook.controllers, kind, request⟩] ∧
    (action = .submit ∧ buildRequest kind page.form.value (some page.form.family)
        (some page.form.recordType) = .ok request ∨
      action = .retry ∧ page.hook.state.request = some request ∧
        ∃ error ∈ page.hook.state.error, retryable error.code = true)
  waited : page.countdown.seconds = page.retryAfter → page.countdown.token = page.hook.attempt →
    page.countdown.startedAt + Countdown.duration page.retryAfter * 1000 ≤ now

/-- What a submission makes of the page: nothing, an error, or a request. -/
theorem submit_cases :
    page.submit kind = page ∨
      (∃ message, buildRequest kind page.form.value (some page.form.family)
          (some page.form.recordType) = .fail message ∧
        page.submit kind = { page with form := { page.form with error := some message } }) ∨
      ∃ request, page.running = false ∧ page.countdown.remaining = 0 ∧
        buildRequest kind page.form.value (some page.form.family) (some page.form.recordType) =
          .ok request ∧
        page.submit kind = { page with
          form := { page.form with error := none }, hook := page.hook.run kind request } := by
  unfold submit
  split
  · exact .inl rfl
  · next hblocked =>
    obtain ⟨hrunning, hremaining⟩ := not_or.mp hblocked
    cases hbuild : buildRequest kind page.form.value (some page.form.family)
      (some page.form.recordType) with
    | fail message => exact .inr (.inl ⟨message, rfl, by simp [hbuild]⟩)
    | ok request =>
      exact .inr (.inr ⟨request, Bool.eq_false_iff.mpr hrunning, by omega, rfl, by simp [hbuild]⟩)

theorem retry_cases (h : page.retry = some page') :
    ∃ kind' request result error,
      page.hook.state = ⟨.error, some kind', some request, result, some error⟩ ∧
      retryable error.code = true ∧ page.countdown.remaining = 0 ∧
      page' = { page with hook := page.hook.run kind' request } := by
  unfold retry at h
  split at h
  · next kind' request result error hstate =>
    split at h
    · next hready =>
      exact ⟨kind', request, result, error, hstate, hready.1, hready.2, (Option.some.inj h).symm⟩
    · exact absurd h nofun
  · exact absurd h nofun

theorem isAtRest_of_not_running (h : Inv kind page) (hrunning : page.running = false) :
    IsAtRest kind page.hook := by
  refine h.hook.resolve_left ?_
  rintro ⟨_, _, -, -, -, hstate⟩
  simp [running, hstate] at hrunning

/-- Time passes. -/
theorem Inv.later (h : Inv kind page) (hnow : page.now ≤ now) :
    Inv kind { page with now := now } :=
  ⟨h.form, h.hook, fun hremaining => (h.countdown hremaining).trans hnow, h.startedAt.trans hnow⟩

/-- The wait is over when the countdown is. -/
theorem waited_of_remaining (h : Inv kind page) (hremaining : page.countdown.remaining = 0)
    (hseconds : page.countdown.seconds = page.retryAfter) :
    page.countdown.startedAt + Countdown.duration page.retryAfter * 1000 ≤ page.now :=
  hseconds ▸ h.countdown hremaining

theorem inv_act (h : Inv kind page) (hact : page.act kind action = some page') :
    Inv kind page' ∧
      (page'.hook.controllers = page.hook.controllers ∨ Sends kind page page.now action page') := by
  cases action with
  | change value =>
    obtain rfl := Option.some.inj hact
    exact ⟨⟨isCurrent_revalidate _, h.hook, h.countdown, h.startedAt⟩, .inl rfl⟩
  | blur =>
    obtain rfl := Option.some.inj hact
    exact ⟨⟨isCurrent_blur h.form, h.hook, h.countdown, h.startedAt⟩, .inl rfl⟩
  | changeFamily family =>
    obtain rfl := Option.some.inj hact
    exact ⟨⟨isCurrent_revalidate _, h.hook, h.countdown, h.startedAt⟩, .inl rfl⟩
  | changeRecordType recordType =>
    obtain rfl := Option.some.inj hact
    exact ⟨⟨isCurrent_changeRecordType h.form _, h.hook, h.countdown, h.startedAt⟩, .inl rfl⟩
  | fill example_ =>
    obtain rfl := Option.some.inj hact
    exact ⟨⟨isCurrent_none rfl, h.hook, h.countdown, h.startedAt⟩, .inl rfl⟩
  | submit =>
    obtain rfl := Option.some.inj hact
    rcases @submit_cases Result kind page with
      heq | ⟨message, hbuild, heq⟩ | ⟨request, hrunning, hremaining, hbuild, heq⟩ <;> rw [heq]
    · exact ⟨h, .inl rfl⟩
    · refine ⟨⟨fun message' hmessage => ?_, h.hook, h.countdown, h.startedAt⟩, .inl rfl⟩
      exact Option.some.inj hmessage ▸ hbuild
    · have hrest := isAtRest_of_not_running h hrunning
      have hbuilt : IsBuilt kind request := ⟨_, _, _, hbuild⟩
      refine ⟨⟨isCurrent_none rfl, .inl (isUnderWay_run hrest.1 hbuilt), h.countdown, h.startedAt⟩,
        .inr ⟨hrest.1, ⟨request, ?_, .inl ⟨rfl, hbuild⟩⟩, fun hseconds _ =>
          waited_of_remaining h hremaining hseconds⟩⟩
      show _ :: page.hook.waiting = _
      rw [hrest.1]
  | cancel =>
    obtain ⟨-, hpage⟩ := Option.ite_none_right_eq_some.mp hact
    obtain rfl := Option.some.inj hpage
    exact ⟨⟨h.form, h.hook, h.countdown, h.startedAt⟩, .inl rfl⟩
  | retry =>
    obtain ⟨kind', request, result, error, hstate, hretryable, hremaining, rfl⟩ := retry_cases hact
    have hrunning : page.running = false := by simp [running, hstate]
    have hrest := isAtRest_of_not_running h hrunning
    obtain ⟨rfl, hbuilt⟩ : kind' = kind ∧ IsBuilt kind request := by
      rcases hrest.2.2 with hnone | ⟨hkind, request', hrequest, hbuilt⟩
      · exact absurd hnone (by simp [hstate])
      · rw [hstate] at hkind hrequest
        exact ⟨Option.some.inj hkind, Option.some.inj hrequest ▸ hbuilt⟩
    refine ⟨⟨h.form, .inl (isUnderWay_run hrest.1 hbuilt), h.countdown, h.startedAt⟩,
      .inr ⟨hrest.1, ⟨request, ?_, .inr ⟨rfl, by rw [hstate], error, by rw [hstate]; rfl,
        hretryable⟩⟩, fun hseconds _ => waited_of_remaining h hremaining hseconds⟩⟩
    show _ :: page.hook.waiting = _
    rw [hrest.1]
  | settle controller settlement =>
    obtain ⟨hook, hstep, hpage⟩ := Option.bind_eq_some_iff.mp hact
    obtain rfl := Option.some.inj hpage
    have hunder : IsUnderWay kind page.hook := h.hook.resolve_right fun hrest => by
      rw [step_settle_of_isAtRest hrest] at hstep
      exact absurd hstep nofun
    refine ⟨⟨h.form, .inr (isAtRest_of_settle hunder hstep), h.countdown, h.startedAt⟩, .inl ?_⟩
    obtain ⟨run, -, -, rfl⟩ := exists_of_step_settle hstep
    rw [resume_eq]
  | effect =>
    obtain ⟨-, hpage⟩ := Option.ite_none_left_eq_some.mp hact
    obtain rfl := Option.some.inj hpage
    refine ⟨⟨h.form, h.hook, fun hremaining => ?_, le_rfl⟩, .inl rfl⟩
    have hduration : Countdown.duration page.retryAfter = 0 := hremaining
    show page.now + (Countdown.duration page.retryAfter : ℤ) * 1000 ≤ page.now
    rw [hduration]
    omega
  | tick =>
    obtain ⟨-, hpage⟩ := Option.ite_none_right_eq_some.mp hact
    obtain rfl := Option.some.inj hpage
    exact ⟨⟨h.form, h.hook, endsAt_le_of_tick, h.startedAt⟩, .inl rfl⟩

theorem inv_step (h : Inv kind page) (hstep : page.step kind now action = some page') :
    Inv kind page' ∧
      (page'.hook.controllers = page.hook.controllers ∨ Sends kind page now action page') := by
  obtain ⟨hnow, hact⟩ := Option.ite_none_right_eq_some.mp hstep
  obtain ⟨hinv, hsends⟩ := inv_act (h.later hnow) hact
  exact ⟨hinv, hsends.imp_right fun hsends => ⟨hsends.alone, hsends.request, hsends.waited⟩⟩

theorem inv_of_reached (h : Reached kind page) : Inv kind page := by
  induction h with
  | new =>
    refine ⟨isCurrent_none rfl, .inr ⟨rfl, nofun, .inl rfl⟩, fun _ => ?_, le_rfl⟩
    show (0 : ℤ) + (0 : ℕ) * 1000 ≤ 0
    omega
  | step _ next ih => exact (inv_step ih next).1

/-- **What is on a page, and when it sends a request**, whatever the visitor, the server and the
timers do. An error in the form is about the values in it; there is at most one request under way,
and if there is one it is what the page shows; and a request is sent only when there is none, for
what is in the form or for what failed before, and when the time to wait is over that the server has
asked for and the countdown has noticed. -/
theorem safe_of_reached (h : Reached kind page) :
    Inv kind page ∧ ∀ now action page', page.step kind now action = some page' →
      page'.hook.controllers = page.hook.controllers ∨ Sends kind page now action page' :=
  ⟨inv_of_reached h, fun _ _ _ hstep => (inv_step (inv_of_reached h) hstep).2⟩

/-- A visitor fills in an example and submits it. -/
theorem safe_of_reached_example :
    ∃ filled page : DiagnosticPage Str, filled.step .ping 20 .submit = some page ∧
      page.hook.waiting = [⟨0, .ping, .destination "8.8.8.8" .auto⟩] ∧ Inv .ping page ∧
      (page.hook.controllers = filled.hook.controllers ∨ Sends .ping filled 20 .submit page) := by
  let filled : DiagnosticPage Str := { form := { value := "8.8.8.8" }, now := 10 }
  have hfilled : Reached .ping filled := @Reached.step _ _ _ _ 10 (.fill "8.8.8.8") .new rfl
  have hsubmit : filled.step .ping 20 .submit = some _ := rfl
  exact ⟨filled, _, hsubmit, rfl, (safe_of_reached (.step hfilled hsubmit)).1,
    (safe_of_reached hfilled).2 20 .submit _ hsubmit⟩

end DiagnosticPage

end LookingGlass
