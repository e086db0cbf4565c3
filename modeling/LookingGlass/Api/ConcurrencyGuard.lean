import LookingGlass.Contracts.Models
import LookingGlass.Foundations.Interleaving

/-!
# The concurrency guard

The API counts the diagnostics each client has in flight and refuses those beyond
`MaxConcurrentPerIp`. The counts are in a concurrent dictionary, whose operations are atomic;
leaving takes two of them, a decrement and then, if nobody is left, a conditional removal, and any
number of other operations on the same key can come in between.

The stored count is right at any time because a removal only takes out a count of zero, and a count
of zero never stays behind because whoever decremented to it is still about to remove it.

## Stages and calls

A stage says how far a request has come. The invariant relates the stages of all requests to the
dictionary, and is what the proofs work with. It is not what is promised. A stage is what the
protocol makes of the calls, so a promise about stages would be kept by definition in places where
the code might break it. `Tracked` therefore speaks of the calls: a request has entered if its past
contains the increment of its key, it is in the next middleware if its past contains `startNext` and
not yet a decrement, and it was refused if its increment was answered more than the bound.

## What the next middleware may do

Anything: it is a task over an interface of its own, which may fail, be cancelled, or make any calls
in between. The count is taken back in a `finally`, so all that matters is that it ends. A request
that never ends is counted forever, in the model as in the code.

## Integers

The dictionary holds numbers without a largest value where the code has an `int`. A count is never
more than the number of requests in progress, which is part of what is promised, so no count wraps
around as long as there are fewer of these than an `int` can count.

## Main results

* `ConcurrencyGuard.follows_invokeAsync` — the stages of one request
* `ConcurrencyGuard.inv_of_reachable` — how the stages of all requests relate to the dictionary
* `ConcurrencyGuard.tracked_of_reachable` — the counts are right, and bounded where it matters
-/

namespace LookingGlass

open Utf16 Interaction

structure RateLimitingOptions where
  maxConcurrentPerIp : ℕ := 2

structure HttpContext where
  path : Str
  remoteIpAddress : Option IPAddress

/-- `PathString.StartsWithSegments`: a prefix up to case, which ends where a segment ends. -/
def startsWithSegments (rt : Runtime) (path other : Str) : Bool :=
  rt.toUpperInvariant (path.take other.length) == rt.toUpperInvariant other &&
    other.length ≤ path.length &&
    (path.length == other.length || path[other.length]? == some (ofChar '/'))

inductive GuardOp
  /-- `_inFlight.AddOrUpdate(key, 1, (_, count) => count + 1)` -/
  | addOrIncrement (key : Str)
  /-- `_inFlight.AddOrUpdate(key, 0, (_, count) => count - 1)` -/
  | addOrDecrement (key : Str)
  /-- `_inFlight.TryRemove(new KeyValuePair<string, int>(key, value))` -/
  | tryRemove (key : Str) (value : ℤ)
  | incRejected (label : Str)
  | writeProblem (problem : Problem)
  /-- Marks the moment the next middleware is invoked. -/
  | startNext

abbrev GuardOp.Ret : GuardOp → Type
  | addOrIncrement _ => ℤ
  | addOrDecrement _ => ℤ
  | tryRemove _ _ => Bool
  | writeProblem _ => Except Exn Unit
  | _ => Unit

abbrev Guard : Interface := ⟨GuardOp, GuardOp.Ret⟩

/-- Make a call of the guard's own. -/
def guardCall {N : Interface} {α : Type} (op : GuardOp) (f : GuardOp.Ret op → Except Exn α) :
    Task (Guard.sum N) Exn α :=
  Task.call (I := Guard.sum N) (.inl op) f

namespace ConcurrencyTracker

variable {N : Interface}

def enter (key : Str) : Task (Guard.sum N) Exn ℤ := guardCall (.addOrIncrement key) .ok

def leave (key : Str) : Task (Guard.sum N) Exn Unit := do
  let remaining : ℤ ← guardCall (.addOrDecrement key) .ok
  if remaining ≤ 0 then guardCall (.tryRemove key remaining) fun _ => .ok ()

end ConcurrencyTracker

namespace ConcurrencyGuard

variable {N : Interface} (rt : Runtime) (options : RateLimitingOptions)
  (next : HttpContext → Task N Exn Unit)

/-- What is written for a request beyond the bound. -/
def tooMany : Problem where
  status := 429
  code := ProblemCodes.rateLimited
  title := ProblemExceptionHandler.title ProblemCodes.rateLimited
  detail := "You already have the maximum number of diagnostics running. Wait for one to finish and try again."
  retryAfterSeconds := some 2

def keyOf (context : HttpContext) : Str :=
  (context.remoteIpAddress.map rt.addressToString).getD "unknown"

/-- `await next(context)` -/
def invokeNext (context : HttpContext) : Task (Guard.sum N) Exn Unit := do
  guardCall .startNext .ok
  (next context).right

def invokeAsync (context : HttpContext) : Task (Guard.sum N) Exn Unit :=
  if !startsWithSegments rt context.path "/api/v1/diagnostics" then invokeNext next context
  else do
    let key := keyOf rt context
    let current ← ConcurrencyTracker.enter key
    try
      if current > options.maxConcurrentPerIp then
        guardCall (.incRejected "concurrency") .ok
        guardCall (.writeProblem tooMany) fun written => written
      else invokeNext next context
    finally
      ConcurrencyTracker.leave key

/-! ### The stages of a request

One request by itself. Between entering and leaving it is refused or lets the next middleware run,
and what it does after leaving is at most one removal. -/

/-- How far a request has come, as far as its count is concerned. A request that is no diagnostic is
not counted at all. -/
inductive Stage
  | arrived
  /-- Not a diagnostic: on to the next middleware, without being counted. -/
  | bypassing
  /-- Counted within the bound, and about to go on. -/
  | admitted
  /-- Counted, but as one too many. -/
  | refused
  | inside
  /-- No longer counted, and about to remove the count that the decrement left. -/
  | removing (remaining : ℤ)
  | left
  deriving DecidableEq

/-- Entered and not yet left. -/
def Stage.isEntered : Stage → Bool
  | admitted | refused | inside => true
  | _ => false

/-- Entered within the bound and not yet left. -/
def Stage.isAdmitted : Stage → Bool
  | admitted | inside => true
  | _ => false

/-- Before entering, or after leaving. -/
def Stage.isOut : Stage → Bool
  | arrived | bypassing | left => true
  | _ => false

/-- A request of a client, and how far it has come. The key is a part of it, since the counts of the
clients are separate and the requests of all of them are in one list. -/
structure Phase where
  key : Str
  stage : Stage
  deriving DecidableEq

/-- The number of requests of a client in some stages. -/
def countOf (key : Str) (p : Stage → Bool) (phases : List Phase) : ℕ :=
  phases.countP fun phase => phase.key == key && p phase.stage

def nextStage (options : RateLimitingOptions) : Stage → Event (Guard.sum N) → Stage
  | .arrived, ⟨.inl (.addOrIncrement _), current⟩ =>
    if (current : ℤ) > options.maxConcurrentPerIp then .refused else .admitted
  | .admitted, ⟨.inl .startNext, _⟩ => .inside
  | .inside, ⟨.inl (.addOrDecrement _), remaining⟩ =>
    if (remaining : ℤ) ≤ 0 then .removing remaining else .left
  | .refused, ⟨.inl (.addOrDecrement _), remaining⟩ =>
    if (remaining : ℤ) ≤ 0 then .removing remaining else .left
  | .removing _, ⟨.inl (.tryRemove _ _), _⟩ => .left
  | stage, _ => stage

/-- The stage in which a call of the guard may be made, and the key it may be made for. -/
def isAllowed (phase : Phase) : (Guard.sum N).Op → Prop
  | .inl (.addOrIncrement key) => key = phase.key ∧ phase.stage = .arrived
  | .inl (.addOrDecrement key) =>
    key = phase.key ∧ (phase.stage = .inside ∨ phase.stage = .refused)
  | .inl (.tryRemove key value) => key = phase.key ∧ phase.stage = .removing value
  | .inl .startNext => phase.stage = .bypassing ∨ phase.stage = .admitted
  | .inr _ => phase.stage = .bypassing ∨ phase.stage = .inside
  | _ => True

def protocol (options : RateLimitingOptions) : Protocol (Guard.sum N) Phase :=
  ⟨isAllowed, fun phase e => ⟨phase.key, nextStage options phase.stage e⟩⟩

variable {rt options next}

theorem nextStage_addOrIncrement (key : Str) (current : ℤ) :
    nextStage (N := N) options .arrived ⟨.inl (.addOrIncrement key), current⟩ =
      if current > options.maxConcurrentPerIp then .refused else .admitted := rfl

theorem nextStage_addOrDecrement {stage : Stage} (h : stage = .inside ∨ stage = .refused)
    (key : Str) (remaining : ℤ) :
    nextStage (N := N) options stage ⟨.inl (.addOrDecrement key), remaining⟩ =
      if remaining ≤ 0 then .removing remaining else .left := by
  rcases h with rfl | rfl <;> rfl

theorem follows_leave {key : Str} {stage : Stage} (h : stage = .inside ∨ stage = .refused)
    {post : Phase → Except Exn Unit → Prop} (hpost : ∀ x, post ⟨key, .left⟩ x) :
    Task.Follows (protocol (N := N) options) post (ConcurrencyTracker.leave key) ⟨key, stage⟩ := by
  refine Task.follows_bind.mpr ⟨⟨rfl, h⟩, fun (remaining : ℤ) => ?_⟩
  show Task.andThen _ _ _
    (Phase.mk key (nextStage options stage ⟨.inl (.addOrDecrement key), remaining⟩)) (.ok remaining)
  rw [nextStage_addOrDecrement h, Task.andThen_ok]
  by_cases hremaining : remaining ≤ 0
  · rw [if_pos hremaining, if_pos hremaining]
    exact ⟨⟨rfl, rfl⟩, fun _ => hpost _⟩
  · rw [if_neg hremaining, if_neg hremaining]
    exact hpost _

/-- The next middleware may do whatever it likes; the tracker is not its business. -/
theorem follows_invokeNext {context : HttpContext} {key : Str} {stage stage' : Stage}
    (h : stage = .bypassing ∧ stage' = .bypassing ∨ stage = .admitted ∧ stage' = .inside)
    {post : Phase → Except Exn Unit → Prop} (hpost : ∀ x, post ⟨key, stage'⟩ x) :
    Task.Follows (protocol options) post (invokeNext next context) ⟨key, stage⟩ := by
  rcases h with ⟨rfl, rfl⟩ | ⟨rfl, rfl⟩
  · exact Task.follows_bind.mpr ⟨.inl rfl, fun _ =>
      Prog.follows_right (P := protocol options) (fun _ => ⟨Or.inl rfl, fun _ => rfl⟩) _ hpost⟩
  · exact Task.follows_bind.mpr ⟨.inr rfl, fun _ =>
      Prog.follows_right (P := protocol options) (fun _ => ⟨Or.inr rfl, fun _ => rfl⟩) _ hpost⟩

/-- The requests that are counted. -/
def isDiagnostic (rt : Runtime) (context : HttpContext) : Bool :=
  startsWithSegments rt context.path "/api/v1/diagnostics"

/-- The phase in which the request of a context starts. -/
def arrive (rt : Runtime) (context : HttpContext) : Phase :=
  ⟨keyOf rt context, if isDiagnostic rt context then .arrived else .bypassing⟩

/-- **The stages of one request**: it leaves if it entered, however it ends. -/
theorem follows_invokeAsync {context : HttpContext} :
    Task.Follows (protocol options) (fun phase _ => phase.stage.isOut = true)
      (invokeAsync rt options next context) (arrive rt context) := by
  unfold invokeAsync arrive isDiagnostic
  cases hpath : startsWithSegments rt context.path "/api/v1/diagnostics" with
  | false => exact follows_invokeNext (.inl ⟨rfl, rfl⟩) fun _ => rfl
  | true =>
    refine Task.follows_bind.mpr ⟨⟨rfl, rfl⟩, fun (current : ℤ) => ?_⟩
    show Task.andThen _ _ _
      (Phase.mk _ (nextStage options .arrived ⟨.inl (.addOrIncrement _), current⟩)) (.ok current)
    rw [nextStage_addOrIncrement, Task.andThen_ok]
    refine Task.follows_tryFinally.mpr ?_
    by_cases hfull : current > options.maxConcurrentPerIp
    · rw [if_pos hfull, if_pos hfull]
      exact Task.follows_bind.mpr ⟨trivial, fun _ => ⟨trivial, fun _ =>
        follows_leave (.inr rfl) fun _ => rfl⟩⟩
    · rw [if_neg hfull, if_neg hfull]
      exact follows_invokeNext (.inr ⟨rfl, rfl⟩) fun _ => follows_leave (.inl rfl) fun _ => rfl

/-! ### All requests together

The three operations on the dictionary are atomic, each by itself. A leave is two of them. -/

/-- `_inFlight`; the counts are numbers without a largest value, and a key is absent where nobody is
counted. -/
abbrev InFlight := Str → Option ℤ

/-- What a call does to the dictionary. Each of the operations is atomic. -/
def effect : InFlight → Event (Guard.sum N) → InFlight → Prop
  | dict, ⟨.inl (.addOrIncrement key), count⟩, dict' =>
    count = (dict key).elim 1 (· + 1) ∧ dict' = Function.update dict key (some count)
  | dict, ⟨.inl (.addOrDecrement key), count⟩, dict' =>
    count = (dict key).elim 0 (· - 1) ∧ dict' = Function.update dict key (some count)
  | dict, ⟨.inl (.tryRemove key value), removed⟩, dict' =>
    if dict key = some value then removed = true ∧ dict' = Function.update dict key none
    else removed = false ∧ dict' = dict
  | dict, _, dict' => dict' = dict

def system (rt : Runtime) (options : RateLimitingOptions) (next : HttpContext → Task N Exn Unit) :
    System (Guard.sum N) HttpContext InFlight where
  start _ := none
  program context := (invokeAsync rt options next context).run >>= fun _ => pure ()
  effect := effect

theorem follows_program (context : HttpContext) :
    ((system rt options next).program context).Follows (protocol options)
      (fun phase _ => phase.stage.isOut = true) (arrive rt context) :=
  Prog.follows_bind.mpr follows_invokeAsync

/-- The count of a key, where absence counts as zero. -/
def stored (dict : InFlight) (key : Str) : ℤ := (dict key).getD 0

/-- How the stages of the requests account for the dictionary. A count is that of the requests of
the client that are entered, and an entry of zero is there only as long as somebody is about to
remove it: the leave is two operations, and others may come in between. -/
structure Inv (options : RateLimitingOptions) (dict : InFlight) (phases : List Phase) : Prop where
  count (key : Str) : stored dict key = countOf key Stage.isEntered phases
  /-- A count of zero is about to be removed. -/
  zero (key : Str) : dict key = some 0 → ⟨key, .removing 0⟩ ∈ phases
  /-- Only counts of zero are about to be removed. -/
  removing (phase : Phase) (hphase : phase ∈ phases) (remaining : ℤ) :
    phase.stage = .removing remaining → remaining = 0
  admitted (key : Str) : countOf key Stage.isAdmitted phases ≤ options.maxConcurrentPerIp

/-- A request touches no count but that of its own key. -/
theorem frame_of_effect {dict dict' : InFlight} {phase : Phase} {op : (Guard.sum N).Op}
    {answer : (Guard.sum N).Ret op} (hallowed : isAllowed phase op)
    (heffect : effect dict ⟨op, answer⟩ dict') {key : Str} (hne : key ≠ phase.key) :
    dict' key = dict key := by
  match op, answer with
  | .inl (.addOrIncrement _), _ | .inl (.addOrDecrement _), _ =>
    obtain ⟨rfl, -⟩ := hallowed
    obtain ⟨-, rfl⟩ := heffect
    exact Function.update_of_ne hne _ _
  | .inl (.tryRemove _ value), _ =>
    obtain ⟨rfl, -⟩ := hallowed
    unfold effect at heffect
    dsimp only at heffect
    split at heffect
    · obtain ⟨-, rfl⟩ := heffect
      exact Function.update_of_ne hne _ _
    · exact congrFun heffect.2 key
  | .inl .startNext, _ | .inl (.incRejected _), _ | .inl (.writeProblem _), _ | .inr _, _ =>
    exact congrFun heffect key

/-- What an allowed call does to the count of its own key: the count follows the stage, and a zero
is left behind only by a caller that is about to remove it. -/
structure Moves (options : RateLimitingOptions) (dict dict' : InFlight) (phase phase' : Phase) :
    Prop where
  count : stored dict' phase.key - phase'.stage.isEntered.toNat =
    stored dict phase.key - phase.stage.isEntered.toNat
  zero : dict' phase.key = some 0 → phase' = ⟨phase.key, .removing 0⟩ ∨
    dict phase.key = some 0 ∧ phase ≠ ⟨phase.key, .removing 0⟩
  removing (remaining : ℤ) : phase'.stage = .removing remaining → remaining = 0
  admitted : phase'.stage.isAdmitted.toNat ≤ phase.stage.isAdmitted.toNat ∨
    stored dict' phase.key ≤ options.maxConcurrentPerIp

theorem Moves.refl {dict : InFlight} {phase : Phase}
    (h : ∀ remaining, phase.stage = .removing remaining → remaining = 0) :
    Moves options dict dict phase phase where
  count := rfl
  zero hzero := (em _).imp_right fun hne => ⟨hzero, hne⟩
  removing := h
  admitted := .inl le_rfl

@[simp] theorem stored_update_self (dict : InFlight) (key : Str) (count : Option ℤ) :
    stored (Function.update dict key count) key = count.getD 0 := by
  rw [stored, Function.update_self]

theorem elim_add_one (dict : InFlight) (key : Str) :
    (dict key).elim 1 (· + 1) = stored dict key + 1 := by
  rw [stored]
  cases dict key <;> rfl

/-- A positive count is present, so it is decremented. -/
theorem elim_sub_one {dict : InFlight} {key : Str} (h : 0 < stored dict key) :
    (dict key).elim 0 (· - 1) = stored dict key - 1 := by
  rw [stored] at h ⊢
  cases hkey : dict key with
  | none => rw [hkey] at h; exact absurd h (lt_irrefl 0)
  | some count => rfl

theorem moves_enter {dict : InFlight} {key : Str} (hcount : 0 ≤ stored dict key) :
    Moves options dict (Function.update dict key (some (stored dict key + 1))) ⟨key, .arrived⟩
      ⟨key, if stored dict key + 1 > options.maxConcurrentPerIp then .refused else .admitted⟩ where
  count := by split <;> simp [Stage.isEntered]
  zero h := by
    rw [Function.update_self, Option.some.injEq] at h
    omega
  removing remaining h := by split at h <;> exact absurd h (by simp)
  admitted := by
    by_cases hfull : stored dict key + 1 > options.maxConcurrentPerIp
    · exact .inl (by rw [if_pos hfull]; exact le_rfl)
    · exact .inr (by rw [stored_update_self]; exact not_lt.mp hfull)

theorem moves_startNext {dict : InFlight} {key : Str} :
    Moves options dict dict ⟨key, .admitted⟩ ⟨key, .inside⟩ where
  count := rfl
  zero h := .inr ⟨h, by simp⟩
  removing _ h := absurd h (by simp)
  admitted := .inl le_rfl

theorem moves_leave {dict : InFlight} {key : Str} {stage : Stage}
    (hstage : stage = .inside ∨ stage = .refused) (hcount : 0 < stored dict key) :
    Moves options dict (Function.update dict key (some (stored dict key - 1))) ⟨key, stage⟩
      ⟨key, if stored dict key - 1 ≤ 0 then .removing (stored dict key - 1) else .left⟩ where
  count := by
    have hentered : stage.isEntered = true := by rcases hstage with rfl | rfl <;> rfl
    have hleft : ∀ remaining : ℤ,
        (if remaining ≤ 0 then Stage.removing remaining else .left).isEntered = false := by
      intro remaining
      split <;> rfl
    rw [stored_update_self, hentered, hleft]
    simp
  zero h := by
    rw [Function.update_self, Option.some.injEq] at h
    exact .inl (by rw [if_pos h.le, h])
  removing remaining h := by
    split at h
    · obtain rfl := Stage.removing.inj h
      omega
    · exact absurd h (by simp)
  admitted := .inl (by split <;> exact Nat.zero_le _)

theorem moves_tryRemove {dict dict' : InFlight} {key : Str} {removed : Bool}
    (heffect : effect (N := N) dict ⟨.inl (.tryRemove key 0), removed⟩ dict') :
    Moves options dict dict' ⟨key, .removing 0⟩ ⟨key, .left⟩ := by
  unfold effect at heffect
  dsimp only at heffect
  split at heffect
  · next hkey =>
    obtain ⟨-, rfl⟩ := heffect
    exact {
      count := by simp [stored, hkey, Stage.isEntered]
      zero := fun h => absurd h (by simp)
      removing := fun _ h => absurd h (by simp)
      admitted := .inl le_rfl }
  · next hkey =>
    obtain ⟨-, rfl⟩ := heffect
    exact {
      count := rfl
      zero := fun h => absurd h hkey
      removing := fun _ h => absurd h (by simp)
      admitted := .inl le_rfl }

theorem moves_of_effect {dict dict' : InFlight} {phase : Phase} {op : (Guard.sum N).Op}
    {answer : (Guard.sum N).Ret op} (hallowed : isAllowed phase op)
    (heffect : effect dict ⟨op, answer⟩ dict')
    (hcount : (phase.stage.isEntered.toNat : ℤ) ≤ stored dict phase.key)
    (hremoving : ∀ remaining, phase.stage = .removing remaining → remaining = 0) :
    Moves options dict dict' phase ⟨phase.key, nextStage options phase.stage ⟨op, answer⟩⟩ := by
  obtain ⟨key, stage⟩ := phase
  match op, answer with
  | .inl (.addOrIncrement _), current =>
    obtain ⟨rfl, rfl⟩ := hallowed
    obtain ⟨rfl, rfl⟩ := heffect
    rw [nextStage_addOrIncrement, elim_add_one]
    exact moves_enter hcount
  | .inl (.addOrDecrement key), remaining =>
    obtain ⟨rfl, hstage⟩ := hallowed
    have hpos : 0 < stored dict key := by
      rcases hstage with rfl | rfl <;> exact Int.lt_of_lt_of_le Int.one_pos hcount
    obtain ⟨rfl, rfl⟩ := heffect
    rw [nextStage_addOrDecrement hstage, elim_sub_one hpos]
    exact moves_leave hstage hpos
  | .inl (.tryRemove _ value), removed =>
    obtain ⟨rfl, rfl⟩ := hallowed
    obtain rfl := hremoving value rfl
    exact moves_tryRemove heffect
  | .inl .startNext, _ =>
    obtain rfl := heffect
    rcases hallowed with rfl | rfl
    · exact .refl hremoving
    · exact moves_startNext
  | .inr _, _ =>
    obtain rfl := heffect
    rcases hallowed with rfl | rfl <;> exact .refl hremoving
  | .inl (.incRejected _), _ | .inl (.writeProblem _), _ =>
    obtain rfl := heffect
    cases stage <;> exact .refl hremoving

/-- One request apart from the others. -/
theorem countOf_middle (key : Str) (p : Stage → Bool) (before after : List Phase) (phase : Phase) :
    countOf key p (before ++ phase :: after) = countOf key p before + countOf key p after +
      if phase.key = key then (p phase.stage).toNat else 0 := by
  rw [countOf, countP_middle]
  by_cases hkey : phase.key = key
  · rw [if_pos hkey, hkey, beq_self_eq_true, Bool.true_and]
    rfl
  · rw [if_neg hkey, beq_eq_false_iff_ne.mpr hkey, Bool.false_and]
    rfl

theorem countOf_le {p q : Stage → Bool} (h : ∀ stage, p stage = true → q stage = true) (key : Str)
    (phases : List Phase) : countOf key p phases ≤ countOf key q phases := by
  refine List.countP_mono_left fun phase _ hp => ?_
  rw [Bool.and_eq_true] at hp ⊢
  exact ⟨hp.1, h _ hp.2⟩

section Step

variable {dict dict' : InFlight} {before after : List Phase} {phase : Phase} {stage' : Stage}

/-- The stored counts are those of the new stages: of one key because the request moves its own
count along, of the others because neither changes. -/
theorem Inv.count_step (h : Inv options dict (before ++ phase :: after))
    (hmoves : Moves options dict dict' phase ⟨phase.key, stage'⟩)
    (hframe : ∀ key, key ≠ phase.key → dict' key = dict key) (key : Str) :
    stored dict' key = countOf key Stage.isEntered (before ++ ⟨phase.key, stage'⟩ :: after) := by
  have hold := h.count key
  rw [countOf_middle] at hold ⊢
  by_cases hkey : phase.key = key
  · subst hkey
    have hmove := hmoves.count
    rw [if_pos rfl] at hold ⊢
    omega
  · rw [if_neg hkey] at hold ⊢
    rw [stored, hframe key (Ne.symm hkey), ← stored, hold]

/-- Whoever was about to remove a zero still is, unless it was this request. -/
theorem Inv.zero_step (h : Inv options dict (before ++ phase :: after))
    (hmoves : Moves options dict dict' phase ⟨phase.key, stage'⟩)
    (hframe : ∀ key, key ≠ phase.key → dict' key = dict key) {key : Str}
    (hzero : dict' key = some 0) :
    ⟨key, .removing 0⟩ ∈ before ++ ⟨phase.key, stage'⟩ :: after := by
  have hother : dict key = some 0 → phase ≠ ⟨key, .removing 0⟩ →
      ⟨key, .removing 0⟩ ∈ before ++ ⟨phase.key, stage'⟩ :: after := by
    intro hkey hne
    rcases List.mem_append.mp (h.zero key hkey) with hin | hin
    · exact List.mem_append_left _ hin
    · have hafter := (List.mem_cons.mp hin).resolve_left fun heq => hne heq.symm
      exact List.mem_append_right _ (List.mem_cons_of_mem _ hafter)
  by_cases hkey : phase.key = key
  · subst hkey
    rcases hmoves.zero hzero with hself | ⟨hold, hne⟩
    · rw [hself]
      exact List.mem_append_right _ (List.mem_cons_self ..)
    · exact hother hold hne
  · rw [hframe key (Ne.symm hkey)] at hzero
    exact hother hzero fun heq => hkey (congrArg Phase.key heq)

/-- A request is admitted by an increment that was answered a count within the bound, and the count
is of all who are entered. -/
theorem Inv.admitted_step (h : Inv options dict (before ++ phase :: after))
    (hmoves : Moves options dict dict' phase ⟨phase.key, stage'⟩) (key : Str)
    (hcount : stored dict' key =
      countOf key Stage.isEntered (before ++ ⟨phase.key, stage'⟩ :: after)) :
    countOf key Stage.isAdmitted (before ++ ⟨phase.key, stage'⟩ :: after) ≤
      options.maxConcurrentPerIp := by
  have hadmitted := h.admitted key
  have hle : countOf key Stage.isAdmitted (before ++ ⟨phase.key, stage'⟩ :: after) ≤
      countOf key Stage.isEntered (before ++ ⟨phase.key, stage'⟩ :: after) :=
    countOf_le (fun stage => by cases stage <;> simp [Stage.isAdmitted, Stage.isEntered]) key _
  rw [countOf_middle] at hadmitted hle ⊢
  by_cases hkey : phase.key = key
  · subst hkey
    rw [if_pos rfl] at hadmitted hle ⊢
    rcases hmoves.admitted with hkept | hbound
    · dsimp only at *
      omega
    · dsimp only at *
      omega
  · rwa [if_neg hkey] at hadmitted ⊢

/-- The step lemma: an allowed call keeps the accounts of all requests. -/
theorem Inv.step {op : (Guard.sum N).Op} {answer : (Guard.sum N).Ret op}
    (hallowed : isAllowed phase op) (heffect : effect dict ⟨op, answer⟩ dict')
    (h : Inv options dict (before ++ phase :: after)) :
    Inv options dict'
      (before ++ ⟨phase.key, nextStage options phase.stage ⟨op, answer⟩⟩ :: after) := by
  have hmem : phase ∈ before ++ phase :: after := List.mem_append_right _ (List.mem_cons_self ..)
  have hcount : (phase.stage.isEntered.toNat : ℤ) ≤ stored dict phase.key := by
    have hself := h.count phase.key
    rw [countOf_middle, if_pos rfl] at hself
    omega
  have hmoves : Moves options dict dict' phase
      ⟨phase.key, nextStage options phase.stage ⟨op, answer⟩⟩ :=
    moves_of_effect hallowed heffect hcount (h.removing phase hmem)
  have hframe : ∀ key, key ≠ phase.key → dict' key = dict key :=
    fun key hne => frame_of_effect hallowed heffect hne
  generalize nextStage options phase.stage ⟨op, answer⟩ = stage' at hmoves ⊢
  have hcounted := h.count_step hmoves hframe
  refine ⟨hcounted, fun key => h.zero_step hmoves hframe, ?_,
    fun key => h.admitted_step hmoves key (hcounted key)⟩
  intro other hother remaining hstage
  rcases List.mem_append.mp hother with hother | hother
  · exact h.removing other (List.mem_append_left _ hother) remaining hstage
  rcases List.mem_cons.mp hother with rfl | hother
  · exact hmoves.removing remaining hstage
  · have hin : other ∈ phase :: after := List.mem_cons_of_mem _ hother
    exact h.removing other (List.mem_append_right _ hin) remaining hstage

end Step

theorem stage_arrive (context : HttpContext) :
    (arrive rt context).stage = .arrived ∨ (arrive rt context).stage = .bypassing := by
  unfold arrive
  cases isDiagnostic rt context with
  | true => exact .inl rfl
  | false => exact .inr rfl

/-- A request that has just arrived is not counted. -/
theorem Inv.spawn {dict : InFlight} {phases : List Phase} (h : Inv options dict phases)
    (context : HttpContext) : Inv options dict (phases ++ [arrive rt context]) := by
  have hsame : ∀ key (p : Stage → Bool), p .arrived = false → p .bypassing = false →
      countOf key p (phases ++ [arrive rt context]) = countOf key p phases := by
    intro key p harrived hbypassing
    have hnot : p (arrive rt context).stage = false := by
      rcases @stage_arrive rt context with hstage | hstage <;> rwa [hstage]
    rw [countOf_middle, hnot]
    simp [countOf]
  refine ⟨fun key => ?_, fun key hzero => List.mem_append_left _ (h.zero key hzero),
    fun phase hphase remaining hstage => ?_, fun key => ?_⟩
  · rw [hsame key _ rfl rfl, h.count]
  · rcases List.mem_append.mp hphase with hphase | hphase
    · exact h.removing phase hphase remaining hstage
    · rw [List.mem_singleton.mp hphase] at hstage
      rcases @stage_arrive rt context with harrive | harrive <;>
        exact absurd (harrive.symm.trans hstage) (by simp)
  · rw [hsame key _ rfl rfl]
    exact h.admitted key

abbrev State (N : Interface) := Config (Guard.sum N) HttpContext InFlight

def phases (rt : Runtime) (options : RateLimitingOptions) (c : State N) : List Phase :=
  c.threads.map (Thread.phase (protocol options) (arrive rt))

/-- The run lemma: the accounts are right in every reachable state. -/
theorem inv_of_reachable {c : State N} (h : (system rt options next).Reachable c) :
    Inv options c.shared (phases rt options c) := by
  have hstart : Inv options (system rt options next).start [] :=
    ⟨fun _ => rfl, fun _ h => absurd h (by simp [system]), by simp, fun _ => Nat.zero_le _⟩
  exact System.invariant_of_reachable (P := protocol options) follows_program hstart
    (fun _ _ context hinv => hinv.spawn context)
    (fun _ _ _ _ _ _ _ hallowed heffect hinv => hinv.step hallowed heffect) h

/-! ### What the stages say about the calls

Each stage fixes how often a request has incremented and decremented its count, and whether it has
gone on to the next middleware. -/

/-- The increment of the count of a client. -/
def isIncrement (key : Str) : Event (Guard.sum N) → Bool
  | ⟨.inl (.addOrIncrement key'), _⟩ => key' == key
  | _ => false

/-- The decrement of the count of a client. -/
def isDecrement (key : Str) : Event (Guard.sum N) → Bool
  | ⟨.inl (.addOrDecrement key'), _⟩ => key' == key
  | _ => false

/-- An increment that was answered more than the bound. -/
def isRejection (options : RateLimitingOptions) : Event (Guard.sum N) → Bool
  | ⟨.inl (.addOrIncrement _), current⟩ => decide ((current : ℤ) > options.maxConcurrentPerIp)
  | _ => false

/-- Going on to the next middleware, and every call that is made there. -/
def isNext : Event (Guard.sum N) → Bool
  | ⟨.inl .startNext, _⟩ => true
  | ⟨.inr _, _⟩ => true
  | _ => false

/-- The count has been incremented. -/
def Stage.hasEntered : Stage → Bool
  | arrived | bypassing => false
  | _ => true

/-- The count has been decremented. -/
def Stage.hasLeft : Stage → Bool
  | removing _ | left => true
  | _ => false

/-- Before the next middleware, or kept from it. -/
def Stage.isOutside : Stage → Bool
  | arrived | admitted | refused => true
  | _ => false

/-- Not answered more than the bound. -/
def Stage.isWithin : Stage → Bool
  | arrived | bypassing | admitted | inside => true
  | _ => false

/-- What a phase says about the calls of the request: it enters and leaves once and by its own key,
and is rejected or goes on to the next middleware, but not both. -/
structure Phase.Knows (options : RateLimitingOptions) (phase : Phase)
    (past : List (Event (Guard.sum N))) : Prop where
  increments (key : Str) : past.countP (isIncrement key) =
    if phase.key = key then phase.stage.hasEntered.toNat else 0
  decrements (key : Str) : past.countP (isDecrement key) =
    if phase.key = key then phase.stage.hasLeft.toNat else 0
  outside : phase.stage.isOutside = true → past.any isNext = false
  within : phase.stage.isWithin = true → past.any (isRejection options) = false
  apart : past.any (isRejection options) = true → past.any isNext = false

section Record

variable {key : Str} {stage stage' : Stage} {past : List (Event (Guard.sum N))}
  {e : Event (Guard.sum N)}

/-- How a call and the stage it leads to add up. -/
theorem Phase.Knows.append (h : Phase.Knows options ⟨key, stage⟩ past)
    (hincrement : ∀ key', (if key = key' then stage.hasEntered.toNat else 0) +
      (isIncrement key' e).toNat = if key = key' then stage'.hasEntered.toNat else 0)
    (hdecrement : ∀ key', (if key = key' then stage.hasLeft.toNat else 0) +
      (isDecrement key' e).toNat = if key = key' then stage'.hasLeft.toNat else 0)
    (houtside : stage'.isOutside = true → stage.isOutside = true ∧ isNext e = false)
    (hwithin : stage'.isWithin = true → stage.isWithin = true ∧ isRejection options e = false)
    (hrejection : isRejection options e = true → stage.isOutside = true ∧ isNext e = false)
    (hnext : isNext e = true → stage.isWithin = true) :
    Phase.Knows options ⟨key, stage'⟩ (past ++ [e]) where
  increments key' := by
    rw [countP_middle, h.increments]
    exact hincrement key'
  decrements key' := by
    rw [countP_middle, h.decrements]
    exact hdecrement key'
  outside hstage := by
    rw [List.any_append, h.outside (houtside hstage).1, List.any_cons, (houtside hstage).2]
    rfl
  within hstage := by
    rw [List.any_append, h.within (hwithin hstage).1, List.any_cons, (hwithin hstage).2]
    rfl
  apart hrejected := by
    rw [List.any_append, List.any_cons, List.any_nil, Bool.or_false, Bool.or_eq_true] at hrejected
    rw [List.any_append, List.any_cons, List.any_nil, Bool.or_false, Bool.or_eq_false_iff]
    rcases hrejected with hbefore | hnow
    · refine ⟨h.apart hbefore, Bool.eq_false_iff.mpr fun he => ?_⟩
      exact Bool.false_ne_true ((h.within (hnext he)).symm.trans hbefore)
    · exact ⟨h.outside (hrejection hnow).1, (hrejection hnow).2⟩

/-- A call of another kind leaves things as they are. -/
theorem Phase.Knows.append_other (h : Phase.Knows options ⟨key, stage⟩ past)
    (hincrement : ∀ key', isIncrement key' e = false)
    (hdecrement : ∀ key', isDecrement key' e = false) (hrejection : isRejection options e = false)
    (hnext : isNext e = true → stage.isOutside = false ∧ stage.isWithin = true) :
    Phase.Knows options ⟨key, stage⟩ (past ++ [e]) := by
  refine h.append (fun key' => by rw [hincrement]; rfl) (fun key' => by rw [hdecrement]; rfl)
    (fun hstage => ⟨hstage, ?_⟩) (fun hstage => ⟨hstage, hrejection⟩)
    (fun hrejected => absurd (hrejection.symm.trans hrejected) (by simp))
    fun hnow => (hnext hnow).2
  exact Bool.eq_false_iff.mpr fun hnow =>
    Bool.false_ne_true ((hnext hnow).1.symm.trans hstage)

theorem knows_enter (h : Phase.Knows options ⟨key, .arrived⟩ past) (current : ℤ) :
    Phase.Knows options
      ⟨key, if current > options.maxConcurrentPerIp then .refused else .admitted⟩
      (past ++ [⟨.inl (.addOrIncrement key), current⟩]) := by
  by_cases hfull : current > options.maxConcurrentPerIp
  · rw [if_pos hfull]
    refine h.append (fun key' => ?_) (fun key' => rfl) (fun _ => ⟨rfl, rfl⟩)
      (fun hwithin => nomatch hwithin) (fun _ => ⟨rfl, rfl⟩) fun hnext => nomatch hnext
    by_cases hkey : key = key' <;> simp [isIncrement, Stage.hasEntered, hkey]
  · rw [if_neg hfull]
    refine h.append (fun key' => ?_) (fun key' => rfl) (fun _ => ⟨rfl, rfl⟩)
      (fun _ => ⟨rfl, decide_eq_false hfull⟩) (fun _ => ⟨rfl, rfl⟩) fun hnext => nomatch hnext
    by_cases hkey : key = key' <;> simp [isIncrement, Stage.hasEntered, hkey]

theorem knows_leave (hstage : stage = .inside ∨ stage = .refused)
    (h : Phase.Knows options ⟨key, stage⟩ past) (remaining : ℤ) :
    Phase.Knows options ⟨key, if remaining ≤ 0 then .removing remaining else .left⟩
      (past ++ [⟨.inl (.addOrDecrement key), remaining⟩]) := by
  have hentered : stage.hasEntered = true ∧ stage.hasLeft = false := by
    rcases hstage with rfl | rfl <;> exact ⟨rfl, rfl⟩
  obtain ⟨stage', heq, hentered', hleft', houtside', hwithin'⟩ : ∃ stage' : Stage,
      (if remaining ≤ 0 then Stage.removing remaining else .left) = stage' ∧
        stage'.hasEntered = true ∧ stage'.hasLeft = true ∧ stage'.isOutside = false ∧
          stage'.isWithin = false := by
    split <;> exact ⟨_, rfl, rfl, rfl, rfl, rfl⟩
  rw [heq]
  refine h.append (fun key' => ?_) (fun key' => ?_)
    (fun hout => absurd (houtside'.symm.trans hout) (by simp))
    (fun hin => absurd (hwithin'.symm.trans hin) (by simp)) (fun hrejection => nomatch hrejection)
    fun hnext => nomatch hnext
  · rw [hentered.1, hentered']
    rfl
  · rw [hentered.2, hleft']
    by_cases hkey : key = key' <;> simp [isDecrement, hkey]

theorem knows_next {phase : Phase} (hallowed : isAllowed phase e.op)
    (h : phase.Knows options past) :
    Phase.Knows options ((protocol options).next phase e) (past ++ [e]) := by
  obtain ⟨key, stage⟩ := phase
  match e, hallowed with
  | ⟨.inl (.addOrIncrement _), current⟩, hallowed =>
    obtain ⟨rfl, rfl⟩ := hallowed
    exact knows_enter h current
  | ⟨.inl (.addOrDecrement key), remaining⟩, hallowed =>
    obtain ⟨rfl, hstage⟩ := hallowed
    have hknows := knows_leave hstage h remaining
    rwa [← @nextStage_addOrDecrement N options _ hstage key] at hknows
  | ⟨.inl (.tryRemove _ value), removed⟩, hallowed =>
    obtain ⟨rfl, rfl⟩ := hallowed
    exact h.append (fun key' => rfl) (fun key' => rfl) (fun hout => nomatch hout)
      (fun hin => nomatch hin) (fun hrejection => nomatch hrejection) fun hnext => nomatch hnext
  | ⟨.inl .startNext, answer⟩, hallowed =>
    rcases hallowed with rfl | rfl
    · exact h.append_other (fun _ => rfl) (fun _ => rfl) rfl fun _ => ⟨rfl, rfl⟩
    · exact h.append (fun key' => rfl) (fun key' => rfl) (fun hout => nomatch hout)
        (fun _ => ⟨rfl, rfl⟩) (fun hrejection => nomatch hrejection) fun _ => rfl
  | ⟨.inr _, answer⟩, hallowed =>
    rcases hallowed with rfl | rfl <;>
      exact h.append_other (fun _ => rfl) (fun _ => rfl) rfl fun _ => ⟨rfl, rfl⟩
  | ⟨.inl (.incRejected _), answer⟩, _ | ⟨.inl (.writeProblem _), answer⟩, _ =>
    cases stage <;>
      exact h.append_other (fun _ => rfl) (fun _ => rfl) rfl fun hnext => nomatch hnext

end Record

/-- The key of a phase stays the key of its request. -/
theorem key_phase (t : Thread (Guard.sum N) HttpContext) :
    (t.phase (protocol options) (arrive rt)).key = keyOf rt t.request := by
  have hkey : ∀ (es : List (Event (Guard.sum N))) (phase : Phase),
      (es.foldl (protocol options).next phase).key = phase.key := by
    intro es
    induction es with
    | nil => exact fun _ => rfl
    | cons e es ih => exact fun phase => ih _
  exact hkey _ _

theorem knows_of_reachable {c : State N} (h : (system rt options next).Reachable c) :
    ∀ t ∈ c.threads, (t.phase (protocol options) (arrive rt)).Knows options t.past := by
  refine System.records_of_reachable (P := protocol options) follows_program (fun context => ?_)
    (fun phase past e hallowed hknows => knows_next hallowed hknows) h
  have hstage : (arrive rt context).stage.hasEntered = false ∧
      (arrive rt context).stage.hasLeft = false := by
    rcases @stage_arrive rt context with hstage | hstage <;> rw [hstage] <;>
      exact ⟨rfl, rfl⟩
  refine ⟨fun key => ?_, fun key => ?_, fun _ => rfl, fun _ => rfl, fun _ => rfl⟩
  · rw [hstage.1]
    exact (ite_self _).symm
  · rw [hstage.2]
    exact (ite_self _).symm

/-! ### What the tracker promises

All of it is said by the calls of the requests and by the dictionary, in every reachable state. -/

/-- The request has entered and not yet left. -/
def hasEntered (key : Str) (past : List (Event (Guard.sum N))) : Bool :=
  past.any (isIncrement key) && !past.any (isDecrement key)

/-- A diagnostic of a client in the next middleware: gone on to it, and not yet back to leave. -/
def isInside (rt : Runtime) (key : Str) (t : Thread (Guard.sum N) HttpContext) : Bool :=
  isDiagnostic rt t.request && keyOf rt t.request == key &&
    (t.past.any isNext && !t.past.any (isDecrement key))

/-- What is promised of the tracker, in a state of any number of requests. What a request has done
is read off the calls that it has made, and not off its stage, so none of this depends on how the
stages are defined. -/
structure Tracked (rt : Runtime) (options : RateLimitingOptions) (c : State N) : Prop where
  /-- The count of a client is of its requests that have entered and not yet left. -/
  count_eq (key : Str) :
    stored c.shared key = c.threads.countP fun t => hasEntered key t.past
  inside_le (key : Str) : c.threads.countP (isInside rt key) ≤ options.maxConcurrentPerIp
  /-- A request that was answered more than the bound never gets to the next middleware. -/
  refused : ∀ t ∈ c.threads, t.past.any (isRejection options) = true → t.past.any isNext = false
  /-- The next step of a request leaves the counts of other clients alone. -/
  frame : ∀ before request past op next after answer dict',
    c.threads = before ++ ⟨request, past, .call op next⟩ :: after →
      effect c.shared ⟨op, answer⟩ dict' →
        ∀ key, key ≠ keyOf rt request → dict' key = c.shared key
  /-- A request enters once at most, and if it is over it has left as often as it has entered. -/
  once : ∀ t ∈ c.threads, ∀ key, t.past.countP (isIncrement key) ≤ 1 ∧
    (t.rest = .done () → t.past.countP (isDecrement key) = t.past.countP (isIncrement key))
  /-- Where every request that has entered is over, no key is left. -/
  empty : (∀ t ∈ c.threads, (∃ key, t.past.any (isIncrement key) = true) → t.rest = .done ()) →
    ∀ key, c.shared key = none
  /-- With fewer requests than an `int` can count, no count wraps around. -/
  fits (key : Str) : 0 ≤ stored c.shared key ∧ stored c.shared key ≤ c.threads.length

theorem any_eq_of_countP {p : Event (Guard.sum N) → Bool} {es : List (Event (Guard.sum N))}
    {b : Bool} (h : es.countP p = b.toNat) : es.any p = b := by
  cases b with
  | false =>
    refine List.any_eq_false.mpr fun e he => ?_
    exact List.countP_eq_zero.mp h e he
  | true =>
    obtain ⟨e, he, hp⟩ := List.countP_pos_iff.mp (Nat.lt_of_lt_of_eq Nat.one_pos h.symm)
    exact List.any_eq_true.mpr ⟨e, he, hp⟩

theorem Phase.Knows.hasEntered_eq {phase : Phase} {past : List (Event (Guard.sum N))}
    (h : phase.Knows options past) (key : Str) :
    hasEntered key past = (phase.key == key && phase.stage.isEntered) := by
  have hincrement := h.increments key
  have hdecrement := h.decrements key
  by_cases hkey : phase.key = key
  · rw [if_pos hkey] at hincrement hdecrement
    rw [hasEntered, any_eq_of_countP hincrement, any_eq_of_countP hdecrement, hkey,
      beq_self_eq_true, Bool.true_and]
    cases phase.stage <;> rfl
  · rw [if_neg hkey] at hincrement
    rw [hasEntered, any_eq_of_countP (b := false) hincrement, beq_eq_false_iff_ne.mpr hkey]
    rfl

/-- The count of a client is of its requests that have entered and not yet left. -/
theorem stored_eq_countP {c : State N} (h : (system rt options next).Reachable c) (key : Str) :
    stored c.shared key = c.threads.countP fun t => hasEntered key t.past := by
  rw [(inv_of_reachable h).count, countOf, phases, List.countP_map]
  refine congrArg Nat.cast (List.countP_congr fun t ht => ?_)
  rw [(knows_of_reachable h t ht).hasEntered_eq]
  rfl

/-- A diagnostic does not come to bypass the tracker. -/
theorem stage_ne_bypassing {t : Thread (Guard.sum N) HttpContext}
    (h : isDiagnostic rt t.request = true) :
    (t.phase (protocol options) (arrive rt)).stage ≠ .bypassing := by
  have hnext : ∀ (stage : Stage) (e : Event (Guard.sum N)),
      nextStage options stage e = .bypassing → stage = .bypassing := by
    intro stage e hbypassing
    unfold nextStage at hbypassing
    split at hbypassing
    · split at hbypassing <;> exact nomatch hbypassing
    · exact nomatch hbypassing
    · split at hbypassing <;> exact nomatch hbypassing
    · split at hbypassing <;> exact nomatch hbypassing
    · exact nomatch hbypassing
    · exact hbypassing
  have hrun : ∀ (es : List (Event (Guard.sum N))) (phase : Phase),
      (es.foldl (protocol options).next phase).stage = .bypassing → phase.stage = .bypassing := by
    intro es
    induction es with
    | nil => exact fun _ hstage => hstage
    | cons e es ih => exact fun phase hstage => hnext _ _ (ih _ hstage)
  intro hbypassing
  have hstart := hrun _ _ hbypassing
  rw [arrive, h] at hstart
  exact nomatch hstart

/-- Who is inside by its calls has been admitted. -/
theorem isAdmitted_of_isInside {t : Thread (Guard.sum N) HttpContext} {key : Str}
    (h : (t.phase (protocol options) (arrive rt)).Knows options t.past)
    (hinside : isInside rt key t = true) :
    ((t.phase (protocol options) (arrive rt)).key == key &&
      (t.phase (protocol options) (arrive rt)).stage.isAdmitted) = true := by
  obtain ⟨⟨hdiagnostic, hkey⟩, hnext, hstays⟩ : (isDiagnostic rt t.request = true ∧
      (keyOf rt t.request == key) = true) ∧ t.past.any isNext = true ∧
        (!t.past.any (isDecrement key)) = true := by
    simpa only [isInside, Bool.and_eq_true] using hinside
  have hne := @stage_ne_bypassing N rt options _ hdiagnostic
  have hoff : (t.phase (protocol options) (arrive rt)).stage.isOutside ≠ true :=
    fun hout => Bool.false_ne_true ((h.outside hout).symm.trans hnext)
  have hdecrement := h.decrements key
  rw [key_phase, if_pos (beq_iff_eq.mp hkey)] at hdecrement
  rw [any_eq_of_countP hdecrement] at hstays
  rw [key_phase, hkey, Bool.true_and]
  generalize (t.phase (protocol options) (arrive rt)).stage = stage at hne hoff hstays ⊢
  cases stage with
  | admitted | inside => rfl
  | bypassing => exact absurd rfl hne
  | arrived | refused => exact absurd rfl hoff
  | removing _ | left => exact nomatch hstays

theorem isOut_of_done {c : State N} {t : Thread (Guard.sum N) HttpContext}
    (h : (system rt options next).Reachable c) (ht : t ∈ c.threads) (hdone : t.rest = .done ()) :
    (t.phase (protocol options) (arrive rt)).stage.isOut = true := by
  have hthread := System.follows_of_reachable follows_program h t ht
  rwa [hdone] at hthread

/-- A request that is out has left if it has entered. -/
theorem Stage.hasLeft_of_isOut {stage : Stage} (h : stage.isOut = true) :
    stage.hasLeft = stage.hasEntered := by
  cases stage <;> first | rfl | exact nomatch h

theorem Stage.isOut_of_not_hasEntered {stage : Stage} (h : stage.hasEntered = false) :
    stage.isOut = true := by
  cases stage <;> first | rfl | exact nomatch h

theorem Stage.isEntered_of_isOut {stage : Stage} (h : stage.isOut = true) :
    stage.isEntered = false := by
  cases stage <;> first | rfl | exact nomatch h

/-- Where every request that has entered is over, all are out. -/
theorem isOut_of_over {c : State N} (h : (system rt options next).Reachable c)
    (hover : ∀ t ∈ c.threads, (∃ key, t.past.any (isIncrement key) = true) → t.rest = .done ())
    {phase : Phase} (hphase : phase ∈ phases rt options c) : phase.stage.isOut = true := by
  obtain ⟨t, ht, rfl⟩ := List.mem_map.mp hphase
  have hself := (knows_of_reachable h t ht).increments (t.phase (protocol options) (arrive rt)).key
  rw [if_pos rfl] at hself
  cases hentered : (t.phase (protocol options) (arrive rt)).stage.hasEntered with
  | true => exact isOut_of_done h ht (hover t ht ⟨_, (any_eq_of_countP hself).trans hentered⟩)
  | false => exact Stage.isOut_of_not_hasEntered hentered

/-- If all are out, no key is left. -/
theorem empty_of_isOut {dict : InFlight} {phases : List Phase} (h : Inv options dict phases)
    (hout : ∀ phase ∈ phases, phase.stage.isOut = true) (key : Str) : dict key = none := by
  have hzero : stored dict key = 0 := by
    rw [h.count, countOf, List.countP_eq_zero.mpr fun phase hphase => ?_]
    · rfl
    · rw [Stage.isEntered_of_isOut (hout phase hphase), Bool.and_false]
      exact Bool.false_ne_true
  cases hkey : dict key with
  | none => rfl
  | some count =>
    rw [stored, hkey, Option.getD_some] at hzero
    subst hzero
    exact absurd (hout _ (h.zero key hkey)) Bool.false_ne_true

/-- **The tracker counts right.** However requests interleave, and whatever comes in between the
two operations of a leave, the count of a client is the number of its requests that have entered
and not yet left, at most `MaxConcurrentPerIp` of them are in the next middleware, and no count
stays behind. -/
theorem tracked_of_reachable {c : State N} (h : (system rt options next).Reachable c) :
    Tracked rt options c := by
  have hinv := inv_of_reachable h
  have hfollows := System.follows_of_reachable follows_program h
  have hknows := knows_of_reachable h
  exact {
    count_eq := stored_eq_countP h
    inside_le := fun key => by
      refine le_trans ?_ (hinv.admitted key)
      rw [countOf, phases, List.countP_map]
      exact List.countP_mono_left fun t ht => isAdmitted_of_isInside (hknows t ht)
    refused := fun t ht => (hknows t ht).apart
    frame := by
      intro before request past op next after answer dict' hthreads heffect key hne
      have hmem : (⟨request, past, .call op next⟩ : Thread (Guard.sum N) HttpContext) ∈ c.threads :=
        hthreads ▸ List.mem_append_right _ (List.mem_cons_self ..)
      refine frame_of_effect (hfollows _ hmem).1 heffect ?_
      rwa [key_phase]
    once := by
      intro t ht key
      rw [(hknows t ht).increments, (hknows t ht).decrements]
      refine ⟨?_, fun hdone => ?_⟩
      · split
        · exact Bool.toNat_le _
        · exact Nat.zero_le _
      · rw [Stage.hasLeft_of_isOut (isOut_of_done h ht hdone)]
    empty := fun hover => empty_of_isOut hinv fun phase hphase => isOut_of_over h hover hphase
    fits := fun key => by
      rw [stored_eq_countP h]
      exact ⟨Int.natCast_nonneg _, Int.ofNat_le.mpr List.countP_le_length⟩ }

/-- One request of a client has decremented the count to zero, and another one enters before the
first comes to remove it: the count of one stays. -/
theorem tracked_of_late_removal :
    ∃ c : State Guard, phases Runtime.reference {} c =
        [⟨ofString "unknown", .left⟩, ⟨ofString "unknown", .admitted⟩] ∧
      stored c.shared "unknown" = 1 ∧ Tracked Runtime.reference {} c := by
  let context : HttpContext := ⟨"/api/v1/diagnostics/ping", none⟩
  let sys := system (N := Guard) Runtime.reference {} fun _ => pure ()
  let fst : List (Event (Guard.sum Guard)) :=
    [⟨.inl (.addOrIncrement "unknown"), (1 : ℤ)⟩, ⟨.inl .startNext, ()⟩,
      ⟨.inl (.addOrDecrement "unknown"), (0 : ℤ)⟩]
  let snd : List (Event (Guard.sum Guard)) := [⟨.inl (.addOrIncrement "unknown"), (1 : ℤ)⟩]
  let last : List (Event (Guard.sum Guard)) := [⟨.inl (.tryRemove "unknown" 0), false⟩]
  obtain ⟨p, q, hp, hq⟩ : ∃ p q, (sys.program context).Steps fst p ∧ p.Steps last q :=
    ⟨_, _, .call _ (.call _ (.call _ (.refl _))), .call _ (.refl _)⟩
  obtain ⟨r, hr⟩ : ∃ r, (sys.program context).Steps snd r := ⟨_, .call _ (.refl _)⟩
  let one : InFlight := Function.update (fun _ => none) "unknown" (some 1)
  let zero : InFlight := Function.update one "unknown" (some 0)
  let again : InFlight := Function.update zero "unknown" (some 1)
  have hfst : sys.Effects (fun _ => none) fst zero :=
    .cons ⟨rfl, rfl⟩ (.cons rfl (.cons ⟨rfl, rfl⟩ (.nil _)))
  have hsnd : sys.Effects zero snd again := .cons ⟨rfl, rfl⟩ (.nil _)
  have hlast : sys.Effects again last again := by
    have hgone : again "unknown" ≠ some 0 := by decide
    exact .cons (by simp [sys, system, effect, hgone]) (.nil _)
  have h₀ : sys.Reachable ⟨fun _ => none,
      [] ++ ⟨context, [], sys.program context⟩ :: [⟨context, [], sys.program context⟩]⟩ :=
    (Relation.ReflTransGen.refl.tail (.spawn _ context)).tail (.spawn _ context)
  have h₁ : sys.Reachable ⟨zero,
      [⟨context, [] ++ fst, p⟩] ++ ⟨context, [], sys.program context⟩ :: []⟩ := h₀.steps hp hfst
  have h₂ : sys.Reachable ⟨again, [] ++ ⟨context, [] ++ fst, p⟩ :: [⟨context, [] ++ snd, r⟩]⟩ :=
    h₁.steps hr hsnd
  exact ⟨_, rfl, rfl, tracked_of_reachable (h₂.steps hq hlast)⟩

end ConcurrencyGuard

end LookingGlass
