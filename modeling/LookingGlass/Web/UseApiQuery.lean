import LookingGlass.Web.UseDiagnostic

/-!
# The hook that polls

A page refreshes its data when it opens, on a timer, and when the visitor asks for it, and it never
waits for one refresh to finish before it starts another. Every refresh aborts the fetch before it
and so does the cleanup of the effect, but a fetch may ignore its signal and settle all the same, at
any later time. What it may then do to the four pieces of state is decided by its own signal and by
whether the reference still holds its controller, and these are two different tests.

Fetches are known by the number of their controller, which is their place in the order of starting.
A history lists the actions, the newest first. `writes` is no part of the hook: it records the calls
of the setters after an `await`, so that something can be said about a write that changes nothing.

## Signal and reference

After the `await`, the `try` and the `catch` look at the signal of their own fetch. The `finally`
looks at the reference. A cleanup aborts the signal and leaves the reference as it is, so that a
fetch that was aborted by a cleanup writes nothing and still ends the refreshing. This is why the
two are kept apart in the statement: what is written is about fetches that nothing has superseded,
and `refreshing` is about the fetch that started last.

A fetch starts before it settles, and settles once. Since a refresh aborts the fetch before it, a
fetch that is not aborted has none after it, and those that write do so in the order of starting.

## Main results

* `UseApiQuery.loading_iff_of_reached` — the page loads until a fetch has written
* `UseApiQuery.current_of_reached` — only a fetch that nothing has superseded writes, in the order
  of starting, and `refreshing` is about the fetch that started last
-/

namespace LookingGlass

namespace UseApiQuery

open UseDiagnostic (Settlement)

variable {T Caught PlainApiError Time : Type}

/-- `LoadResult`. -/
inductive LoadResult (T PlainApiError Time : Type)
  | ok (data : T) («at» : Time)
  | error (error : PlainApiError)

/-- What a fetch has set after its `await`. The code keeps no such list; it is what the statement on
the order of writes is about. -/
inductive Write (T PlainApiError Time : Type)
  | next (controller : ℕ) (data : T) (updatedAt : Time)
  | error (controller : ℕ) (error : PlainApiError)

def Write.controller : Write T PlainApiError Time → ℕ
  | .next controller _ _ => controller
  | .error controller _ => controller

/-- What happens to the hook. The effect runs when it is mounted or one of its dependencies changes,
a tick of the timer finds the page visible or not. -/
inductive Action (T Caught Time : Type)
  | effect (enabled hasInitialData : Bool)
  | tick (visible : Bool)
  | refresh
  | cleanup
  | settle (controller : ℕ) (now : Time) (settlement : Settlement T Caught)

/-- The four pieces of state, the reference, the controllers that have been made and the fetches
that wait. -/
structure Hook (T PlainApiError Time : Type) where
  data : Option T
  error : Option PlainApiError
  updatedAt : Option Time
  refreshing : Bool
  controllerRef : Option ℕ
  controllers : ℕ
  aborted : List ℕ
  waiting : List ℕ
  writes : List (Write T PlainApiError Time)

namespace Hook

/-- The first render. -/
def new : Option (LoadResult T PlainApiError Time) → Hook T PlainApiError Time
  | none => ⟨none, none, none, false, none, 0, [], [], []⟩
  | some (.ok data «at») => ⟨some data, none, some «at», false, none, 0, [], [], []⟩
  | some (.error error) => ⟨none, some error, none, false, none, 0, [], [], []⟩

variable (hook : Hook T PlainApiError Time)

def loading : Bool := hook.data.isNone && hook.error.isNone

/-- `controllerRef.current?.abort()`. -/
def abort : Hook T PlainApiError Time :=
  { hook with aborted := hook.controllerRef.toList ++ hook.aborted }

/-- The part of `run` before the `await`. -/
def run : Hook T PlainApiError Time :=
  let controller := hook.controllers
  { hook.abort with
    controllers := controller + 1
    controllerRef := some controller
    refreshing := true
    waiting := controller :: hook.waiting }

def effect (enabled hasInitialData : Bool) : Hook T PlainApiError Time :=
  if !enabled then hook
  else if !hasInitialData then hook.run
  else hook

def tick (visible : Bool) : Hook T PlainApiError Time :=
  if visible then hook.run else hook

/-- The `try` and the `catch` of `run` after the `await`. -/
def resume (errors : ApiErrors Caught PlainApiError) (controller : ℕ) (now : Time) :
    Settlement T Caught → Hook T PlainApiError Time
  | .resolved next =>
    if controller ∈ hook.aborted then hook
    else
      { hook with
        data := some next
        error := none
        updatedAt := some now
        writes := .next controller next now :: hook.writes }
  | .rejected caught =>
    if controller ∈ hook.aborted ∨ errors.isAbortError caught then hook
    else
      { hook with
        error := some (errors.toPlainError caught)
        writes := .error controller (errors.toPlainError caught) :: hook.writes }

/-- The `finally` of `run`. -/
def leave (controller : ℕ) : Hook T PlainApiError Time :=
  if hook.controllerRef = some controller then { hook with refreshing := false } else hook

/-- A promise settles once, so a settlement takes a fetch from those that wait. -/
def step (errors : ApiErrors Caught PlainApiError) :
    Action T Caught Time → Option (Hook T PlainApiError Time)
  | .effect enabled hasInitialData => some (hook.effect enabled hasInitialData)
  | .tick visible => some (hook.tick visible)
  | .refresh => some hook.run
  | .cleanup => some hook.abort
  | .settle controller now settlement =>
    if controller ∈ hook.waiting then
      let waiting := hook.waiting.filter (· != controller)
      some ((({ hook with waiting := waiting } : Hook T PlainApiError Time).resume errors controller
        now settlement).leave controller)
    else none

end Hook

/-! ### Histories

What is said about the hook is said in terms of what has happened: when fetches started, what came
after that, and which of them have settled. -/

/-- Whether `run` is called. -/
def Action.refreshes : Action T Caught Time → Bool
  | .effect enabled hasInitialData => enabled && !hasInitialData
  | .tick visible => visible
  | .refresh => true
  | .cleanup => false
  | .settle _ _ _ => false

def Action.supersedes : Action T Caught Time → Bool
  | .cleanup => true
  | action => action.refreshes

/-- How many fetches there have been. -/
def started : List (Action T Caught Time) → ℕ
  | [] => 0
  | action :: earlier => if action.refreshes then started earlier + 1 else started earlier

/-- The fetch that started last. -/
def latest : List (Action T Caught Time) → Option ℕ
  | [] => none
  | action :: earlier => if action.refreshes then some (started earlier) else latest earlier

/-- What has happened since a fetch started. -/
def since (controller : ℕ) : List (Action T Caught Time) → List (Action T Caught Time)
  | [] => []
  | action :: earlier =>
    if controller < started earlier then action :: since controller earlier else []

/-- A refresh or a cleanup came after the fetch had started. It is read off the history, and says
nothing about signals. -/
def Superseded (controller : ℕ) (history : List (Action T Caught Time)) : Prop :=
  ∃ action ∈ since controller history, action.supersedes

def Settled (controller : ℕ) (history : List (Action T Caught Time)) : Prop :=
  ∃ now settlement, .settle controller now settlement ∈ history

/-- The data on the screen and its time, as the fetch that has written them last left them. -/
def shown (initial : Option (LoadResult T PlainApiError Time)) :
    List (Write T PlainApiError Time) → Option T × Option Time
  | [] => ((Hook.new initial).data, (Hook.new initial).updatedAt)
  | .next _ data updatedAt :: _ => (some data, some updatedAt)
  | .error _ _ :: earlier => shown initial earlier

/-- The hook after any sequence of refreshes, cleanups and settlements. A fetch settles at most
once, at any time after it has started, or never. -/
inductive Reached (errors : ApiErrors Caught PlainApiError)
    (initial : Option (LoadResult T PlainApiError Time)) :
    List (Action T Caught Time) → Hook T PlainApiError Time → Prop
  | new : Reached errors initial [] (Hook.new initial)
  | step {history : List (Action T Caught Time)} {action : Action T Caught Time}
      {hook hook' : Hook T PlainApiError Time} (before : Reached errors initial history hook)
      (next : hook.step errors action = some hook') :
      Reached errors initial (action :: history) hook'

/-- What holds of the hook after a history, and of the step that comes next. -/
structure Current (errors : ApiErrors Caught PlainApiError)
    (initial : Option (LoadResult T PlainApiError Time)) (history : List (Action T Caught Time))
    (hook : Hook T PlainApiError Time) : Prop where
  /-- Each fetch that has written started after those that had written before. -/
  increasing : (hook.writes.map (·.controller)).Pairwise (· > ·)
  shown : (hook.data, hook.updatedAt) = shown initial hook.writes
  /-- Only a settlement of a fetch that nothing has superseded writes. -/
  unchanged : ∀ action hook', hook.step errors action = some hook' →
    (∀ controller now settlement, action = .settle controller now settlement →
      Superseded controller history) →
    hook'.data = hook.data ∧ hook'.error = hook.error ∧ hook'.updatedAt = hook.updatedAt ∧
      hook'.writes = hook.writes
  failed : ∀ controller now caught hook',
    hook.step errors (.settle controller now (.rejected caught)) = some hook' →
    hook'.data = hook.data ∧ hook'.updatedAt = hook.updatedAt
  succeeded : ∀ controller now next hook',
    hook.step errors (.settle controller now (.resolved next)) = some hook' →
    ¬ Superseded controller history →
    hook'.data = some next ∧ hook'.error = none ∧ hook'.updatedAt = some now ∧
      hook'.writes = .next controller next now :: hook.writes
  refreshing : hook.refreshing = false ↔
    ∀ controller ∈ latest history, Settled controller history

variable {errors : ApiErrors Caught PlainApiError}
  {initial : Option (LoadResult T PlainApiError Time)}
  {history : List (Action T Caught Time)} {action : Action T Caught Time}
  {hook hook' : Hook T PlainApiError Time} {controller : ℕ} {now : Time}
  {settlement : Settlement T Caught}

theorem started_le_cons : started history ≤ started (action :: history) := by
  rw [started]
  split <;> omega

/-- Once a fetch has started, what happens next is since it started. -/
theorem superseded_cons (h : controller < started history) :
    Superseded controller (action :: history) ↔
      action.supersedes ∨ Superseded controller history := by
  show (∃ later ∈ since controller (action :: history), later.supersedes = true) ↔ _
  rw [since, if_pos h]
  simp only [List.mem_cons, exists_eq_or_imp]
  exact Iff.rfl

theorem not_superseded_of_le (h : started history ≤ controller) :
    ¬ Superseded controller (action :: history) := by
  rintro ⟨later, hlater, -⟩
  rw [since, if_neg (Nat.not_lt.mpr h)] at hlater
  exact absurd hlater List.not_mem_nil

theorem lt_of_superseded (h : Superseded controller history) : controller < started history := by
  cases history with
  | nil => exact absurd h (by simp [Superseded, since])
  | cons action earlier =>
    by_contra hle
    have hearlier : started earlier ≤ started (action :: earlier) := started_le_cons
    exact not_superseded_of_le (by omega) h

theorem started_of_latest (h : latest history = some controller) :
    started history = controller + 1 := by
  induction history with
  | nil => exact absurd h (by simp [latest])
  | cons action earlier ih =>
    rw [latest] at h
    rw [started]
    split at h
    · obtain rfl := Option.some.inj h
      rw [if_pos (by assumption)]
    · rw [if_neg (by assumption)]
      exact ih h

/-- A fetch that nothing has superseded is the one that started last. -/
theorem latest_of_not_superseded (hstarted : controller < started history)
    (h : ¬ Superseded controller history) : latest history = some controller := by
  induction history with
  | nil => exact absurd hstarted (Nat.not_lt_zero _)
  | cons action earlier ih =>
    rw [started] at hstarted
    rw [latest]
    by_cases hrefresh : action.refreshes
    · rw [if_pos hrefresh] at hstarted ⊢
      by_contra hne
      have hlt : controller < started earlier := by
        have hne' : started earlier ≠ controller := fun heq => hne (congrArg some heq)
        omega
      have hsupersedes : action.supersedes := by cases action <;> first | exact hrefresh | rfl
      exact h ((superseded_cons hlt).mpr (.inl hsupersedes))
    · rw [if_neg hrefresh] at hstarted ⊢
      exact ih hstarted fun hearlier => h ((superseded_cons hstarted).mpr (.inr hearlier))

theorem superseded_cons_of_not_supersedes (h : action.supersedes = false) :
    Superseded controller (action :: history) ↔ Superseded controller history := by
  by_cases hstarted : controller < started history
  · rw [superseded_cons hstarted, h]
    simp
  · exact iff_of_false (not_superseded_of_le (Nat.not_lt.mp hstarted))
      fun hsuperseded => hstarted (lt_of_superseded hsuperseded)

theorem settled_cons_settle {other : ℕ} :
    Settled other (.settle controller now settlement :: history) ↔
      other = controller ∨ Settled other history := by
  constructor
  · rintro ⟨now', settlement', hmem⟩
    rcases List.mem_cons.mp hmem with heq | hmem
    · injection heq with hcontroller
      exact .inl hcontroller
    · exact .inr ⟨now', settlement', hmem⟩
  · rintro (rfl | ⟨now', settlement', hmem⟩)
    · exact ⟨now, settlement, List.mem_cons_self⟩
    · exact ⟨now', settlement', List.mem_cons_of_mem _ hmem⟩

theorem settled_cons_of_ne
    (h : ∀ controller now settlement, action ≠ .settle controller now settlement)
    {other : ℕ} : Settled other (action :: history) ↔ Settled other history := by
  constructor
  · rintro ⟨now, settlement, hmem⟩
    rcases List.mem_cons.mp hmem with heq | hmem
    · exact absurd heq.symm (h other now settlement)
    · exact ⟨now, settlement, hmem⟩
  · exact fun hsettled => hsettled.imp fun now hmem => hmem.imp fun _ => List.mem_cons_of_mem _

theorem Settled.cons (h : Settled controller history) : Settled controller (action :: history) := by
  obtain ⟨now, settlement, hmem⟩ := h
  exact ⟨now, settlement, List.mem_cons_of_mem _ hmem⟩

/-! ### One step

What a step does to the pieces of state, and what the hook knows of its history before and after it.
-/

/-- What follows the `await` changes the state, and records what it sets. -/
theorem resume_eq (hook : Hook T PlainApiError Time) (settlement : Settlement T Caught) :
    ∃ data error updatedAt writes,
      hook.resume errors controller now settlement =
        { hook with data := data, error := error, updatedAt := updatedAt, writes := writes } := by
  cases settlement with
  | resolved next =>
    simp only [Hook.resume]
    split <;> exact ⟨_, _, _, _, rfl⟩
  | rejected caught =>
    simp only [Hook.resume]
    split <;> exact ⟨_, _, _, _, rfl⟩

theorem leave_eq (hook : Hook T PlainApiError Time) :
    ∃ refreshing, hook.leave controller = { hook with refreshing := refreshing } := by
  rw [Hook.leave]
  split <;> exact ⟨_, rfl⟩

theorem leave_resume_eq (hook : Hook T PlainApiError Time) (settlement : Settlement T Caught) :
    ∃ data error updatedAt refreshing writes,
      (hook.resume errors controller now settlement).leave controller =
        { hook with
          data := data
          error := error
          updatedAt := updatedAt
          refreshing := refreshing
          writes := writes } := by
  obtain ⟨data, error, updatedAt, writes, hresume⟩ :=
    @resume_eq _ _ _ _ errors controller now hook settlement
  obtain ⟨refreshing, hleave⟩ :=
    @leave_eq _ _ _ controller (hook.resume errors controller now settlement)
  rw [hleave, hresume]
  exact ⟨data, error, updatedAt, refreshing, writes, rfl⟩

/-- The `finally` looks at the reference only. -/
theorem leave_resume_refreshing (hook : Hook T PlainApiError Time)
    (settlement : Settlement T Caught) :
    (hook.controllerRef = some controller →
      ((hook.resume errors controller now settlement).leave controller).refreshing = false) ∧
    (hook.controllerRef ≠ some controller →
      ((hook.resume errors controller now settlement).leave controller).refreshing =
        hook.refreshing) := by
  obtain ⟨data, error, updatedAt, writes, heq⟩ :=
    @resume_eq _ _ _ _ errors controller now hook settlement
  rw [heq]
  constructor
  · intro href
    rw [Hook.leave, if_pos href]
  · intro href
    rw [Hook.leave, if_neg href]

/-- The `try` and the `catch` look at the signal only. -/
theorem resume_writes (hook : Hook T PlainApiError Time) (settlement : Settlement T Caught) :
    ((hook.resume errors controller now settlement).leave controller).writes = hook.writes ∨
      controller ∉ hook.aborted ∧ ∃ write : Write T PlainApiError Time,
        write.controller = controller ∧
        ((hook.resume errors controller now settlement).leave controller).writes =
          write :: hook.writes := by
  obtain ⟨refreshing, hleave⟩ :=
    @leave_eq _ _ _ controller (hook.resume errors controller now settlement)
  rw [hleave]
  cases settlement with
  | resolved next =>
    simp only [Hook.resume]
    split
    · exact .inl rfl
    · exact .inr ⟨by assumption, _, rfl, rfl⟩
  | rejected caught =>
    simp only [Hook.resume]
    split
    · exact .inl rfl
    · exact .inr ⟨(not_or.mp (by assumption)).1, _, rfl, rfl⟩

/-- What a step can do. -/
theorem step_cases (h : hook.step errors action = some hook') :
    (action.refreshes = true ∧ hook' = hook.run) ∨
      (action.refreshes = false ∧ action.supersedes = false ∧
        (∀ controller now settlement, action ≠ .settle controller now settlement) ∧ hook' = hook) ∨
      (action = .cleanup ∧ hook' = hook.abort) ∨
      ∃ controller now settlement, action = .settle controller now settlement ∧
        controller ∈ hook.waiting ∧
        hook' = (({ hook with waiting := hook.waiting.filter (· != controller) } :
          Hook T PlainApiError Time).resume errors controller now settlement).leave controller := by
  cases action with
  | effect enabled hasInitialData =>
    obtain rfl := Option.some.inj h
    cases enabled
    · exact .inr (.inl ⟨rfl, rfl, (fun _ _ _ h => nomatch h), rfl⟩)
    · cases hasInitialData
      · exact .inl ⟨rfl, rfl⟩
      · exact .inr (.inl ⟨rfl, rfl, (fun _ _ _ h => nomatch h), rfl⟩)
  | tick visible =>
    obtain rfl := Option.some.inj h
    cases visible
    · exact .inr (.inl ⟨rfl, rfl, (fun _ _ _ h => nomatch h), rfl⟩)
    · exact .inl ⟨rfl, rfl⟩
  | refresh => exact .inl ⟨rfl, (Option.some.inj h).symm⟩
  | cleanup => exact .inr (.inr (.inl ⟨rfl, (Option.some.inj h).symm⟩))
  | settle controller now settlement =>
    simp only [Hook.step] at h
    split at h
    · exact .inr (.inr (.inr ⟨controller, now, settlement, rfl, by assumption,
        (Option.some.inj h).symm⟩))
    · exact absurd h (by simp)

/-- What the hook knows of its history: a signal is aborted exactly if something has superseded its
fetch, and the reference holds the fetch that started last. -/
structure Consistent (history : List (Action T Caught Time)) (hook : Hook T PlainApiError Time) :
    Prop where
  controllers : hook.controllers = started history
  controllerRef : hook.controllerRef = latest history
  aborted : ∀ controller, controller ∈ hook.aborted ↔ Superseded controller history
  waiting : ∀ controller, controller ∈ hook.waiting ↔
    controller < started history ∧ ¬ Settled controller history
  settled : ∀ controller, Settled controller history → controller < started history
  refreshing : hook.refreshing = false ↔
    ∀ controller ∈ latest history, Settled controller history
  written : ∀ write ∈ hook.writes, Settled write.controller history
  increasing : (hook.writes.map (·.controller)).Pairwise (· > ·)

namespace Consistent

/-- Aborting the controller in the reference is enough: the fetches before it have been
superseded. -/
theorem mem_abort_iff (hc : Consistent history hook) (h : action.supersedes = true) :
    controller ∈ hook.abort.aborted ↔ Superseded controller (action :: history) := by
  show controller ∈ hook.controllerRef.toList ++ hook.aborted ↔ _
  rw [List.mem_append, Option.mem_toList, hc.controllerRef, hc.aborted]
  by_cases hstarted : controller < started history
  · refine iff_of_true ?_ ((superseded_cons hstarted).mpr (.inl h))
    by_cases hsuperseded : Superseded controller history
    · exact .inr hsuperseded
    · exact .inl (latest_of_not_superseded hstarted hsuperseded)
  · refine iff_of_false ?_ (not_superseded_of_le (Nat.not_lt.mp hstarted))
    rintro (hlatest | hsuperseded)
    · have hlast := started_of_latest hlatest
      omega
    · exact hstarted (lt_of_superseded hsuperseded)

/-- A fetch whose signal is not aborted is the last one. -/
theorem le_of_not_aborted (hc : Consistent history hook) (hstarted : controller < started history)
    (h : controller ∉ hook.aborted) {other : ℕ} (hother : other < started history) :
    other ≤ controller := by
  have hlatest := latest_of_not_superseded hstarted (mt (hc.aborted controller).mpr h)
  have hlast := started_of_latest hlatest
  omega

theorem run (hc : Consistent history hook) (h : action.refreshes = true) :
    Consistent (action :: history) hook.run := by
  have hne : ∀ controller now settlement, action ≠ .settle controller now settlement := by
    rintro controller now settlement rfl
    exact absurd h (by simp [Action.refreshes])
  have hstarted : started (action :: history) = started history + 1 := by rw [started, if_pos h]
  have hlatest : latest (action :: history) = some (started history) := by rw [latest, if_pos h]
  have hopen : ¬ Settled (started history) history :=
    fun hsettled => Nat.lt_irrefl _ (hc.settled _ hsettled)
  have hsupersedes : action.supersedes = true := by cases action <;> first | exact h | rfl
  refine ⟨?_, ?_, ?_, ?_, ?_, ?_, ?_, hc.increasing⟩
  · show hook.controllers + 1 = _
    rw [hstarted, hc.controllers]
  · show some hook.controllers = _
    rw [hlatest, hc.controllers]
  · exact fun controller => hc.mem_abort_iff hsupersedes
  · intro controller
    show controller ∈ hook.controllers :: hook.waiting ↔ _
    rw [List.mem_cons, hc.waiting, hc.controllers, hstarted, settled_cons_of_ne hne]
    by_cases heq : controller = started history
    · subst heq
      simp [hopen]
    · simp only [heq, false_or]
      refine and_congr_left fun _ => ?_
      omega
  · intro controller hsettled
    rw [hstarted]
    exact Nat.lt_succ_of_lt (hc.settled controller ((settled_cons_of_ne hne).mp hsettled))
  · show true = false ↔ _
    rw [hlatest]
    simp [settled_cons_of_ne hne, hopen]
  · exact fun write hwrite => (hc.written write hwrite).cons

theorem cleanup (hc : Consistent history hook) : Consistent (.cleanup :: history) hook.abort := by
  have hne : ∀ controller now settlement,
      (.cleanup : Action T Caught Time) ≠ .settle controller now settlement :=
    fun _ _ _ h => nomatch h
  refine ⟨hc.controllers, hc.controllerRef, fun _ => hc.mem_abort_iff rfl, ?_, ?_, ?_, ?_,
    hc.increasing⟩
  · exact fun controller => (hc.waiting controller).trans
      (and_congr_right fun _ => not_congr (settled_cons_of_ne hne).symm)
  · exact fun controller hsettled => hc.settled controller ((settled_cons_of_ne hne).mp hsettled)
  · exact hc.refreshing.trans (forall₂_congr fun _ _ => (settled_cons_of_ne hne).symm)
  · exact fun write hwrite => (hc.written write hwrite).cons

/-- Nothing happens to the hook. -/
theorem idle (hc : Consistent history hook) (hrefreshes : action.refreshes = false)
    (hsupersedes : action.supersedes = false)
    (hne : ∀ controller now settlement, action ≠ .settle controller now settlement) :
    Consistent (action :: history) hook := by
  have hstarted : started (action :: history) = started history := by simp [started, hrefreshes]
  have hlatest : latest (action :: history) = latest history := by simp [latest, hrefreshes]
  refine ⟨hstarted ▸ hc.controllers, hlatest ▸ hc.controllerRef, ?_, ?_, ?_, ?_, ?_, hc.increasing⟩
  · exact fun controller =>
      (hc.aborted controller).trans (superseded_cons_of_not_supersedes hsupersedes).symm
  · intro controller
    rw [hc.waiting, hstarted, settled_cons_of_ne hne]
  · intro controller hsettled
    rw [hstarted]
    exact hc.settled controller ((settled_cons_of_ne hne).mp hsettled)
  · rw [hlatest]
    exact hc.refreshing.trans (forall₂_congr fun _ _ => (settled_cons_of_ne hne).symm)
  · exact fun write hwrite => (hc.written write hwrite).cons

theorem settle (hc : Consistent history hook) (hwaiting : controller ∈ hook.waiting) :
    Consistent (.settle controller now settlement :: history)
      ((({ hook with waiting := hook.waiting.filter (· != controller) } :
        Hook T PlainApiError Time).resume errors controller now settlement).leave controller) := by
  obtain ⟨hstarted, hopen⟩ := (hc.waiting controller).mp hwaiting
  have hsuperseded : ∀ other, Superseded other (.settle controller now settlement :: history) ↔
      Superseded other history := fun _ => superseded_cons_of_not_supersedes rfl
  have hwritten := @resume_writes _ _ _ _ errors controller now
    { hook with waiting := hook.waiting.filter (· != controller) } settlement
  obtain ⟨hfalse, hkept⟩ := @leave_resume_refreshing _ _ _ _ errors controller now
    { hook with waiting := hook.waiting.filter (· != controller) } settlement
  obtain ⟨data, error, updatedAt, refreshing, writes, heq⟩ :=
    @leave_resume_eq _ _ _ _ errors controller
    now { hook with waiting := hook.waiting.filter (· != controller) } settlement
  rw [heq] at hwritten hfalse hkept ⊢
  replace hwritten : writes = hook.writes ∨ controller ∉ hook.aborted ∧
      ∃ write, write.controller = controller ∧ writes = write :: hook.writes := hwritten
  replace hfalse : hook.controllerRef = some controller → refreshing = false := hfalse
  replace hkept : hook.controllerRef ≠ some controller → refreshing = hook.refreshing := hkept
  refine ⟨hc.controllers, hc.controllerRef, fun other => ?_, fun other => ?_, fun other => ?_, ?_,
    ?_, ?_⟩
  · exact (hc.aborted other).trans (hsuperseded other).symm
  · show other ∈ hook.waiting.filter (· != controller) ↔ _
    rw [List.mem_filter, hc.waiting, settled_cons_settle]
    show _ ↔ other < started history ∧ _
    by_cases hother : other = controller <;> simp [hother]
  · intro hsettled
    rcases settled_cons_settle.mp hsettled with rfl | hsettled
    · exact hstarted
    · exact hc.settled other hsettled
  · show refreshing = false ↔ ∀ other ∈ latest history, _
    by_cases hlatest : latest history = some controller
    · refine iff_of_true (hfalse (hc.controllerRef.trans hlatest)) ?_
      intro other hother
      rw [Option.mem_def, hlatest, Option.some.injEq] at hother
      exact settled_cons_settle.mpr (.inl hother.symm)
    · have hsame : refreshing = hook.refreshing :=
        hkept fun href => hlatest (hc.controllerRef.symm.trans href)
      rw [hsame, hc.refreshing]
      refine forall₂_congr fun other hother => ?_
      rw [settled_cons_settle]
      have hne : other ≠ controller := fun h => hlatest (h ▸ hother)
      simp [hne]
  · intro write hwrite
    rcases hwritten with hsame | ⟨hnew, write', rfl, hcons⟩
    · have hmem : write ∈ hook.writes := by rwa [← hsame]
      exact (hc.written write hmem).cons
    · rw [hcons] at hwrite
      rcases List.mem_cons.mp hwrite with rfl | hmem
      · exact settled_cons_settle.mpr (.inl rfl)
      · exact (hc.written write hmem).cons
  · rcases hwritten with hsame | ⟨hnew, write, rfl, hcons⟩
    · show (writes.map (·.controller)).Pairwise (· > ·)
      rw [hsame]
      exact hc.increasing
    · -- every fetch that has written has settled, so it is another one than the last
      show (writes.map (·.controller)).Pairwise (· > ·)
      rw [hcons, List.map_cons, List.pairwise_cons]
      refine ⟨?_, hc.increasing⟩
      intro other hother
      obtain ⟨earlier, hearlier, rfl⟩ := List.mem_map.mp hother
      have hsettled := hc.written earlier hearlier
      have hlast := hc.le_of_not_aborted hstarted hnew (hc.settled _ hsettled)
      have hne : earlier.controller ≠ write.controller := fun h => hopen (h ▸ hsettled)
      omega

theorem step (hc : Consistent history hook) (h : hook.step errors action = some hook') :
    Consistent (action :: history) hook' := by
  rcases step_cases h with ⟨hrefreshes, rfl⟩ | ⟨hrefreshes, hsupersedes, hne, rfl⟩ | ⟨rfl, rfl⟩ |
    ⟨controller, now, settlement, rfl, hwaiting, rfl⟩
  · exact hc.run hrefreshes
  · exact hc.idle hrefreshes hsupersedes hne
  · exact hc.cleanup
  · exact hc.settle hwaiting

end Consistent

/-! ### What a settlement writes

Which fetch may write, and what the state has from it afterwards. -/

/-- A fetch whose signal is aborted writes nothing. -/
theorem resume_of_aborted (h : controller ∈ hook.aborted) :
    hook.resume errors controller now settlement = hook := by
  cases settlement with
  | resolved next => exact if_pos h
  | rejected caught => exact if_pos (.inl h)

theorem shown_resume (h : (hook.data, hook.updatedAt) = shown initial hook.writes) :
    ((hook.resume errors controller now settlement).data,
      (hook.resume errors controller now settlement).updatedAt) =
        shown initial (hook.resume errors controller now settlement).writes := by
  cases settlement with
  | resolved next =>
    rw [Hook.resume]
    split
    · exact h
    · rfl
  | rejected caught =>
    rw [Hook.resume]
    split
    · exact h
    · exact h

theorem shown_step (hshown : (hook.data, hook.updatedAt) = shown initial hook.writes)
    (h : hook.step errors action = some hook') :
    (hook'.data, hook'.updatedAt) = shown initial hook'.writes := by
  rcases step_cases h with ⟨-, rfl⟩ | ⟨-, -, -, rfl⟩ | ⟨-, rfl⟩ |
    ⟨controller, now, settlement, -, -, rfl⟩
  · exact hshown
  · exact hshown
  · exact hshown
  · obtain ⟨refreshing, hleave⟩ := @leave_eq _ _ _ controller
      (({ hook with waiting := hook.waiting.filter (· != controller) } :
        Hook T PlainApiError Time).resume errors controller now settlement)
    rw [hleave]
    exact @shown_resume _ _ _ _ _ _
      { hook with waiting := hook.waiting.filter (· != controller) } _ _ _
      hshown

/-- What follows the `await` leaves everything as it is, or writes something that is shown. -/
theorem loading_resume (hook : Hook T PlainApiError Time) (settlement : Settlement T Caught) :
    hook.resume errors controller now settlement = hook ∨
      (hook.resume errors controller now settlement).loading = false ∧
        (hook.resume errors controller now settlement).writes ≠ [] := by
  cases settlement with
  | resolved next =>
    simp only [Hook.resume]
    split
    · exact .inl rfl
    · exact .inr ⟨rfl, List.cons_ne_nil _ _⟩
  | rejected caught =>
    simp only [Hook.resume]
    split
    · exact .inl rfl
    · exact .inr ⟨Bool.and_false _, List.cons_ne_nil _ _⟩

theorem loading_step (hloading : hook.loading = true ↔ initial = none ∧ hook.writes = [])
    (h : hook.step errors action = some hook') :
    hook'.loading = true ↔ initial = none ∧ hook'.writes = [] := by
  rcases step_cases h with ⟨-, rfl⟩ | ⟨-, -, -, rfl⟩ | ⟨-, rfl⟩ |
    ⟨controller, now, settlement, -, -, rfl⟩
  · exact hloading
  · exact hloading
  · exact hloading
  · obtain ⟨refreshing, hleave⟩ := @leave_eq _ _ _ controller
      (({ hook with waiting := hook.waiting.filter (· != controller) } :
        Hook T PlainApiError Time).resume errors controller now settlement)
    rw [hleave]
    rcases @loading_resume _ _ _ _ errors controller now
      { hook with waiting := hook.waiting.filter (· != controller) } settlement with
      hsame | ⟨hfalse, hwrites⟩
    · rw [hsame]
      exact hloading
    · exact iff_of_false (fun htrue => Bool.noConfusion (hfalse.symm.trans htrue))
        fun hnone => hwrites hnone.2

theorem unchanged_of_step (hc : Consistent history hook) (h : hook.step errors action = some hook')
    (hsuperseded : ∀ controller now settlement, action = .settle controller now settlement →
      Superseded controller history) :
    hook'.data = hook.data ∧ hook'.error = hook.error ∧ hook'.updatedAt = hook.updatedAt ∧
      hook'.writes = hook.writes := by
  rcases step_cases h with ⟨-, rfl⟩ | ⟨-, -, -, rfl⟩ | ⟨-, rfl⟩ |
    ⟨controller, now, settlement, haction, -, rfl⟩
  · exact ⟨rfl, rfl, rfl, rfl⟩
  · exact ⟨rfl, rfl, rfl, rfl⟩
  · exact ⟨rfl, rfl, rfl, rfl⟩
  · have haborted := (hc.aborted controller).mpr (hsuperseded controller now settlement haction)
    rw [@resume_of_aborted _ _ _ _ _
      { hook with waiting := hook.waiting.filter (· != controller) } _ _
      _ haborted]
    obtain ⟨refreshing, hleave⟩ := @leave_eq _ _ _ controller
      ({ hook with waiting := hook.waiting.filter (· != controller) } : Hook T PlainApiError Time)
    rw [hleave]
    exact ⟨rfl, rfl, rfl, rfl⟩

theorem eq_of_step_settle (h : hook.step errors (.settle controller now settlement) = some hook') :
    hook' = (({ hook with waiting := hook.waiting.filter (· != controller) } :
      Hook T PlainApiError Time).resume errors controller now settlement).leave controller := by
  obtain ⟨-, hsome⟩ := Option.ite_none_right_eq_some.mp h
  exact (Option.some.inj hsome).symm

theorem data_of_step_rejected {caught : Caught}
    (h : hook.step errors (.settle controller now (.rejected caught)) = some hook') :
    hook'.data = hook.data ∧ hook'.updatedAt = hook.updatedAt := by
  obtain rfl := eq_of_step_settle h
  obtain ⟨refreshing, hleave⟩ := @leave_eq _ _ _ controller
    (({ hook with waiting := hook.waiting.filter (· != controller) } :
      Hook T PlainApiError Time).resume errors controller now (.rejected caught))
  rw [hleave, Hook.resume]
  split <;> exact ⟨rfl, rfl⟩

theorem data_of_step_resolved (hc : Consistent history hook) {next : T}
    (h : hook.step errors (.settle controller now (.resolved next)) = some hook')
    (hcurrent : ¬ Superseded controller history) :
    hook'.data = some next ∧ hook'.error = none ∧ hook'.updatedAt = some now ∧
      hook'.writes = .next controller next now :: hook.writes := by
  obtain rfl := eq_of_step_settle h
  obtain ⟨refreshing, hleave⟩ := @leave_eq _ _ _ controller
    (({ hook with waiting := hook.waiting.filter (· != controller) } :
      Hook T PlainApiError Time).resume errors controller now (.resolved next))
  rw [hleave, Hook.resume, if_neg (mt (hc.aborted controller).mp hcurrent)]
  exact ⟨rfl, rfl, rfl, rfl⟩

/-! ### All histories

By induction over the history, with the invariant for what has happened before the last step. -/

theorem new_eq (initial : Option (LoadResult T PlainApiError Time)) :
    ∃ data error updatedAt,
      Hook.new initial = ⟨data, error, updatedAt, false, none, 0, [], [], []⟩ := by
  rcases initial with - | ⟨data, «at»⟩ | error <;> exact ⟨_, _, _, rfl⟩

theorem Consistent.new (initial : Option (LoadResult T PlainApiError Time)) :
    Consistent ([] : List (Action T Caught Time)) (Hook.new initial) := by
  have hnone : ∀ controller, ¬ Settled controller ([] : List (Action T Caught Time)) := by
    rintro controller ⟨_, _, hmem⟩
    exact absurd hmem List.not_mem_nil
  obtain ⟨data, error, updatedAt, hnew⟩ := new_eq initial
  rw [hnew]
  refine ⟨rfl, rfl, fun controller => ?_, fun controller => ?_, ?_, ?_, ?_, List.Pairwise.nil⟩
  · simp [Superseded, since]
  · simp [started]
  · exact fun controller hsettled => absurd hsettled (hnone controller)
  · simp [latest]
  · exact fun write hwrite => absurd hwrite List.not_mem_nil

theorem consistent_of_reached (h : Reached errors initial history hook) :
    Consistent history hook := by
  induction h with
  | new => exact .new initial
  | step _ next ih => exact ih.step next

/-- **The page loads until a fetch has written**, and never again after that. -/
theorem loading_iff_of_reached (h : Reached errors initial history hook) :
    hook.loading = true ↔ initial = none ∧ hook.writes = [] := by
  induction h with
  | new => rcases initial with - | ⟨data, «at»⟩ | error <;> simp [Hook.new, Hook.loading]
  | step _ next ih => exact loading_step ih next

/-- No settlement of a fetch that has started is ever impossible, so any order of settling is a
history. -/
theorem exists_step_settle (h : Reached errors initial history hook)
    (hstarted : controller < started history) (hopen : ¬ Settled controller history) (now : Time)
    (settlement : Settlement T Caught) :
    ∃ hook', hook.step errors (.settle controller now settlement) = some hook' := by
  have hwaiting := ((consistent_of_reached h).waiting controller).mpr ⟨hstarted, hopen⟩
  exact ⟨_, if_pos hwaiting⟩

/-- **What is shown never goes back.** After any refreshes, cleanups and settlements, only the fetch
that nothing has superseded writes, and it started after all that have written before. -/
theorem current_of_reached (h : Reached errors initial history hook) :
    Current errors initial history hook := by
  have hconsistent := consistent_of_reached h
  refine ⟨hconsistent.increasing, ?_, fun _ _ hstep => unchanged_of_step hconsistent hstep,
    fun _ _ _ _ => data_of_step_rejected, fun _ _ _ _ => data_of_step_resolved hconsistent,
    hconsistent.refreshing⟩
  induction h with
  | new =>
    obtain ⟨data, error, updatedAt, hnew⟩ := new_eq initial
    have hwrites : (Hook.new initial).writes = [] := by rw [hnew]
    rw [hwrites]
    rfl
  | step before next ih => exact shown_step (ih (consistent_of_reached before)) next

/-- A manual refresh overtakes a poll, whose fetch ignores its signal, and then the page closes. -/
def overtaken : List (Action String String ℕ) :=
  [.cleanup, .tick true, .settle 0 5 (.resolved "old"), .tick false,
    .settle 1 4 (.resolved "new"), .refresh, .effect true false]

theorem current_of_reached_overtaken :
    ∃ hook, Reached ⟨(· == "AbortError"), id⟩ none overtaken hook ∧
      Current ⟨(· == "AbortError"), id⟩ none overtaken hook ∧
      hook.data = some "new" ∧ hook.updatedAt = some 4 ∧ hook.error = none ∧
      hook.refreshing = true := by
  have h : Reached (⟨(· == "AbortError"), id⟩ : ApiErrors String String) none
      overtaken _ :=
    .step (.step (.step (.step (.step (.step (.step .new rfl) rfl) rfl) rfl) rfl) rfl) rfl
  exact ⟨_, h, current_of_reached h, rfl, rfl, rfl, rfl⟩

end UseApiQuery

end LookingGlass
