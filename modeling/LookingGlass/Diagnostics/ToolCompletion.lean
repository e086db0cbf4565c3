import LookingGlass.Diagnostics.ToolProcess
import LookingGlass.Foundations.Completion

/-!
# Tools that do not come to an end

A tool may hang, and write without end. `RunAsync` depends on it for nothing once somebody has
cancelled, or has killed the tool: what is left to do is up to `RunAsync`, the tasks that read, the
callback, and the operating system, which lets a killed process exit. Each of these has only so much
to do, and one of them can always go on.

Before that nothing is promised. A tool that neither exits nor is killed is waited for, and nobody
reads what it writes to standard error beyond the first eight kilobytes.

## What goes on

`GoesOn` is a step that is up neither to the tool nor to the caller and that does not fail: neither
a read nor an attempt to kill throws. That a read does not throw is part of it, and of what is
shown. A read that throws ends the task of that stream, and what `RunAsync` comes to then is what
the task came to.

A number of things are left to do, and each such step leaves fewer of them. So there is no infinite
sequence of them, and as long as `RunAsync` has not ended there is one that can be taken. The result
is stated for the end that is reached and for every other end, as the steps may be taken in any
order.

## Main results

* `ProcessRunner.completes_after_kill` — `RunAsync` ends, without the tool
-/

namespace LookingGlass

open Utf16 Utf8 Interaction

namespace ProcessRunner

/-- The tool is killed, or there is nothing to kill. -/
def Attempt.succeeds : Attempt → Bool
  | nothing | signalled => true
  | refused | incomplete => false

/-- The read does not throw. -/
def Read.succeeds : Read → Bool
  | chars _ => true
  | objectDisposed | io => false

/-- What is up neither to the tool nor to the caller. A killed tool is let go by the operating
system. -/
def Action.isOwn (tool : Tool) : Action → Bool
  | write _ | writeError _ | cancel => false
  | exit _ => tool.signalled
  | callback attempt | register attempt | rethrow attempt | finish attempt => attempt.succeeds
  | read result attempt => result.succeeds && attempt.succeeds
  | readError result => result.succeeds
  | exited | interrupted | gathered | unregister | dispose => true

/-- A step that is up neither to the tool nor to the caller, and in which nothing fails. Those that
are left are the steps of `RunAsync`, of the tasks that read and of the callback, and the exit of a
tool that was killed. -/
def GoesOn (maxOutputBytes : ℤ) (s s' : State) : Prop :=
  ∃ action : Action, action.isOwn s.tool = true ∧ s.act maxOutputBytes action = some s'

/-- The tool is not needed any more: it was killed, or has exited, or the caller has given up. It
may still be running, and writing. -/
def State.Released (s : State) : Prop :=
  s.isCancellationRequested = true ∨ s.tool.hasExited = true ∨ s.tool.signalled = true

variable {maxBytes maxOutputBytes : ℤ} {tool : Tool} {output : Output} {s s' : State}
  {read : Read} {attempt : Attempt}

/-! ### What is left to do

A number for each party, and their sum. -/

def Output.left (output : Output) : ℕ := output.unread.length + output.result.isNone.toNat

def Main.left : Main → ℕ
  | registering => 7
  | awaitingExit => 5
  | awaitingOutput | caught => 4
  | finishing _ => 3
  | unregistering _ => 2
  | disposing _ => 1
  | done _ => 0

def State.left (s : State) : ℕ :=
  s.stdout.left + s.stderr.left + s.registered.toNat + (!s.tool.hasExited).toNat + s.main.left

/-- A task that reads has less to do after a read. -/
theorem left_receive_lt (hread : output.mayRead tool read = true) (hsucceeds : read.succeeds = true)
    (onLimit : Except Exn Unit) : (output.receive maxBytes read onLimit).left < output.left := by
  obtain ⟨hnone, hmay⟩ := mayRead_iff.mp hread
  cases read with
  | chars buffer =>
    have hlength := (hmay buffer rfl).1.length_le
    rw [Output.left, Output.left, Output.receive, hnone]
    rcases round_cases maxBytes output.loop (.chars buffer) with
      ⟨next, hround, -, hne⟩ | ⟨capped, hround, -⟩ <;> simp only [hround]
    · have hpos := List.length_pos_iff.mpr hne
      simp only [Read.text, List.length_drop] at hpos ⊢
      omega
    · simp only [Read.text, List.length_drop, Option.isNone_some, Option.isNone_none,
        Bool.toNat_false, Bool.toNat_true]
      omega
  | objectDisposed => cases hsucceeds
  | io => cases hsucceeds

theorem hasExited_kill (tool : Tool) (attempt : Attempt) :
    (tool.kill attempt).hasExited = tool.hasExited := by
  cases attempt <;> rfl

theorem spared_kill (hsucceeds : attempt.succeeds = true) :
    (tool.kill attempt).spared = tool.spared := by
  cases attempt with
  | nothing => rfl
  | signalled => rfl
  | refused => cases hsucceeds
  | incomplete => cases hsucceeds

/-- Less is left to do, nobody has cancelled, and no attempt to kill the tool has failed. -/
structure State.Progresses (s s' : State) : Prop where
  left_lt : s'.left < s.left
  requested : s'.isCancellationRequested = s.isCancellationRequested
  spared : s'.tool.spared = s.tool.spared

/-- So it is when one of the two tasks has read something, whatever became of the tool then. -/
theorem progresses_of_receive (hsucceeds : attempt.succeeds = true) {stdout stderr : Output}
    {truncated : Bool}
    (hleft : stdout.left + stderr.left < s.stdout.left + s.stderr.left) :
    s.Progresses { s with
      tool := s.tool.kill attempt
      truncated := truncated
      stdout := stdout
      stderr := stderr } := by
  refine ⟨?_, rfl, spared_kill hsucceeds⟩
  simp only [State.left, hasExited_kill]
  omega

/-- And so it is when `RunAsync` has come further, or the callback has been invoked. -/
theorem progresses_of_main (hsucceeds : attempt.succeeds = true)
    (htool : s'.tool = s.tool.kill attempt) (hstdout : s'.stdout = s.stdout)
    (hstderr : s'.stderr = s.stderr)
    (hrequested : s'.isCancellationRequested = s.isCancellationRequested)
    (hleft : s'.registered.toNat + s'.main.left < s.registered.toNat + s.main.left) :
    s.Progresses s' := by
  refine ⟨?_, hrequested, htool ▸ spared_kill hsucceeds⟩
  simp only [State.left, hstdout, hstderr, htool, hasExited_kill]
  omega

theorem progresses_register (hsucceeds : attempt.succeeds = true)
    (hact : s.act maxOutputBytes (.register attempt) = some s') : s.Progresses s' := by
  rw [State.act] at hact
  split at hact
  · next hmain =>
    split at hact
    · obtain ⟨killed, hkill, rfl⟩ := Option.map_eq_some_iff.mp hact
      obtain ⟨-, rfl⟩ := State.tryKill_eq_some hkill
      cases attempt.thrown <;>
        exact progresses_of_main hsucceeds rfl rfl rfl rfl (by simp [hmain, Main.left])
    · obtain rfl := Option.some.inj hact
      refine progresses_of_main (rfl : Attempt.nothing.succeeds = true) rfl rfl rfl rfl ?_
      have hle : (true : Bool).toNat ≤ s.registered.toNat + 1 := Nat.le_add_left _ _
      simp only [hmain, Main.left]
      omega
  · cases hact

/-- Where `RunAsync` goes without touching the tool. -/
theorem progresses_main {action : Action} (hact : s.act maxOutputBytes action = some s')
    (haction : action ∈ [.exited, .interrupted, .gathered, .unregister, .dispose]) :
    s.Progresses s' := by
  have hprogresses : ∀ {main : Main} {registered disposed : Bool},
      registered.toNat + main.left < s.registered.toNat + s.main.left → s.Progresses
        { s with main := main, registered := registered, disposed := disposed } := fun hleft =>
    progresses_of_main (rfl : Attempt.nothing.succeeds = true) rfl rfl rfl rfl hleft
  simp only [List.mem_cons, List.not_mem_nil, or_false] at haction
  rcases haction with rfl | rfl | rfl | rfl | rfl <;> rw [State.act] at hact <;> split at hact <;>
    try cases hact
  · next hmain =>
    obtain ⟨-, heq⟩ := Option.ite_none_right_eq_some.mp hact
    obtain rfl := Option.some.inj heq
    exact hprogresses (by simp [hmain, Main.left])
  · next hmain =>
    obtain ⟨-, heq⟩ := Option.ite_none_right_eq_some.mp hact
    obtain rfl := Option.some.inj heq
    exact hprogresses (by simp [hmain, Main.left])
  · next hmain _ _ => exact hprogresses (by simp [hmain, Main.left])
  · next hmain =>
    -- the registration that ends makes up for nothing, whether or not there was one
    refine hprogresses ?_
    simp only [hmain, Main.left, Bool.toNat_false]
    omega
  · next hmain => exact hprogresses (by simp [hmain, Main.left])

/-- **Whatever is done, less is left.** -/
theorem progresses_of_goesOn (h : GoesOn maxOutputBytes s s') : s.Progresses s' := by
  obtain ⟨action, hown, hact⟩ := h
  cases action with
  | write text => cases hown
  | writeError text => cases hown
  | cancel => cases hown
  | exit exitCode =>
    obtain ⟨hrunning, heq⟩ := Option.ite_none_left_eq_some.mp hact
    obtain rfl := Option.some.inj heq
    refine ⟨?_, rfl, rfl⟩
    have hbefore : (!s.tool.hasExited).toNat = 1 := by rw [Bool.eq_false_iff.mpr hrunning]; rfl
    have hafter : (!({ s.tool with exitCode := some exitCode } : Tool).hasExited).toNat = 0 := rfl
    simp only [State.left, hbefore, hafter]
    omega
  | callback attempt =>
    obtain ⟨hguard, hact⟩ := Option.ite_none_right_eq_some.mp hact
    obtain ⟨killed, hkill, rfl⟩ := Option.map_eq_some_iff.mp hact
    obtain ⟨-, rfl⟩ := State.tryKill_eq_some hkill
    refine progresses_of_main hown rfl rfl rfl rfl ?_
    simp [(Bool.and_eq_true_iff.mp hguard).1]
  | read read attempt =>
    obtain ⟨hguard, hact⟩ := Option.ite_none_right_eq_some.mp hact
    have hread := (Bool.and_eq_true_iff.mp hguard).2
    have hlt : ∀ onLimit, (s.stdout.receive maxOutputBytes read onLimit).left + s.stderr.left <
        s.stdout.left + s.stderr.left := fun onLimit =>
      Nat.add_lt_add_right (left_receive_lt hread (Bool.and_eq_true_iff.mp hown).1 onLimit) _
    split at hact
    · obtain ⟨killed, hkill, rfl⟩ := Option.map_eq_some_iff.mp hact
      obtain ⟨-, rfl⟩ := State.tryKill_eq_some hkill
      exact progresses_of_receive (Bool.and_eq_true_iff.mp hown).2 (hlt attempt.thrown)
    · obtain rfl := Option.some.inj hact
      exact progresses_of_receive (rfl : Attempt.nothing.succeeds = true) (hlt (.ok ()))
  | readError read =>
    obtain ⟨hguard, heq⟩ := Option.ite_none_right_eq_some.mp hact
    obtain rfl := Option.some.inj heq
    have hlt :=
      @left_receive_lt maxErrorBytes _ _ _ (Bool.and_eq_true_iff.mp hguard).2 hown (.ok ())
    exact progresses_of_receive (rfl : Attempt.nothing.succeeds = true) (Nat.add_lt_add_left hlt _)
  | register attempt => exact progresses_register hown hact
  | rethrow attempt =>
    rw [State.act] at hact
    split at hact
    · next hmain =>
      obtain ⟨killed, hkill, rfl⟩ := Option.map_eq_some_iff.mp hact
      obtain ⟨-, rfl⟩ := State.tryKill_eq_some hkill
      exact progresses_of_main hown rfl rfl rfl rfl (by simp [hmain, Main.left])
    · cases hact
  | finish attempt =>
    rw [State.act] at hact
    split at hact
    · next hmain =>
      obtain ⟨killed, hkill, rfl⟩ := Option.map_eq_some_iff.mp hact
      obtain ⟨-, rfl⟩ := State.tryKill_eq_some hkill
      exact progresses_of_main hown rfl rfl rfl rfl (by simp [hmain, Main.left])
    · cases hact
  | exited => exact progresses_main hact (by simp)
  | interrupted => exact progresses_main hact (by simp)
  | gathered => exact progresses_main hact (by simp)
  | unregister => exact progresses_main hact (by simp)
  | dispose => exact progresses_main hact (by simp)

/-! ### Who can go on

In each state of `RunAsync` there is something that it can do, or else somebody it waits for can go
on: a task that reads, or the operating system, which lets a killed tool exit. -/

theorem exists_tryKill (s : State) :
    ∃ attempt s', attempt.succeeds = true ∧ s.tryKill attempt = some s' := by
  by_cases hgone : (s.tool.hasExited || s.disposed) = true
  · exact ⟨.nothing, _, rfl, if_pos hgone⟩
  · refine ⟨.signalled, _, rfl, if_pos ?_⟩
    rw [Bool.not_eq_true, Bool.or_eq_false_iff] at hgone
    simp [Tool.permits, hgone]

/-- A task can read what there is, or that there is no more. -/
theorem exists_read (hresult : output.result = none) (hexited : tool.hasExited = true) :
    ∃ read : Read, read.succeeds = true ∧ output.mayRead tool read = true := by
  cases hunread : output.unread with
  | nil =>
    refine ⟨.chars [], rfl, mayRead_iff.mpr ⟨hresult, fun buffer hbuffer => ?_⟩⟩
    obtain rfl := Read.chars.inj hbuffer
    exact ⟨List.nil_prefix, Nat.zero_le _, fun _ => ⟨hunread, hexited⟩⟩
  | cons c unread =>
    refine ⟨.chars [c], rfl, mayRead_iff.mpr ⟨hresult, fun buffer hbuffer => ?_⟩⟩
    obtain rfl := Read.chars.inj hbuffer
    refine ⟨⟨unread, hunread.symm⟩, by simp, ?_⟩
    intro hnil
    cases hnil

theorem goesOn_of_isSome (action : Action) (hown : action.isOwn s.tool = true)
    (hact : (s.act maxOutputBytes action).isSome = true) :
    ∃ s', GoesOn maxOutputBytes s s' := by
  obtain ⟨s', hs'⟩ := Option.isSome_iff_exists.mp hact
  exact ⟨s', action, hown, hs'⟩

theorem goesOn_of_read (hexited : s.tool.hasExited = true) (hreading : s.reading = true)
    (hresult : s.stdout.result = none) : ∃ s', GoesOn maxOutputBytes s s' := by
  obtain ⟨read, hsucceeds, hread⟩ := exists_read hresult hexited
  obtain ⟨attempt, killed, hattempt, hkill⟩ := exists_tryKill s
  have hown : (Action.read read attempt).isOwn s.tool = true := by
    simp [Action.isOwn, hsucceeds, hattempt]
  refine goesOn_of_isSome _ hown ?_
  simp only [State.act, hreading, hread, Bool.and_self, if_true]
  split
  · rw [hkill]
    rfl
  · rfl

theorem goesOn_of_readError (hexited : s.tool.hasExited = true) (hreading : s.reading = true)
    (hresult : s.stderr.result = none) : ∃ s', GoesOn maxOutputBytes s s' := by
  obtain ⟨read, hsucceeds, hread⟩ := exists_read hresult hexited
  refine goesOn_of_isSome (.readError read) hsucceeds ?_
  simp [State.act, hreading, hread]

/-- What is awaited has come, or somebody can do something about it. -/
theorem goesOn_of_awaitingOutput (hmain : s.main = .awaitingOutput)
    (hexited : s.tool.hasExited = true) (hreading : s.reading = true) :
    ∃ s', GoesOn maxOutputBytes s s' := by
  cases hstdout : s.stdout.result with
  | none => exact goesOn_of_read hexited hreading hstdout
  | some stdout =>
    cases hstderr : s.stderr.result with
    | none => exact goesOn_of_readError hexited hreading hstderr
    | some stderr =>
      refine goesOn_of_isSome .gathered rfl ?_
      rw [State.act, hmain, hstdout, hstderr]
      rfl

theorem exists_goesOn (h : s.Sound maxOutputBytes) (hreleased : s.Released)
    (hnot : ¬ ∃ outcome, s.main = .done outcome) : ∃ s', GoesOn maxOutputBytes s s' := by
  obtain ⟨attempt, killed, hattempt, hkill⟩ := exists_tryKill s
  have hsound := h.main
  unfold State.MainSound at hsound
  cases hmain : s.main with
  | registering =>
    refine goesOn_of_isSome (.register attempt) hattempt ?_
    rw [State.act, hmain, hkill]
    dsimp only
    split <;> rfl
  | awaitingExit =>
    by_cases hexited : s.tool.hasExited = true
    · refine goesOn_of_isSome .exited rfl ?_
      rw [State.act, hmain, hexited]
      rfl
    · rcases hreleased with hrequested | hexited' | hsignalled
      · refine goesOn_of_isSome .interrupted rfl ?_
        rw [State.act, hmain, hrequested]
        rfl
      · exact absurd hexited' hexited
      · -- the operating system is done with the process, with the code for `SIGKILL`
        refine goesOn_of_isSome (.exit 137) hsignalled ?_
        rw [State.act, if_neg hexited]
        rfl
  | awaitingOutput =>
    rw [hmain] at hsound
    exact goesOn_of_awaitingOutput hmain hsound.2 hsound.1
  | caught =>
    refine goesOn_of_isSome (.rethrow attempt) hattempt ?_
    rw [State.act, hmain, hkill]
    rfl
  | finishing outcome =>
    refine goesOn_of_isSome (.finish attempt) hattempt ?_
    rw [State.act, hmain, hkill]
    rfl
  | unregistering outcome =>
    refine goesOn_of_isSome .unregister rfl ?_
    rw [State.act, hmain]
    rfl
  | disposing outcome =>
    refine goesOn_of_isSome .dispose rfl ?_
    rw [State.act, hmain]
    rfl
  | done outcome => exact absurd ⟨outcome, hmain⟩ hnot

/-! ### To the end

There is no infinite sequence of such steps, and the state in which none is left is one in which
`RunAsync` has ended. -/

theorem released_of_advances (h : s.Released) (hadvances : s.Advances s') : s'.Released :=
  h.imp hadvances.requested (Or.imp hadvances.tool.hasExited hadvances.tool.signalled)

theorem wellFounded_goesOn : WellFounded fun s' s => GoesOn maxOutputBytes s s' :=
  Subrelation.wf (fun h => (progresses_of_goesOn h).left_lt)
    (InvImage.wf State.left Nat.lt_wfRel.wf)

/-- What holds all the way, from a state in which the tool is not needed any more. -/
structure OnTheWay (maxOutputBytes : ℤ) (s s' : State) : Prop where
  reachable : Reachable maxOutputBytes s'
  released : s'.Released
  requested : s'.isCancellationRequested = s.isCancellationRequested
  spared : s'.tool.spared = s.tool.spared

theorem OnTheWay.next {s'' : State} (h : OnTheWay maxOutputBytes s s')
    (hgoes : GoesOn maxOutputBytes s' s'') : OnTheWay maxOutputBytes s s'' := by
  obtain ⟨-, hrequested, hspared⟩ := progresses_of_goesOn hgoes
  obtain ⟨requested, hleads⟩ := h.reachable
  obtain ⟨action, -, hact⟩ := hgoes
  have hadvances := (State.sound_act (sound_of_reachable h.reachable) hact).2
  exact ⟨⟨requested, hleads.tail hact⟩, released_of_advances h.released hadvances,
    hrequested.trans h.requested, hspared.trans h.spared⟩

theorem OnTheWay.of_steps (h : Reachable maxOutputBytes s) (hreleased : s.Released)
    (hsteps : Relation.ReflTransGen (GoesOn maxOutputBytes) s s') :
    OnTheWay maxOutputBytes s s' := by
  induction hsteps with
  | refl => exact ⟨h, hreleased, rfl, rfl⟩
  | tail _ hgoes ih => exact ih.next hgoes

/-- What fails in the end was cancelled, or had failed, before. -/
theorem OnTheWay.exists_result (h : OnTheWay maxOutputBytes s s')
    {outcome : Except Exn ProcessResult} (hdone : s'.main = .done outcome)
    (hrequested : s.isCancellationRequested = false) (hspared : s.tool.spared = false) :
    ∃ result, outcome = .ok result := by
  cases outcome with
  | ok result => exact ⟨result, rfl⟩
  | error ex =>
    have hended := (ended_of_sound (sound_of_reachable h.reachable) hdone).1
    rcases hended.failed ex rfl with ⟨-, hrequested'⟩ | ⟨-, hspared'⟩
    · rw [h.requested, hrequested] at hrequested'
      cases hrequested'
    · rw [h.spared, hspared] at hspared'
      cases hspared'

/-- **`RunAsync` does not depend on a tool that was killed**, or whose caller has cancelled: it can
be brought to its end while the tool does nothing, nobody cancels, and neither an attempt to kill
the tool nor a read fails. There is an end to what can be done in this way; and whichever way it
comes to its end, if nobody has cancelled before, and every attempt to kill the tool has succeeded,
then it returns a result. -/
theorem completes_after_kill (h : Reachable maxOutputBytes s) (hreleased : s.Released) :
    (∃ s' outcome, Relation.ReflTransGen (GoesOn maxOutputBytes) s s' ∧
      s'.main = .done outcome) ∧
    (∀ s' outcome, Relation.ReflTransGen (GoesOn maxOutputBytes) s s' → s'.main = .done outcome →
      s.isCancellationRequested = false → s.tool.spared = false →
        ∃ result, outcome = .ok result) ∧
    Acc (fun s'' s' => GoesOn maxOutputBytes s' s'') s := by
  obtain ⟨s', hsteps, -, outcome, hdone⟩ := exists_end wellFounded_goesOn
    (fun _ _ hway hgoes => OnTheWay.next hway hgoes)
    (fun s' hway hnot => exists_goesOn (sound_of_reachable hway.reachable) hway.released hnot)
    (⟨h, hreleased, rfl, rfl⟩ : OnTheWay maxOutputBytes s s)
  refine ⟨⟨s', outcome, hsteps, hdone⟩, ?_, wellFounded_goesOn.apply s⟩
  intro s' outcome hsteps hdone
  exact (OnTheWay.of_steps h hreleased hsteps).exists_result hdone

/-- A tool hangs after it has written too much, and the task that has read it kills the tool. -/
theorem completes_after_kill_of_example : ∃ s, s.main = .awaitingExit ∧ s.tool.hasExited = false ∧
    (∃ s' outcome, Relation.ReflTransGen (GoesOn 3) s s' ∧ s'.main = .done outcome) ∧
    (∀ s' outcome, Relation.ReflTransGen (GoesOn 3) s s' → s'.main = .done outcome →
      s.isCancellationRequested = false → s.tool.spared = false →
        ∃ result, outcome = .ok result) ∧
    Acc (fun s'' s' => GoesOn 3 s' s'') s := by
  obtain ⟨s, hs⟩ : ∃ s, State.acts 3 {} (exampleActions.take 3) = some s := ⟨_, rfl⟩
  have hstate : s.main = .awaitingExit ∧ s.tool.hasExited = false ∧ s.tool.signalled = true := by
    obtain rfl := Option.some.inj hs
    exact ⟨rfl, rfl, rfl⟩
  exact ⟨s, hstate.1, hstate.2.1,
    completes_after_kill ⟨false, leads_of_acts (.refl _) hs⟩ (.inr (.inr hstate.2.2))⟩

end ProcessRunner

end LookingGlass
