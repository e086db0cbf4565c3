import LookingGlass.Foundations.Interleaving
import Mathlib.Algebra.Order.Ring.Int

/-!
# A value that expires, behind a gate

A value is kept with a time at which it expires, in two fields. Whoever wants it looks at the fields
first, without a lock. If the value is missing or has expired, the caller enters a gate of one,
looks again, renews the value if it still has to, writes the two fields one after the other, reads
the clock in between, and leaves the gate. How the value is renewed is left open: the work is a
program over an interface of its own.

## What can go wrong, and why it does not

A caller without the gate reads the fields one at a time, while another one writes them. So it can
see a new value next to an old expiry, and what it takes in the end need not be what it looked at.

What makes this right is that the expiry never goes back. Whoever is behind the gate has found that
the clock is at the expiry or past it; the clock does not go back, so the expiry that is written
next is later than the one before. A caller whose clock reading is before the expiry that it sees is
then before every later expiry as well, whichever value it takes.

## Phases

A phase says how far one caller has come, and the shared state holds nothing but the two fields, the
gate and the clock. What the callers have found and what they are about to write is in their phases,
not in ghost fields of the shared state: the value that is kept and its time are those of the caller
that has written them, which stays in the list of callers after it has left. So `Kept` and `Pending`
are read off that list, and a step of one caller changes them at one place of it.

The phases are a means of proof. What is promised of a run is said by the calls of the callers, and
`Interaction.Expiring.Phase.Knows` is the way from the one to the other.

## Main definitions

* `isFresh`, `getOrRenew` — what a caller does, for any work
* `Phase`, `protocol` — how far it has come
* `system` — all callers together
* `Inv` — what the phases say about the fields

## Main results

* `follows_getOrRenew` — the phases of one caller
* `Inv.step` — every call keeps what the phases say about the fields
-/

namespace Interaction

namespace Expiring

/-! ### The calls

One call touches one field, once. The two fields are never read or written together, and the order
of the calls below is the order in which a caller without the lock would make them. -/

inductive FieldOp (V : Type)
  | getUtcNow
  | readValue
  | readExpires
  /-- The wait for the gate, which may be cancelled. -/
  | awaitGate
  | writeValue (value : V)
  | writeExpires (expires : ℤ)
  /-- The gate is released, unless it is free already. -/
  | release

abbrev FieldOp.Ret {V : Type} : FieldOp V → Type
  | getUtcNow => ℤ
  | readValue => Option V
  | readExpires => ℤ
  | awaitGate => Bool
  | release => Bool
  | _ => Unit

abbrev Fields (V : Type) : Interface := ⟨FieldOp V, FieldOp.Ret⟩

/-- The calls of a caller: those that concern the fields, and those of the work. -/
abbrev Calls (V : Type) (J : Interface) : Interface := (Fields V).sum J

variable {V : Type} {J : Interface} {H G ε α β ι : Type}

/-- Make a call that does not fail. -/
def perform (op : FieldOp V) : Task (Calls V J) ε (FieldOp.Ret op) :=
  Task.perform (I := Calls V J) (.inl op)

/-- The value is there, and the clock is before the expiry. -/
def isFresh : Task (Calls V J) ε Bool := do
  let value : Option V ← perform .readValue
  if value.isSome then
    let now : ℤ ← perform .getUtcNow
    let expires : ℤ ← perform .readExpires
    pure (decide (now < expires))
  else pure false

/-- Wait for the gate, and fail in this way if the wait is cancelled. -/
def enter (canceled : ε) : Task (Calls V J) ε Unit :=
  Task.call (I := Calls V J) (.inl .awaitGate) fun entered =>
    if (entered : Bool) then .ok () else .error canceled

/-- Leave the gate, and fail in this way if it is free. -/
def leave (full : ε) : Task (Calls V J) ε Unit :=
  Task.call (I := Calls V J) (.inl .release) fun released =>
    if (released : Bool) then .ok () else .error full

/-- Take the value if it is fresh; otherwise look again behind the gate, and renew it there. -/
def getOrRenew (canceled full : ε) (read renew : Task (Calls V J) ε α) :
    Task (Calls V J) ε α := do
  let fresh ← isFresh
  if fresh then read
  else
    enter canceled
    tryFinally (do
      let fresh ← isFresh
      if fresh then read
      else renew)
      (leave full)

/-- A field is written. -/
def isWrite : Event (Calls V J) → Bool
  | ⟨.inl (.writeValue _), _⟩ | ⟨.inl (.writeExpires _), _⟩ => true
  | _ => false

/-! ### The phases of a caller

A phase is what can be said about a caller from its own calls alone. It remembers a clock reading as
long as it is compared with something, and a value from the moment it is written. -/

/-- How far a caller has come with a look at the fields. A look is three reads: whether there is a
value, the clock, and the expiry. Others may write in between, so what was read first need not be
there any more when the last one is done. -/
inductive Look
  | begun
  | nonNull
  | timed (now : ℤ)
  /-- The clock reading is before the expiry. -/
  | passed (now : ℤ)

/-- What the clock showed in this look. -/
def Look.reading : Look → Option ℤ
  | begun | nonNull => none
  | timed now | passed now => some now

/-- How a caller ends. What it has read at last is recorded, and it is the value that it returns;
that this is the right one has to be proved, and is not said by the constructor. -/
inductive Outcome (V : Type)
  /-- With what it reads after it has completed this value at this time. -/
  | own (value : V) (time : ℤ) (read : Option V)
  /-- With what it reads after finding the expiry after its clock reading. -/
  | cached (now : ℤ) (read : Option V)
  /-- Before anything is written. -/
  | failed

inductive Phase (V H : Type)
  /-- Looking at the fields, behind the gate or not. -/
  | looking (inside : Bool) (look : Look)
  | waiting
  /-- Behind the gate, having found nothing fresh, and so far with the work. -/
  | working (h : H)
  /-- The value is written, and the clock not yet read. -/
  | written (value : V)
  | stamped (value : V) (time : ℤ)
  | stored (value : V) (time : ℤ)
  | releasing (outcome : Outcome V)
  | left (outcome : Outcome V)
  /-- Where no caller gets to: the field is not what has just been written, or the gate is free that
  the caller is behind. -/
  | broken

/-- How a value is renewed. -/
structure Renewal (V : Type) (J : Interface) (H : Type) where
  protocol : Protocol J H
  start : H
  /-- The work has come to this value. -/
  Yields : H → V → Prop
  /-- The work has come to nothing. -/
  Fails : H → Prop
  /-- How long a value is kept. -/
  timeToLive : V → ℤ

namespace Phase

def holdsGate : Phase V H → Bool
  | looking inside _ => inside
  | waiting | left _ | broken => false
  | _ => true

/-- Where a look that found no fresh value leads to. -/
def afterLook (start : H) (inside : Bool) : Phase V H := if inside then working start else waiting

/-- Where a look that found a fresh value leads to. -/
def afterRead (inside : Bool) (outcome : Outcome V) : Phase V H :=
  if inside then releasing outcome else left outcome

/-- The value that is written and not yet kept. -/
def pending : Phase V H → Option V
  | written value | stamped value _ => some value
  | _ => none

/-- The value that the caller has completed, and when. -/
def kept : Phase V H → Option (V × ℤ)
  | stored value time | releasing (.own value time _) | left (.own value time _) =>
    some (value, time)
  | _ => none

/-- The same, from the reading of the clock on. -/
def completed : Phase V H → Option (V × ℤ)
  | stamped value time | stored value time | releasing (.own value time _)
  | left (.own value time _) => some (value, time)
  | _ => none

/-- The calls that a caller may make next. -/
def isAllowed (R : Renewal V J H) : Phase V H → (Calls V J).Op → Prop
  | looking _ .begun, op => op = .inl .readValue
  | looking _ .nonNull, op => op = .inl .getUtcNow
  | looking _ (.timed _), op => op = .inl .readExpires
  | looking _ (.passed _), op => op = .inl .readValue
  | waiting, op => op = .inl .awaitGate
  | working h, .inr op => R.protocol.allowed h op
  | working h, .inl op => (∃ value, op = .writeValue value ∧ R.Yields h value) ∨
    op = .release ∧ R.Fails h
  | written _, op => op = .inl .readValue ∨ op = .inl .getUtcNow
  | stamped value time, op => op = .inl (.writeExpires (time + R.timeToLive value))
  | stored _ _, op => op = .inl .readValue
  | releasing _, op => op = .inl .release
  | left _, _ => False
  | broken, _ => True

open Classical in
/-- Where a call leads to. -/
noncomputable def next (R : Renewal V J H) : Phase V H → Event (Calls V J) → Phase V H
  | looking inside .begun, ⟨.inl .readValue, none⟩ => afterLook R.start inside
  | looking inside .begun, ⟨.inl .readValue, some _⟩ => looking inside .nonNull
  | looking inside .nonNull, ⟨.inl .getUtcNow, now⟩ => looking inside (.timed now)
  | looking inside (.timed now), ⟨.inl .readExpires, expires⟩ =>
    if (now : ℤ) < expires then looking inside (.passed now) else afterLook R.start inside
  | looking inside (.passed now), ⟨.inl .readValue, read⟩ => afterRead inside (.cached now read)
  | waiting, ⟨.inl .awaitGate, true⟩ => looking true .begun
  | waiting, ⟨.inl .awaitGate, false⟩ => left .failed
  | working h, ⟨.inr op, answer⟩ => working (R.protocol.next h ⟨op, answer⟩)
  | working _, ⟨.inl (.writeValue value), _⟩ => written value
  | working _, ⟨.inl .release, true⟩ => left .failed
  | working _, ⟨.inl .release, false⟩ => broken
  | written value, ⟨.inl .readValue, read⟩ => if read = some value then written value else broken
  | written value, ⟨.inl .getUtcNow, now⟩ => stamped value now
  | stamped value time, ⟨.inl (.writeExpires _), _⟩ => stored value time
  | stored value time, ⟨.inl .readValue, read⟩ => releasing (.own value time read)
  | releasing outcome, ⟨.inl .release, true⟩ => left outcome
  | releasing _, ⟨.inl .release, false⟩ => broken
  | phase, _ => phase

end Phase

/-- The field is read back after it was written. -/
theorem next_written (R : Renewal V J H) (value : V) (read : Option V) :
    read = some value ∧ (Phase.written value).next R ⟨.inl .readValue, read⟩ = .written value ∨
      read ≠ some value ∧ (Phase.written value).next R ⟨.inl .readValue, read⟩ = .broken := by
  by_cases hread : read = some value
  · exact .inl ⟨hread, if_pos hread⟩
  · exact .inr ⟨hread, if_neg hread⟩

noncomputable def protocol (R : Renewal V J H) : Protocol (Calls V J) (Phase V H) :=
  ⟨Phase.isAllowed R, Phase.next R⟩

/-- What a caller with this outcome returns, if what it reads makes it return this. -/
def Outcome.Returns (returns : Option V → Except ε α) : Outcome V → Except ε α → Prop
  | own _ _ read, r | cached _ read, r => r = returns read
  | failed, r => ∃ ex, r = .error ex

def Finished (returns : Option V → Except ε α) (phase : Phase V H) (r : Except ε α) : Prop :=
  phase = .broken ∨ ∃ outcome, phase = .left outcome ∧ outcome.Returns returns r

/-- Where the work may come to, with this outcome. -/
def Renewed (R : Renewal V J H) (returns : Option V → Except ε α) (phase : Phase V H)
    (r : Except ε α) : Prop :=
  phase = .broken ∨ (∃ value time read, phase = .releasing (.own value time read) ∧
    r = returns read) ∨ ∃ h ex, phase = .working h ∧ R.Fails h ∧ r = .error ex

variable {R : Renewal V J H} {returns : Option V → Except ε α}

/-- Once something has happened that does not, a caller may do what it likes. -/
theorem follows_broken (p : Prog (Calls V J) α) {post : Phase V H → α → Prop}
    (hpost : ∀ a, post .broken a) : p.Follows (protocol R) post .broken := by
  induction p with
  | done a => exact hpost a
  | call op next ih => exact ⟨trivial, fun answer => ih answer⟩

/-- The same, of a task that is gone on from. -/
theorem andThen_broken {f : α → Task (Calls V J) ε β}
    {post : Phase V H → Except ε β → Prop} (hpost : ∀ r, post .broken r) {r : Except ε α} :
    Task.andThen (protocol R) f post .broken r := by
  cases r with
  | ok a => exact follows_broken _ hpost
  | error ex => exact hpost _

theorem follows_isFresh {inside : Bool} {post : Phase V H → Except ε Bool → Prop}
    (hfresh : ∀ now, post (.looking inside (.passed now)) (.ok true))
    (hstale : post (.afterLook R.start inside) (.ok false)) :
    Task.Follows (protocol R) post isFresh (.looking inside .begun) := by
  refine Task.follows_bind.mpr ⟨rfl, fun value => ?_⟩
  cases value with
  | none => exact hstale
  | some value =>
    refine Task.follows_bind.mpr ⟨rfl, fun now => Task.follows_bind.mpr ⟨rfl, fun expires => ?_⟩⟩
    show post (if _ then _ else _) (.ok (decide _))
    by_cases hnow : now < expires
    · rw [if_pos hnow, decide_eq_true hnow]
      exact hfresh now
    · rw [if_neg hnow, decide_eq_false hnow]
      exact hstale

theorem follows_leave (full : ε) {outcome : Outcome V} {r : Except ε α}
    (h : outcome.Returns returns r) :
    Task.Follows (protocol R) (fun phase x => Finished returns phase (x.bind fun _ => r))
      (leave full) (.releasing outcome) :=
  ⟨rfl, Bool.forall_bool.mpr ⟨.inl rfl, .inr ⟨outcome, rfl, h⟩⟩⟩

/-- A caller whose work has come to nothing leaves without a result. -/
theorem follows_leave_of_fails (full : ε) {h : H} (hfails : R.Fails h) (ex : ε) :
    Task.Follows (protocol R) (fun phase x => Finished returns phase (x.bind fun _ => .error ex))
      (leave full) (.working h) :=
  ⟨.inr ⟨rfl, hfails⟩, Bool.forall_bool.mpr ⟨.inl rfl, .inr ⟨.failed, rfl, _, rfl⟩⟩⟩

/-- **The phases of one caller**, to its end: it returns what its outcome says. -/
theorem follows_getOrRenew {canceled full : ε} {read renew : Task (Calls V J) ε α}
    (hread : ∀ {phase : Phase V H} {post : Phase V H → Except ε α → Prop},
      phase.isAllowed R (.inl .readValue) →
      (∀ value, post (phase.next R ⟨.inl .readValue, value⟩) (returns value)) →
        Task.Follows (protocol R) post read phase)
    (hrenew : Task.Follows (protocol R) (Renewed R returns) renew (.working R.start)) :
    Task.Follows (protocol R) (Finished returns) (getOrRenew canceled full read renew)
      (.looking false .begun) := by
  refine Task.follows_bind.mpr (follows_isFresh (fun now => ?_) ?_)
  · exact hread rfl fun value => .inr ⟨.cached now value, rfl, rfl⟩
  refine Task.follows_bind.mpr ⟨rfl, Bool.forall_bool.mpr ⟨.inr ⟨.failed, rfl, _, rfl⟩, ?_⟩⟩
  refine Task.follows_tryFinally.mpr (Task.follows_bind.mpr (follows_isFresh (fun now => ?_) ?_))
  · exact hread rfl fun value => follows_leave full rfl
  refine Task.Follows.mono hrenew fun phase r hr => ?_
  rcases hr with rfl | ⟨value, time, read, rfl, rfl⟩ | ⟨h, ex, rfl, hfails, rfl⟩
  · exact follows_broken _ fun _ => .inl rfl
  · exact follows_leave full rfl
  · exact follows_leave_of_fails full hfails ex

/-- Reading the value as it is. -/
theorem follows_readValue {phase : Phase V H} {post : Phase V H → Except ε (Option V) → Prop}
    (hallowed : phase.isAllowed R (.inl .readValue))
    (h : ∀ value, post (phase.next R ⟨.inl .readValue, value⟩) (.ok value)) :
    Task.Follows (protocol R) post (perform .readValue) phase :=
  ⟨hallowed, h⟩

/-! ### All callers together

The effect of a call is as weak as it can be: the clock shows anything that is not earlier than
before, and a wait for the gate may be cancelled at any time. -/

/-- The two fields and the gate, the time on the clock, and what the work has made of the rest. The
clock is a part of the state that every call may move on, so that time passes between any two steps.
-/
structure Shared (V G : Type) where
  value : Option V := none
  expires : ℤ := 0
  free : Bool := true
  now : ℤ := 0
  rest : G

/-- The clock does not go back. Only the work changes the rest, and it changes nothing else. -/
def effect (worked : Shared V G → Event J → G → Prop) :
    Shared V G → Event (Calls V J) → Shared V G → Prop
  | s, ⟨.inl .getUtcNow, now⟩, s' => s.now ≤ now ∧ s' = { s with now := now }
  | s, ⟨.inl .readValue, value⟩, s' => value = s.value ∧ s' = s
  | s, ⟨.inl .readExpires, expires⟩, s' => expires = s.expires ∧ s' = s
  | s, ⟨.inl .awaitGate, true⟩, s' => s.free = true ∧ s' = { s with free := false }
  | s, ⟨.inl .awaitGate, false⟩, s' => s' = s
  | s, ⟨.inl (.writeValue value), _⟩, s' => s' = { s with value := some value }
  | s, ⟨.inl (.writeExpires expires), _⟩, s' => s' = { s with expires := expires }
  | s, ⟨.inl .release, true⟩, s' => s.free = false ∧ s' = { s with free := true }
  | s, ⟨.inl .release, false⟩, s' => s.free = true ∧ s' = s
  | s, ⟨.inr op, answer⟩, s' => ∃ rest, worked s ⟨op, answer⟩ rest ∧ s' = { s with rest := rest }

def system (start : G) (worked : Shared V G → Event J → G → Prop)
    (program : ι → Prog (Calls V J) Unit) : System (Calls V J) ι (Shared V G) where
  start := { rest := start }
  program := program
  effect := effect worked

/-! ### What the phases say about the fields

`Fresh` is the heart of it. A value that was found fresh is either kept by a caller that completed
it late enough, or is written by one that has not yet kept it and never will keep it for less. -/

/-- A value that is kept from this time on: its caller has read the clock then, and has written the
expiry that follows from it. -/
def Kept (phases : List (Phase V H)) (value : V) (time : ℤ) : Prop :=
  ∃ phase ∈ phases, phase.kept = some (value, time)

/-- A value has been written and its expiry has not. Its caller has yet to read the clock, or to
write what it makes of that. -/
def Pending (phases : List (Phase V H)) (value : V) : Prop :=
  ∃ phase ∈ phases, phase.pending = some value

/-- A value that a caller found fresh when it read the clock: it is kept beyond that, or is about to
be, after an expiry which the reading is before. The second case is that of a value that was written
between two reads of a look. The expiry is then still the one of the value before. -/
def Fresh (R : Renewal V J H) (s : Shared V G) (phases : List (Phase V H)) (now : ℤ) (value : V) :
    Prop :=
  (∃ time, Kept phases value time ∧ now < time + R.timeToLive value) ∨
    Pending phases value ∧ now < s.expires

def Outcome.Ok (R : Renewal V J H) (s : Shared V G) (phases : List (Phase V H)) : Outcome V → Prop
  | own value _ read => read = some value
  | cached now read => ∃ value, read = some value ∧ Fresh R s phases now value
  | failed => True

/-- What a phase says about the shared state and the other phases. -/
def Phase.Ok (R : Renewal V J H) (s : Shared V G) (phases : List (Phase V H)) : Phase V H → Prop
  | looking _ .begun | waiting => True
  | looking _ .nonNull => s.value ≠ none
  | looking _ (.timed now) => s.value ≠ none ∧ now ≤ s.now
  | looking _ (.passed now) => s.value ≠ none ∧ now < s.expires
  | working _ => s.expires ≤ s.now
  | written value => s.value = some value ∧ s.expires ≤ s.now
  | stamped value time => s.value = some value ∧ s.expires ≤ time
  | stored value _ => s.value = some value
  | releasing outcome | left outcome => outcome.Ok R s phases
  | broken => False

/-- The invariant: the gate is held by one caller or free, each phase is right about the fields, and
the expiry belongs to the value that is cached, unless that one has yet to be completed. All that is
said about who is behind the gate follows from the first clause. -/
structure Inv (R : Renewal V J H) (s : Shared V G) (phases : List (Phase V H)) : Prop where
  gate : phases.countP Phase.holdsGate + s.free.toNat = 1
  ok : ∀ phase ∈ phases, phase.Ok R s phases
  /-- The expiry is past every completion by the time to live. -/
  expiry : ∀ value time, Kept phases value time → time + R.timeToLive value ≤ s.expires
  /-- The cached value is kept until the expiry, or has yet to be completed. -/
  cached : ∀ value, s.value = some value →
    (∃ time, Kept phases value time ∧ s.expires ≤ time + R.timeToLive value) ∨
      Pending phases value
  empty : s.value = none → s.expires ≤ s.now

variable {s s' : Shared V G} {before after : List (Phase V H)} {phase phase' : Phase V H}

theorem Inv.start (rest : G) : Inv R ({ rest := rest } : Shared V G) ([] : List (Phase V H)) where
  gate := rfl
  ok := by simp
  expiry _ _ h := absurd h (by simp [Kept])
  cached _ hvalue := absurd hvalue (by simp)
  empty _ := le_rfl

/-- Whoever is behind the gate is alone there. -/
theorem Inv.busy (h : Inv R s (before ++ phase :: after)) (hholds : phase.holdsGate = true) :
    s.free = false ∧ ∀ other ∈ before ++ after, other.holdsGate = false := by
  have hgate := h.gate
  rw [countP_middle, hholds, Bool.toNat_true] at hgate
  refine ⟨by cases hfree : s.free <;> simp_all, fun other hother => Bool.eq_false_iff.mpr ?_⟩
  have hnone : (before ++ after).countP Phase.holdsGate = 0 := by
    rw [List.countP_append]
    omega
  exact List.countP_eq_zero.mp hnone other hother

/-! ### What a call changes

One caller moves, the others stay where they are. So what is kept and what is pending changes at one
place of the list, and most phases only have to be carried over. -/

theorem mem_middle {other : Phase V H} : other ∈ before ++ phase :: after ↔
    other = phase ∨ other ∈ before ++ after :=
  List.perm_middle.mem_iff.trans List.mem_cons

theorem kept_middle {value : V} {time : ℤ} : Kept (before ++ phase :: after) value time ↔
    phase.kept = some (value, time) ∨ Kept (before ++ after) value time :=
  exists_mem_middle

theorem pending_middle {value : V} : Pending (before ++ phase :: after) value ↔
    phase.pending = some value ∨ Pending (before ++ after) value :=
  exists_mem_middle

theorem holdsGate_of_pending {value : V} (h : phase.pending = some value) :
    phase.holdsGate = true := by
  cases phase with
  | written _ | stamped _ _ => rfl
  | _ => exact nomatch h

/-- Beside a caller behind the gate, nobody has a value that is yet to be kept. -/
theorem Inv.not_pending (h : Inv R s (before ++ phase :: after)) (hholds : phase.holdsGate = true)
    (value : V) : ¬ Pending (before ++ after) value := by
  rintro ⟨other, hother, hpending⟩
  have hout := (h.busy hholds).2 other hother
  exact absurd (hout.symm.trans (holdsGate_of_pending hpending)) Bool.false_ne_true

section

variable {phases phases' : List (Phase V H)}

theorem Outcome.Ok.mono {outcome : Outcome V} (h : outcome.Ok R s phases)
    (hfresh : ∀ now value, Fresh R s phases now value → Fresh R s' phases' now value) :
    outcome.Ok R s' phases' := by
  cases outcome with
  | own value time read => exact h
  | cached now read =>
    obtain ⟨value, hread, hvalue⟩ := h
    exact ⟨value, hread, hfresh now value hvalue⟩
  | failed => trivial

/-- A phase stays where it is if what is fresh stays so, and if nobody touches the fields while its
caller is behind the gate. -/
theorem Phase.Ok.mono (h : phase.Ok R s phases)
    (hfresh : ∀ now value, Fresh R s phases now value → Fresh R s' phases' now value)
    (hnow : s.now ≤ s'.now) (hexpires : s.expires ≤ s'.expires)
    (hvalue : s.value ≠ none → s'.value ≠ none)
    (hinside : phase.holdsGate = true → s'.expires = s.expires ∧ s'.value = s.value) :
    phase.Ok R s' phases' := by
  match phase, h with
  | .looking _ .begun, _ | .waiting, _ => trivial
  | .looking _ .nonNull, h => exact hvalue h
  | .looking _ (.timed _), h => exact ⟨hvalue h.1, h.2.trans hnow⟩
  | .looking _ (.passed _), h => exact ⟨hvalue h.1, h.2.trans_le hexpires⟩
  | .working _, h => exact (hinside rfl).1.trans_le (le_trans h hnow)
  | .written _, h =>
    exact ⟨(hinside rfl).2.trans h.1, (hinside rfl).1.trans_le (h.2.trans hnow)⟩
  | .stamped _ _, h => exact ⟨(hinside rfl).2.trans h.1, (hinside rfl).1.trans_le h.2⟩
  | .stored _ _, h => exact (hinside rfl).2.trans h
  | .releasing _, h | .left _, h => exact Outcome.Ok.mono h hfresh

end

/-- What a call does to the fields unless it writes them. The clock may go on, but never back. -/
structure Keeps (s s' : Shared V G) : Prop where
  now_le : s.now ≤ s'.now
  expires : s'.expires = s.expires
  value : s'.value = s.value

theorem Keeps.refl (s : Shared V G) : Keeps s s := ⟨le_rfl, rfl, rfl⟩

/-- A call that writes no field, of a caller that has something to complete, or has completed
something, if it had before. -/
theorem Inv.same (h : Inv R s (before ++ phase :: after)) (hkeeps : Keeps s s')
    (hkept : phase'.kept = phase.kept) (hpending : phase'.pending = phase.pending)
    (hgate : phase'.holdsGate.toNat + s'.free.toNat = phase.holdsGate.toNat + s.free.toNat)
    (hok : phase'.Ok R s' (before ++ phase :: after)) : Inv R s' (before ++ phase' :: after) := by
  have hkepts : ∀ value time, Kept (before ++ phase' :: after) value time ↔
      Kept (before ++ phase :: after) value time := by
    intro value time
    rw [kept_middle, kept_middle, hkept]
  have hpendings : ∀ value, Pending (before ++ phase' :: after) value ↔
      Pending (before ++ phase :: after) value := by
    intro value
    rw [pending_middle, pending_middle, hpending]
  have hfresh : ∀ {s₁ s₂ : Shared V G}, s₂.expires = s₁.expires → ∀ now value,
      Fresh R s₁ (before ++ phase :: after) now value →
        Fresh R s₂ (before ++ phase' :: after) now value := by
    intro s₁ s₂ hexpires now value
    simp only [Fresh, hkepts, hpendings, hexpires]
    exact id
  refine ⟨?_, ?_, ?_, ?_, ?_⟩
  · have hbefore := h.gate
    rw [countP_middle] at hbefore ⊢
    omega
  · intro other hother
    rcases mem_middle.mp hother with rfl | hmem
    · exact hok.mono (hfresh rfl) le_rfl le_rfl id fun _ => ⟨rfl, rfl⟩
    · exact (h.ok other (mem_middle.mpr (.inr hmem))).mono (hfresh hkeeps.expires) hkeeps.now_le
        hkeeps.expires.ge (fun hvalue => hkeeps.value ▸ hvalue)
        fun _ => ⟨hkeeps.expires, hkeeps.value⟩
  · simp only [hkepts, hkeeps.expires]
    exact h.expiry
  · simp only [hkepts, hpendings, hkeeps.expires, hkeeps.value]
    exact h.cached
  · rw [hkeeps.value, hkeeps.expires]
    exact fun hnone => (h.empty hnone).trans hkeeps.now_le

/-- The value is written, by a caller that has found the expiry in the past. -/
theorem Inv.write {h₀ : H} (h : Inv R s (before ++ .working h₀ :: after)) (value : V) :
    Inv R { s with value := some value } (before ++ .written value :: after) := by
  obtain ⟨-, hout⟩ := h.busy rfl
  have hexpired : s.expires ≤ s.now := h.ok (.working h₀) (by simp)
  have hkepts : ∀ v time, Kept (before ++ .written value :: after) v time ↔
      Kept (before ++ .working h₀ :: after) v time := fun v time => by
    rw [kept_middle, kept_middle]
    rfl
  have hfresh : ∀ now v, Fresh R s (before ++ .working h₀ :: after) now v →
      Fresh R { s with value := some value } (before ++ .written value :: after) now v := by
    rintro now v (⟨time, hkept, hlt⟩ | ⟨hpending, -⟩)
    · exact .inl ⟨time, (hkepts v time).mpr hkept, hlt⟩
    · rcases pending_middle.mp hpending with hself | hother
      · exact nomatch hself
      · exact absurd hother (h.not_pending rfl v)
  refine ⟨?_, ?_, fun v time hkept => h.expiry v time ((hkepts v time).mp hkept), ?_, ?_⟩
  · have hgate := h.gate
    rw [countP_middle] at hgate ⊢
    exact hgate
  · intro other hother
    rcases mem_middle.mp hother with rfl | hmem
    · exact ⟨rfl, hexpired⟩
    · exact (h.ok other (mem_middle.mpr (.inr hmem))).mono hfresh le_rfl le_rfl
        (fun _ hnone => nomatch hnone) fun hholds =>
          absurd ((hout other hmem).symm.trans hholds) Bool.false_ne_true
  · intro v hv
    exact .inr (pending_middle.mpr (.inl hv))
  · intro hnone
    exact nomatch hnone

/-- The expiry is written: the value is kept from the clock reading on. -/
theorem Inv.store {value : V} {time : ℤ} (httl : 0 ≤ R.timeToLive value)
    (h : Inv R s (before ++ .stamped value time :: after)) :
    Inv R { s with expires := time + R.timeToLive value }
      (before ++ .stored value time :: after) := by
  obtain ⟨-, hout⟩ := h.busy rfl
  obtain ⟨hvalue, hexpired⟩ : s.value = some value ∧ s.expires ≤ time :=
    h.ok (.stamped value time) (by simp)
  have hkepts : ∀ v t, Kept (before ++ .stored value time :: after) v t ↔
      (v = value ∧ t = time) ∨ Kept (before ++ .stamped value time :: after) v t := by
    intro v t
    rw [kept_middle, kept_middle]
    simp [Phase.kept, eq_comm]
  have hself : Kept (before ++ .stored value time :: after) value time :=
    (hkepts value time).mpr (.inl ⟨rfl, rfl⟩)
  have hfresh : ∀ now v, Fresh R s (before ++ .stamped value time :: after) now v →
      Fresh R { s with expires := time + R.timeToLive value }
        (before ++ .stored value time :: after) now v := by
    rintro now v (⟨t, hkept, hlt⟩ | ⟨hpending, hlt⟩)
    · exact .inl ⟨t, (hkepts v t).mpr (.inr hkept), hlt⟩
    · -- what was about to be kept is kept now, from a time after the reading
      obtain rfl : value = v := by
        rcases pending_middle.mp hpending with hself | hother
        · exact Option.some.inj hself
        · exact absurd hother (h.not_pending rfl v)
      exact .inl ⟨time, hself, by omega⟩
  refine ⟨?_, ?_, ?_, ?_, ?_⟩
  · have hgate := h.gate
    rw [countP_middle] at hgate ⊢
    exact hgate
  · intro other hother
    rcases mem_middle.mp hother with rfl | hmem
    · exact hvalue
    · have hexpires : s.expires ≤ time + R.timeToLive value := by omega
      exact (h.ok other (mem_middle.mpr (.inr hmem))).mono hfresh le_rfl hexpires id fun hholds =>
        absurd ((hout other hmem).symm.trans hholds) Bool.false_ne_true
  · intro v t hkept
    rcases (hkepts v t).mp hkept with ⟨rfl, rfl⟩ | hkept
    · exact le_rfl
    · have hle := h.expiry v t hkept
      show t + R.timeToLive v ≤ time + R.timeToLive value
      omega
  · intro v hv
    obtain rfl : value = v := Option.some.inj (hvalue.symm.trans hv)
    exact .inl ⟨time, hself, le_rfl⟩
  · intro hnone
    exact nomatch hvalue.symm.trans hnone

variable {worked : Shared V G → Event J → G → Prop}

/-- What is read after a clock reading before the expiry is fresh. -/
theorem Inv.fresh {phases : List (Phase V H)} (h : Inv R s phases) {now : ℤ}
    (hvalue : s.value ≠ none) (hnow : now < s.expires) :
    (Outcome.cached now s.value).Ok R s phases := by
  obtain ⟨value, hsome⟩ := Option.ne_none_iff_exists'.mp hvalue
  refine ⟨value, hsome, ?_⟩
  rcases h.cached value hsome with ⟨time, hkept, hle⟩ | hpending
  · exact .inl ⟨time, hkept, hnow.trans_le hle⟩
  · exact .inr ⟨hpending, hnow⟩

/-- A look that finds the expiry in the past has been at it until now. -/
theorem ok_afterLook (inside : Bool) {phases : List (Phase V H)} (h : s.expires ≤ s.now) :
    (Phase.afterLook R.start inside).Ok R s phases := by
  cases inside with
  | true => exact h
  | false => trivial

theorem ok_afterRead (inside : Bool) {outcome : Outcome V} {phases : List (Phase V H)}
    (h : outcome.Ok R s phases) : (Phase.afterRead inside outcome).Ok R s phases := by
  cases inside with
  | true => exact h
  | false => exact h

/-- One step of a look. -/
theorem Inv.look {inside : Bool} {look : Look} {op : (Calls V J).Op} {answer : (Calls V J).Ret op}
    (hop : (Phase.looking inside look).isAllowed R op)
    (heffect : effect worked s ⟨op, answer⟩ s')
    (h : Inv R s (before ++ .looking inside look :: after)) :
    Inv R s' (before ++ (Phase.looking inside look).next R ⟨op, answer⟩ :: after) := by
  have hok := h.ok (.looking inside look) (by simp)
  -- whatever it comes to, a look touches neither the gate nor the fields
  have hstay : ∀ {s' : Shared V G} (phase' : Phase V H), Keeps s s' → s'.free = s.free →
      phase'.kept = none → phase'.pending = none → phase'.holdsGate = inside →
      phase'.Ok R s' (before ++ .looking inside look :: after) →
        Inv R s' (before ++ phase' :: after) := by
    intro s' phase' hkeeps hfree hkept hpending hgate hok
    refine h.same hkeeps hkept hpending ?_ hok
    rw [hgate, hfree]
    rfl
  have hlook : ∀ {s' : Shared V G}, Keeps s s' → s'.free = s.free → s'.expires ≤ s'.now →
      Inv R s' (before ++ .afterLook R.start inside :: after) := by
    intro s' hkeeps hfree hexpired
    refine hstay _ hkeeps hfree ?_ ?_ ?_ (ok_afterLook inside hexpired) <;> cases inside <;> rfl
  cases look with
  | begun =>
    obtain rfl : op = .inl .readValue := hop
    obtain ⟨rfl, rfl⟩ : answer = s.value ∧ s' = s := heffect
    cases hvalue : s'.value with
    | none => exact hlook (.refl s') rfl (h.empty hvalue)
    | some value =>
      exact hstay (.looking inside .nonNull) (.refl s') rfl rfl rfl rfl
        fun hnone => nomatch hvalue.symm.trans hnone
  | nonNull =>
    obtain rfl : op = .inl .getUtcNow := hop
    obtain ⟨hclock, rfl⟩ : s.now ≤ answer ∧ s' = { s with now := answer } := heffect
    exact hstay (.looking inside (.timed answer)) ⟨hclock, rfl, rfl⟩ rfl rfl rfl rfl
      ⟨hok, le_rfl⟩
  | timed now =>
    obtain rfl : op = .inl .readExpires := hop
    obtain ⟨rfl, rfl⟩ : answer = s.expires ∧ s' = s := heffect
    show Inv R s' (before ++ (if now < s'.expires then _ else _) :: after)
    split
    · next hnow =>
      exact hstay (.looking inside (.passed now)) (.refl s') rfl rfl rfl rfl ⟨hok.1, hnow⟩
    · next hnow => exact hlook (.refl s') rfl (by have := hok.2; omega)
  | passed now =>
    obtain rfl : op = .inl .readValue := hop
    obtain ⟨rfl, rfl⟩ : answer = s.value ∧ s' = s := heffect
    refine hstay (.afterRead inside (.cached now s'.value)) (.refl s') rfl ?_ ?_ ?_
      (ok_afterRead inside (h.fresh hok.1 hok.2)) <;> cases inside <;> rfl

/-- The step lemma. -/
theorem Inv.step (httl : ∀ value, 0 ≤ R.timeToLive value) {op : (Calls V J).Op}
    {answer : (Calls V J).Ret op} (hop : phase.isAllowed R op)
    (heffect : effect worked s ⟨op, answer⟩ s') (h : Inv R s (before ++ phase :: after)) :
    Inv R s' (before ++ phase.next R ⟨op, answer⟩ :: after) := by
  have hok := h.ok phase (by simp)
  cases phase with
  | looking inside look => exact h.look hop heffect
  | waiting =>
    obtain rfl : op = .inl .awaitGate := hop
    cases answer with
    | true =>
      obtain ⟨hfree, rfl⟩ : s.free = true ∧ s' = { s with free := false } := heffect
      exact h.same ⟨le_rfl, rfl, rfl⟩ rfl rfl (by rw [hfree]; rfl) trivial
    | false =>
      obtain rfl : s' = s := heffect
      exact h.same (.refl s') rfl rfl rfl trivial
  | working h₀ =>
    match op, answer, hop with
    | .inr op, answer, _ =>
      obtain ⟨rest, -, rfl⟩ : ∃ rest, worked s ⟨op, answer⟩ rest ∧ s' = { s with rest := rest } :=
        heffect
      exact h.same ⟨le_rfl, rfl, rfl⟩ rfl rfl rfl hok
    | .inl (.writeValue value), _, _ =>
      obtain rfl : s' = { s with value := some value } := heffect
      exact h.write value
    | .inl .release, true, _ =>
      obtain ⟨hfree, rfl⟩ : s.free = false ∧ s' = { s with free := true } := heffect
      exact h.same ⟨le_rfl, rfl, rfl⟩ rfl rfl (by rw [hfree]; rfl) trivial
    | .inl .release, false, _ =>
      obtain ⟨hfree, -⟩ : s.free = true ∧ s' = s := heffect
      exact absurd (hfree.symm.trans (h.busy rfl).1) Bool.noConfusion
  | written value =>
    rcases hop with rfl | rfl
    · obtain ⟨rfl, rfl⟩ : answer = s.value ∧ s' = s := heffect
      obtain ⟨-, hnext⟩ := (next_written R value s'.value).resolve_right fun hne => hne.1 hok.1
      rw [hnext]
      exact h
    · obtain ⟨hclock, rfl⟩ : s.now ≤ answer ∧ s' = { s with now := answer } := heffect
      exact h.same ⟨hclock, rfl, rfl⟩ rfl rfl rfl ⟨hok.1, hok.2.trans hclock⟩
  | stamped value time =>
    obtain rfl : op = .inl (.writeExpires (time + R.timeToLive value)) := hop
    obtain rfl : s' = { s with expires := time + R.timeToLive value } := heffect
    exact h.store (httl value)
  | stored value time =>
    obtain rfl : op = .inl .readValue := hop
    obtain ⟨rfl, rfl⟩ : answer = s.value ∧ s' = s := heffect
    exact h.same (.refl s') rfl rfl rfl hok
  | releasing outcome =>
    obtain rfl : op = .inl .release := hop
    cases answer with
    | true =>
      obtain ⟨hfree, rfl⟩ : s.free = false ∧ s' = { s with free := true } := heffect
      refine h.same ⟨le_rfl, rfl, rfl⟩ ?_ rfl (by rw [hfree]; rfl) ?_
      · cases outcome <;> rfl
      · exact Outcome.Ok.mono hok fun _ _ => id
    | false =>
      obtain ⟨hfree, -⟩ : s.free = true ∧ s' = s := heffect
      exact absurd (hfree.symm.trans (h.busy rfl).1) Bool.noConfusion
  | left outcome => exact absurd hop id
  | broken => exact absurd hok id

/-- What a call that concerns the fields leaves alone. -/
theorem fields_of_effect {op : FieldOp V} {answer : FieldOp.Ret op}
    (heffect : effect worked s ⟨.inl op, answer⟩ s') : s'.rest = s.rest ∧
      (isWrite (J := J) ⟨.inl op, answer⟩ = false →
        s'.value = s.value ∧ s'.expires = s.expires) := by
  cases op with
  | getUtcNow =>
    obtain ⟨-, rfl⟩ := heffect
    exact ⟨rfl, fun _ => ⟨rfl, rfl⟩⟩
  | readValue | readExpires =>
    obtain ⟨-, rfl⟩ := heffect
    exact ⟨rfl, fun _ => ⟨rfl, rfl⟩⟩
  | awaitGate =>
    cases answer with
    | true =>
      obtain ⟨-, rfl⟩ := heffect
      exact ⟨rfl, fun _ => ⟨rfl, rfl⟩⟩
    | false =>
      obtain rfl : s' = s := heffect
      exact ⟨rfl, fun _ => ⟨rfl, rfl⟩⟩
  | release =>
    cases answer <;> obtain ⟨-, rfl⟩ := heffect <;> exact ⟨rfl, fun _ => ⟨rfl, rfl⟩⟩
  | writeValue value =>
    obtain rfl : s' = { s with value := some value } := heffect
    exact ⟨rfl, nofun⟩
  | writeExpires expires =>
    obtain rfl : s' = { s with expires := expires } := heffect
    exact ⟨rfl, nofun⟩

/-- Who writes is behind the gate. -/
theorem holdsGate_of_isWrite {op : FieldOp V} {answer : FieldOp.Ret op}
    (hop : phase.isAllowed R (.inl op)) (hne : phase ≠ .broken)
    (hwrite : isWrite (J := J) ⟨.inl op, answer⟩ = true) : phase.holdsGate = true := by
  cases phase with
  | working _ | written _ | stamped _ _ | stored _ _ | releasing _ => rfl
  | looking inside look =>
    cases look <;> (obtain rfl := Sum.inl.inj hop; exact nomatch hwrite)
  | waiting =>
    obtain rfl := Sum.inl.inj hop
    exact nomatch hwrite
  | left outcome => exact absurd hop id
  | broken => exact absurd rfl hne

end Expiring

end Interaction
