import LookingGlass.Contracts.Models
import LookingGlass.Foundations.ExpiringCalls

/-!
# The cache

A cached value is returned without a lock while it is fresh; otherwise one caller at a time, behind
a gate of one, looks again and calls the factory. It is a value that expires, and the work that
renews it is one call of the factory, which may fail or be cancelled.

## Completion

A call of the factory that returns a value is completed at the time that the caller reads from the
clock right after it, which is in the caller's own calls, before it writes the expiry. How long a
value is returned, and when the next call may start, is compared with that time, and not with the
expiry.

## Numbers

Which call of the factory a value comes from is nothing the code knows. Here every call has a
number, and every value carries that of its call. Without this, two calls that return equal values
could not be told apart, and whose completion a value is fresh by would not be said.

Besides, the shared state remembers what the two fields were at each start of a call, in the order
of the starts, so that the number of a call is a place in this list. Nothing but the statement about
failures reads it: while a caller whose call has failed is behind the gate, the fields are what they
were when that call was started.

## What is deliberately absent

The factory is any program, and what it does is not modelled: a call of it is one call that starts
it and one that awaits it, which answers with a value or with an exception. No factory of the
repository returns `null`, so a value that is there is never taken for one that is missing.

## Main definitions

* `TtlCache.getAsync` — what a caller runs
* `TtlCache.completion` — when its call of the factory was completed
* `TtlCache.Cached` — what is promised of the cache

## Main results

* `TtlCache.follows_getAsync` — the phases of one caller
* `TtlCache.cached_of_reachable` — one call at a time, fresh values, and what failures leave behind
-/

namespace LookingGlass

open Utf16 Interaction Expiring

/-- A value, and the number of the factory call it comes from. The number is no part of the code.
Two calls may produce equal values, and what is promised of a value is promised of the call that it
comes from. -/
structure Produced (T : Type) where
  call : ℕ
  value : T

inductive FactoryOp (T : Type)
  | startFactory
  | awaitFactory (call : ℕ)

abbrev FactoryOp.Ret {T : Type} : FactoryOp T → Type
  | startFactory => ℕ
  | awaitFactory _ => Except Exn (Produced T)

abbrev Factory (T : Type) : Interface := ⟨FactoryOp T, FactoryOp.Ret⟩

/-- The calls on `_value`, `_expires`, `_gate` and the clock, and those of the factory. -/
abbrev Cache (T : Type) : Interface := Calls (Produced T) (Factory T)

namespace TtlCache

variable {T : Type} {ttl : ℤ}

/-- The gate is awaited with a token, and releasing it when it is free throws a
`SemaphoreFullException`. -/
def getAsync (ttl : ℤ) : Task (Cache T) Exn (Option (Produced T)) := do
  let fresh ← isFresh
  if fresh then perform .readValue
  else
    enter .operationCanceled
    try
      let fresh ← isFresh
      if fresh then perform .readValue
      else
        let call : ℕ ← Task.perform (I := Cache T) (.inr .startFactory)
        let value ← Task.call (I := Cache T) (.inr (.awaitFactory call)) fun answer => answer
        perform (.writeValue value)
        let now : DateTimeOffset ← perform .getUtcNow
        perform (.writeExpires (now + ttl))
        perform .readValue
    finally
      leave .other

/-! ### The call of the factory

The work of the cache has two calls, and the second one refers to the first by its number. -/

/-- How far a caller has come with its call of the factory. Here the cache is a value that expires,
and this is the work by which it is renewed: one call of the factory, which may fail. -/
inductive FactoryCall (T : Type)
  | idle
  | running (call : ℕ)
  | produced (value : Produced T)
  | failed (call : ℕ)

namespace FactoryCall

def isAllowed : FactoryCall T → FactoryOp T → Prop
  | idle, op => op = .startFactory
  | running call, op => op = .awaitFactory call
  | _, _ => False

def next : FactoryCall T → Event (Factory T) → FactoryCall T
  | idle, ⟨.startFactory, call⟩ => running call
  | running _, ⟨.awaitFactory _, .ok value⟩ => produced value
  | running call, ⟨.awaitFactory _, .error _⟩ => failed call
  | phase, _ => phase

/-- The calls that have been made of the factory. -/
def Made : FactoryCall T → List (Event (Factory T)) → Prop
  | idle, es => es = []
  | running call, es => es = [⟨.startFactory, call⟩]
  | produced value, es => ∃ call : ℕ, es = [⟨.startFactory, call⟩, ⟨.awaitFactory call, .ok value⟩]
  | failed call, es => ∃ ex, es = [⟨.startFactory, call⟩, ⟨.awaitFactory call, .error ex⟩]

def isProduced : FactoryCall T → Bool
  | produced _ => true
  | _ => false

def number : FactoryCall T → Option ℕ
  | idle => none
  | running call | failed call => some call
  | produced value => some value.call

/-- The number, as long as there is no value. -/
def unanswered : FactoryCall T → Option ℕ
  | running call | failed call => some call
  | _ => none

end FactoryCall

def renewal (T : Type) (ttl : ℤ) : Renewal (Produced T) (Factory T) (FactoryCall T) where
  protocol := ⟨FactoryCall.isAllowed, FactoryCall.next⟩
  start := .idle
  Yields phase value := phase = .produced value
  Fails phase := ∃ call, phase = .failed call
  timeToLive _ := ttl

theorem getAsync_eq : getAsync (T := T) ttl =
    getOrRenew .operationCanceled .other (perform .readValue) (do
    let call : ℕ ← Task.perform (I := Cache T) (.inr .startFactory)
    let value ← Task.call (I := Cache T) (.inr (.awaitFactory call)) fun answer => answer
    perform (.writeValue value)
    let now : DateTimeOffset ← perform .getUtcNow
    perform (.writeExpires (now + ttl))
    perform .readValue) :=
  rfl

/-- **The phases of one caller**, to its end: it returns what its outcome says. -/
theorem follows_getAsync : Task.Follows (protocol (renewal T ttl)) (Finished Except.ok)
    (getAsync ttl) (.looking false .begun) := by
  rw [getAsync_eq]
  refine follows_getOrRenew follows_readValue ?_
  refine Task.follows_bind.mpr ⟨rfl, fun call => Task.follows_bind.mpr ⟨rfl, fun answer => ?_⟩⟩
  cases answer with
  | error ex => exact .inr (.inr ⟨.failed call, ex, rfl, ⟨call, rfl⟩, rfl⟩)
  | ok value =>
    refine Task.follows_bind.mpr ⟨.inl ⟨value, rfl, rfl⟩, fun _ => ?_⟩
    refine Task.follows_bind.mpr ⟨.inr rfl, fun now => ?_⟩
    exact Task.follows_bind.mpr ⟨rfl, fun _ => ⟨rfl, fun read => .inr (.inl ⟨_, _, _, rfl, rfl⟩)⟩⟩

/-! ### All callers together

The rest of the shared state is the list of what the fields were at each start. It is written at a
start and read by nobody but the proof. -/

/-- What the two fields were when each call of the factory was started. -/
abbrev Starts (T : Type) := List (Option (Produced T) × DateTimeOffset)

/-- The number of a call is its place among the starts, and a value carries that of its call. -/
def worked : Shared (Produced T) (Starts T) → Event (Factory T) → Starts T → Prop
  | s, ⟨.startFactory, call⟩, rest =>
    call = s.rest.length ∧ rest = s.rest ++ [(s.value, s.expires)]
  | s, ⟨.awaitFactory call, .ok value⟩, rest => value.call = call ∧ rest = s.rest
  | s, ⟨.awaitFactory _, .error _⟩, rest => rest = s.rest

def program (ttl : ℤ) (_ : Unit) : Prog (Cache T) Unit := (getAsync ttl).run >>= fun _ => pure ()

def system (T : Type) (ttl : ℤ) : System (Cache T) Unit (Shared (Produced T) (Starts T)) :=
  Expiring.system [] worked (program ttl)

abbrev State (T : Type) := Config (Cache T) Unit (Shared (Produced T) (Starts T))

abbrev Caller (T : Type) := Thread (Cache T) Unit

/-! ### What is read off the calls of a caller

`Produces`, `Fails` and `completion` are functions of the calls that a caller has made. -/

def isStart : Event (Cache T) → Bool
  | ⟨.inr .startFactory, _⟩ => true
  | _ => false

def isEnd : Event (Cache T) → Bool
  | ⟨.inr (.awaitFactory _), _⟩ => true
  | _ => false

/-- A call of the factory has returned a value. -/
def isAnswer : Event (Cache T) → Bool
  | ⟨.inr (.awaitFactory _), .ok _⟩ => true
  | _ => false

/-- The value comes from the caller's own call of the factory. It is read off the answer to that
call, in which the number of the call is part of the value. -/
def Produces (past : List (Event (Cache T))) (value : Produced T) : Prop :=
  ∃ call, (⟨.inr (.awaitFactory call), .ok value⟩ : Event (Cache T)) ∈ past

/-- The caller's own call of the factory, which has this number, has failed or was cancelled. -/
def Fails (past : List (Event (Cache T))) (call : ℕ) : Prop :=
  ∃ ex, (⟨.inr (.awaitFactory call), .error ex⟩ : Event (Cache T)) ∈ past

/-- When the caller's own call of the factory was completed. -/
def completion (past : List (Event (Cache T))) : Option DateTimeOffset := firstReading isAnswer past

def HasReleased (past : List (Event (Cache T))) : Prop :=
  (⟨.inl .release, true⟩ : Event (Cache T)) ∈ past

theorem obeys (httl : 0 < ttl) :
    Obeys (renewal T ttl) FactoryCall.Made isAnswer FactoryCall.isProduced (program ttl) where
  timeToLive _ := httl.le
  start := rfl
  work phase es e hallowed hmade := by
    obtain ⟨op, answer⟩ := e
    cases phase with
    | idle =>
      obtain rfl : op = .startFactory := hallowed
      obtain rfl : es = [] := hmade
      rfl
    | running call =>
      obtain rfl : op = .awaitFactory call := hallowed
      obtain rfl : es = [⟨.startFactory, call⟩] := hmade
      cases answer with
      | ok value => exact ⟨call, rfl⟩
      | error ex => exact ⟨ex, rfl⟩
    | produced _ | failed _ => exact absurd hallowed id
  completes := by
    refine ⟨fun op answer _ => rfl, rfl, fun phase e hallowed => ?_, fun phase value hyields => ?_⟩
    · obtain ⟨op, answer⟩ := e
      cases phase with
      | idle =>
        obtain rfl : op = .startFactory := hallowed
        rfl
      | running call =>
        obtain rfl : op = .awaitFactory call := hallowed
        cases answer <;> rfl
      | produced _ | failed _ => exact absurd hallowed id
    · obtain rfl : phase = .produced value := hyields
      exact .inl rfl
  leaves _ := follows_of_finished follows_getAsync

variable {c : State T} {t m : Caller T} {value : Produced T}

/-- An answer of the factory among the calls of the work says how far they have come. -/
theorem eq_next_of_made {call : FactoryCall T} {es : List (Event (Factory T))} {number : ℕ}
    {answer : Except Exn (Produced T)} (hmade : call.Made es)
    (h : (⟨.awaitFactory number, answer⟩ : Event (Factory T)) ∈ es) :
    call = FactoryCall.next (.running number) ⟨.awaitFactory number, answer⟩ := by
  -- the start is no answer, so there is but one
  have hsecond : ∀ {other : ℕ} {answer' : Except Exn (Produced T)},
      es = [⟨.startFactory, other⟩, ⟨.awaitFactory other, answer'⟩] →
        number = other ∧ answer = answer' := by
    intro other answer' hes
    rw [hes] at h
    rcases List.mem_pair.mp h with hstart | hanswer
    · exact nomatch (Event.mk.inj hstart).1
    · obtain ⟨hop, hanswer⟩ := Event.mk.inj hanswer
      obtain rfl := FactoryOp.awaitFactory.inj hop
      exact ⟨rfl, eq_of_heq hanswer⟩
  cases call with
  | idle => exact absurd (hmade ▸ h) List.not_mem_nil
  | running other =>
    obtain rfl : es = [⟨.startFactory, other⟩] := hmade
    exact nomatch (Event.mk.inj (List.mem_singleton.mp h)).1
  | produced value =>
    obtain ⟨other, hes⟩ := hmade
    obtain ⟨-, rfl⟩ := hsecond hes
    rfl
  | failed other =>
    obtain ⟨ex, hes⟩ := hmade
    obtain ⟨rfl, rfl⟩ := hsecond hes
    rfl

variable {past : List (Event (Cache T))} {number : ℕ}

theorem produced_of_made {call : FactoryCall T} (hmade : call.Made (works past))
    (h : Produces past value) : call = .produced value := by
  obtain ⟨number, hmem⟩ := h
  exact eq_next_of_made hmade (mem_works.mpr hmem)

theorem failed_of_made {call : FactoryCall T} (hmade : call.Made (works past))
    (h : Fails past number) : call = .failed number := by
  obtain ⟨ex, hmem⟩ := h
  exact eq_next_of_made hmade (mem_works.mpr hmem)

theorem produces_of_wrote (h : Wrote (renewal T ttl) FactoryCall.Made value past) :
    Produces past value := by
  obtain ⟨-, _, rfl, call, hworks⟩ := h
  refine ⟨call, mem_works.mp ?_⟩
  rw [hworks]
  exact List.mem_pair.mpr (.inr rfl)

/-- How far the call of the factory has come, at the end as well. -/
def callAt : Phase (Produced T) (FactoryCall T) → FactoryCall T
  | .working call => call
  | .written value | .stamped value _ | .stored value _ | .releasing (.own value _ _)
  | .left (.own value _ _) => .produced value
  | _ => .idle

/-- What a caller has made of the factory, unless it has given up. -/
theorem made_of_knows {phase : Phase (Produced T) (FactoryCall T)}
    (hknows : phase.Knows (renewal T ttl) FactoryCall.Made past) (hne : phase ≠ .broken) :
    (callAt phase).Made (works past) ∨
      phase = .left .failed ∧ GaveUp (renewal T ttl) FactoryCall.Made past := by
  match phase, hknows with
  | .looking _ _, hknows => exact .inl hknows.1.2
  | .waiting, hknows => exact .inl hknows.2
  | .working _, hknows => exact .inl hknows.2
  | .written _, ⟨_, _, rfl, hmade⟩ | .stamped _ _, ⟨_, _, rfl, hmade⟩
  | .stored _ _, ⟨_, _, rfl, hmade⟩ | .releasing (.own _ _ _), ⟨_, _, _, rfl, hmade⟩
  | .left (.own _ _ _), ⟨_, _, rfl, hmade⟩ => exact .inl hmade
  | .releasing (.cached _ _), hknows => exact .inl hknows.2.1.2
  | .left (.cached _ _), hknows => exact .inl hknows.1.2
  | .releasing .failed, hknows => exact absurd rfl hknows.1
  | .left .failed, hknows => exact .inr ⟨rfl, hknows⟩
  | .broken, _ => exact absurd rfl hne

/-! ### Numbers

No two callers have a call of one number, and as long as a call has no value the fields are what
they were when it was started. -/

def callOf (phase : Phase (Produced T) (FactoryCall T)) : Option ℕ := (callAt phase).number

def startOf (phase : Phase (Produced T) (FactoryCall T)) : Option ℕ := (callAt phase).unanswered

/-- Two callers have not started the same call. -/
def Apart (phase other : Phase (Produced T) (FactoryCall T)) : Prop :=
  ∀ call, callOf phase = some call → callOf other ≠ some call

instance : Std.Symm (Apart (T := T)) where
  symm _ _ h call hother hphase := h call hphase hother

/-- What the phases say about the numbers, and about the fields at the starts. It is what this cache
adds to the invariant of a value that expires: calls are numbered as they start, each belongs to one
caller, and a call that fails finds the fields at its end as they were at its start. -/
structure Numbered (s : Shared (Produced T) (Starts T))
    (phases : List (Phase (Produced T) (FactoryCall T))) : Prop where
  lt : ∀ phase ∈ phases, ∀ call, callOf phase = some call → call < s.rest.length
  apart : phases.Pairwise Apart
  /-- Until there is a value, the fields are what they were when the call was started. -/
  atStart : ∀ phase ∈ phases, ∀ call, startOf phase = some call →
    s.rest[call]? = some (s.value, s.expires)

variable {s s' : Shared (Produced T) (Starts T)} {phase phase' : Phase (Produced T) (FactoryCall T)}
  {before after : List (Phase (Produced T) (FactoryCall T))}

/-- A caller goes on under the number that it has. -/
theorem Numbered.same (h : Numbered s (before ++ phase :: after)) (hrest : s'.rest = s.rest)
    (hcall : callOf phase' = callOf phase ∨ callOf phase' = none)
    (hstart : ∀ call, startOf phase' = some call → s.rest[call]? = some (s'.value, s'.expires))
    (hothers : ∀ other ∈ before ++ after, startOf other ≠ none →
      s'.value = s.value ∧ s'.expires = s.expires) :
    Numbered s' (before ++ phase' :: after) := by
  obtain ⟨hlt, hapart, hatStart⟩ := h
  have hself : ∀ call, callOf phase' = some call → callOf phase = some call := by
    intro call hsome
    rcases hcall with heq | hnone
    · exact heq ▸ hsome
    · exact nomatch hnone.symm.trans hsome
  refine ⟨fun other hother call hsome => ?_, ?_, fun other hother call hsome => ?_⟩
  · rw [hrest]
    rcases mem_middle.mp hother with rfl | hmem
    · exact hlt phase (mem_middle.mpr (.inl rfl)) call (hself call hsome)
    · exact hlt other (mem_middle.mpr (.inr hmem)) call hsome
  · rw [List.pairwise_middle fun h => symm h, List.pairwise_cons] at hapart ⊢
    refine ⟨fun other hother call hsome => ?_, hapart.2⟩
    exact hapart.1 other hother call (hself call hsome)
  · rw [hrest]
    rcases mem_middle.mp hother with rfl | hmem
    · exact hstart call hsome
    · obtain ⟨hvalue, hexpires⟩ := hothers other hmem fun hnone => nomatch hnone.symm.trans hsome
      rw [hvalue, hexpires]
      exact hatStart other (mem_middle.mpr (.inr hmem)) call hsome

/-- A call gets a new number. -/
theorem Numbered.start (h : Numbered s (before ++ .working .idle :: after)) :
    Numbered { s with rest := s.rest ++ [(s.value, s.expires)] }
      (before ++ .working (.running s.rest.length) :: after) := by
  obtain ⟨hlt, hapart, hatStart⟩ := h
  refine ⟨fun other hother call hsome => ?_, ?_, fun other hother call hsome => ?_⟩
  · have hlonger : s.rest.length < (s.rest ++ [(s.value, s.expires)]).length := by simp
    rcases mem_middle.mp hother with rfl | hmem
    · obtain rfl := Option.some.inj hsome
      exact hlonger
    · exact (hlt other (mem_middle.mpr (.inr hmem)) call hsome).trans hlonger
  · rw [List.pairwise_middle fun h => symm h, List.pairwise_cons] at hapart ⊢
    refine ⟨fun other hother call hsome hother' => ?_, hapart.2⟩
    obtain rfl := Option.some.inj hsome
    exact absurd (hlt other (mem_middle.mpr (.inr hother)) _ hother') (lt_irrefl _)
  · rcases mem_middle.mp hother with rfl | hmem
    · obtain rfl := Option.some.inj hsome
      exact List.getElem?_concat_length
    · have hfields := hatStart other (mem_middle.mpr (.inr hmem)) call hsome
      exact (List.getElem?_append_left (List.getElem?_eq_some_iff.mp hfields).1).trans hfields

theorem callAt_look {inside : Bool} {look : Look} {op : FieldOp (Produced T)}
    (answer : FieldOp.Ret op)
    (hop : (Phase.looking inside look).isAllowed (renewal T ttl) (.inl op)) :
    callAt ((Phase.looking inside look).next (renewal T ttl) ⟨.inl op, answer⟩) = .idle := by
  have hafter : callAt (T := T) (.afterLook .idle inside) = .idle := by
    cases inside <;> rfl
  cases look with
  | begun =>
    obtain rfl := Sum.inl.inj hop
    cases answer with
    | none => exact hafter
    | some value => rfl
  | nonNull =>
    obtain rfl := Sum.inl.inj hop
    rfl
  | timed now =>
    obtain rfl := Sum.inl.inj hop
    show callAt (if now < answer then _ else _) = .idle
    split
    · rfl
    · exact hafter
  | passed now =>
    obtain rfl := Sum.inl.inj hop
    cases inside <;> rfl

/-- A call that concerns the fields starts no call of the factory. -/
theorem callAt_next {op : FieldOp (Produced T)} (answer : FieldOp.Ret op)
    (hop : phase.isAllowed (renewal T ttl) (.inl op)) :
    (callAt (phase.next (renewal T ttl) ⟨.inl op, answer⟩) = callAt phase ∨
      callAt (phase.next (renewal T ttl) ⟨.inl op, answer⟩) = .idle) ∧
    startOf (phase.next (renewal T ttl) ⟨.inl op, answer⟩) = none := by
  cases phase with
  | looking inside look =>
    have hidle := callAt_look answer hop
    exact ⟨.inr hidle, congrArg FactoryCall.unanswered hidle⟩
  | waiting =>
    obtain rfl := Sum.inl.inj hop
    cases answer <;> exact ⟨.inl rfl, rfl⟩
  | working call =>
    rcases hop with ⟨value, rfl, rfl⟩ | ⟨rfl, -⟩
    · exact ⟨.inl rfl, rfl⟩
    · cases answer <;> exact ⟨.inr rfl, rfl⟩
  | written value =>
    rcases hop with hop | hop <;> obtain rfl := Sum.inl.inj hop
    · rcases next_written (renewal T ttl) value answer with ⟨-, hnext⟩ | ⟨-, hnext⟩ <;> rw [hnext]
      · exact ⟨.inl rfl, rfl⟩
      · exact ⟨.inr rfl, rfl⟩
    · exact ⟨.inl rfl, rfl⟩
  | stamped value time | stored value time =>
    obtain rfl := Sum.inl.inj hop
    exact ⟨.inl rfl, rfl⟩
  | releasing outcome =>
    obtain rfl := Sum.inl.inj hop
    cases answer with
    | true => cases outcome <;> exact ⟨.inl rfl, rfl⟩
    | false => exact ⟨.inr rfl, rfl⟩
  | left outcome => exact absurd hop id
  | broken => exact ⟨.inl rfl, rfl⟩

/-- The step lemma. -/
theorem Numbered.step {op : (Cache T).Op} {answer : (Cache T).Ret op}
    (hop : phase.isAllowed (renewal T ttl) op) (hne : phase ≠ .broken)
    (heffect : effect worked s ⟨op, answer⟩ s')
    (hbusy : phase.holdsGate = true → ∀ other ∈ before ++ after, other.holdsGate = false)
    (h : Numbered s (before ++ phase :: after)) :
    Numbered s' (before ++ phase.next (renewal T ttl) ⟨op, answer⟩ :: after) := by
  cases op with
  | inl op =>
    obtain ⟨hrest, hfields⟩ := fields_of_effect heffect
    obtain ⟨hcall, hstart⟩ := callAt_next answer hop
    refine h.same hrest
      (hcall.imp (congrArg FactoryCall.number) (congrArg FactoryCall.number))
      (fun call hself => nomatch hstart.symm.trans hself) fun other hother hother' => ?_
    refine hfields (Bool.eq_false_iff.mpr fun hwrite => ?_)
    -- whoever calls the factory is behind the gate, and so is whoever writes
    have hout := hbusy (holdsGate_of_isWrite hop hne hwrite) other hother
    match other, hother', hout with
    | .looking _ _, hother', _ | .waiting, hother', _ | .left (.own _ _ _), hother', _
    | .left (.cached _ _), hother', _ | .left .failed, hother', _
    | .broken, hother', _ => exact hother' rfl
  | inr op =>
    obtain ⟨call, rfl, hallowed⟩ := working_of_isAllowed hop hne
    obtain ⟨rest, hworked, rfl⟩ :
        ∃ rest, worked s ⟨op, answer⟩ rest ∧ s' = { s with rest := rest } := heffect
    cases call with
    | idle =>
      obtain rfl : op = .startFactory := hallowed
      obtain ⟨rfl, rfl⟩ := hworked
      exact h.start
    | running call =>
      obtain rfl : op = .awaitFactory call := hallowed
      have hstart := h.atStart (.working (.running call)) (mem_middle.mpr (.inl rfl)) call rfl
      cases answer with
      | ok value =>
        obtain ⟨rfl, rfl⟩ : value.call = call ∧ rest = s.rest := hworked
        exact h.same rfl (.inl rfl) nofun fun _ _ _ => ⟨rfl, rfl⟩
      | error ex =>
        obtain rfl : rest = s.rest := hworked
        refine h.same rfl (.inl rfl) (fun call' hcall => ?_) fun _ _ _ => ⟨rfl, rfl⟩
        exact Option.some.inj hcall ▸ hstart
    | produced _ | failed _ => exact absurd hallowed id

theorem Numbered.spawn {phases : List (Phase (Produced T) (FactoryCall T))}
    (h : Numbered s phases) : Numbered s (phases ++ [.looking false .begun]) where
  lt := List.forall_mem_append.mpr ⟨h.lt, List.forall_mem_singleton.mpr nofun⟩
  apart := by
    refine List.pairwise_append.mpr ⟨h.apart, List.pairwise_singleton .., ?_⟩
    intro phase _ other hother call _
    obtain rfl := List.mem_singleton.mp hother
    exact nofun
  atStart := List.forall_mem_append.mpr ⟨h.atStart, List.forall_mem_singleton.mpr nofun⟩

structure Sound (ttl : ℤ) (s : Shared (Produced T) (Starts T))
    (phases : List (Phase (Produced T) (FactoryCall T))) : Prop where
  fields : Inv (renewal T ttl) s phases
  numbered : Numbered s phases

theorem Sound.step (httl : 0 < ttl) {op : (Cache T).Op} {answer : (Cache T).Ret op}
    (hop : phase.isAllowed (renewal T ttl) op) (heffect : effect worked s ⟨op, answer⟩ s')
    (h : Sound ttl s (before ++ phase :: after)) :
    Sound ttl s' (before ++ phase.next (renewal T ttl) ⟨op, answer⟩ :: after) := by
  have hne : phase ≠ .broken := by
    rintro rfl
    exact h.fields.ok .broken (mem_middle.mpr (.inl rfl))
  exact ⟨h.fields.step (obeys httl).timeToLive hop heffect,
    h.numbered.step hop hne heffect fun hholds => (h.fields.busy hholds).2⟩

/-- The run lemma. -/
theorem sound_of_reachable (httl : 0 < ttl) (h : (system T ttl).Reachable c) :
    Sound ttl c.shared (phases (renewal T ttl) c) :=
  System.invariant_of_reachable (P := protocol (renewal T ttl)) (obeys httl).follows
    ⟨Inv.start _, ⟨by simp, .nil, by simp⟩⟩
    (fun _ _ _ hsound => ⟨hsound.fields.spawn, hsound.numbered.spawn⟩)
    (fun _ _ _ _ _ _ _ hallowed heffect hsound => hsound.step httl hallowed heffect) h

/-! ### What is promised

Three promises: at most one call is running, what is returned is fresh or the own value of the
caller, and a failure leaves nothing behind. -/

/-- A caller whose call has been started and has not ended is behind the gate. -/
theorem starts_le (hknows : phase.Knows (renewal T ttl) FactoryCall.Made past)
    (hne : phase ≠ .broken) :
    past.countP isStart ≤ past.countP isEnd + phase.holdsGate.toNat := by
  rw [countP_works (p := isStart) fun _ _ => rfl, countP_works (p := isEnd) fun _ _ => rfl]
  have hended : ∀ {call : FactoryCall T}, call.Made (works past) →
      (∀ number, call ≠ .running number) → (works past).countP (fun e => isStart e.right) ≤
        (works past).countP fun e => isEnd e.right := by
    intro call hmade hne
    cases call with
    | idle => exact (show works past = [] from hmade) ▸ le_rfl
    | running number => exact absurd rfl (hne number)
    | produced value =>
      obtain ⟨number, hworks⟩ := hmade
      exact hworks ▸ le_rfl
    | failed number =>
      obtain ⟨ex, hworks⟩ := hmade
      exact hworks ▸ le_rfl
  rcases works_of_knows hknows hne with ⟨call, rfl, hmade⟩ | hnone | ⟨call, hdone, hmade⟩
  · by_cases hrunning : ∃ number, call = .running number
    · obtain ⟨number, rfl⟩ := hrunning
      exact (show works past = [⟨.startFactory, number⟩] from hmade) ▸ le_rfl
    · exact Nat.le_add_right_of_le (hended hmade fun number hcall => hrunning ⟨number, hcall⟩)
  · exact hnone ▸ Nat.zero_le _
  · refine Nat.le_add_right_of_le (hended hmade ?_)
    rintro number rfl
    rcases hdone with ⟨value, hyields⟩ | ⟨other, hfails⟩
    · exact nomatch hyields
    · exact nomatch hfails

/-- Whoever has produced a value is the only one under its number. -/
theorem callOf_of_produces (hknows : phase.Knows (renewal T ttl) FactoryCall.Made past)
    (hne : phase ≠ .broken) (h : Produces past value) : callOf phase = some value.call := by
  rcases made_of_knows hknows hne with hmade | ⟨-, -, ⟨hnone, -⟩ | ⟨⟨_, ⟨number, rfl⟩, hmade⟩, -⟩⟩
  · exact congrArg FactoryCall.number (produced_of_made hmade h)
  · exact nomatch produced_of_made (show FactoryCall.Made .idle (works past) from hnone) h
  · exact nomatch produced_of_made hmade h

/-- Whose call has failed has written nothing, and is still behind the gate or has left it. -/
theorem phase_of_fails (hknows : phase.Knows (renewal T ttl) FactoryCall.Made past)
    (hne : phase ≠ .broken) (h : Fails past number) :
    Unwritten past ∧ (phase = .working (.failed number) ∨ HasReleased past) := by
  rcases made_of_knows hknows hne with hmade | ⟨-, hunwritten, ⟨hnone, -⟩ | ⟨-, hreleased⟩⟩
  · have hcall := failed_of_made hmade h
    match phase, hknows, hcall with
    | .working _, hknows, hcall => exact ⟨hknows.1, .inl (congrArg Phase.working hcall)⟩
  · exact nomatch failed_of_made (show FactoryCall.Made .idle (works past) from hnone) h
  · exact ⟨hunwritten, .inr hreleased⟩

/-- After a failure there is nothing left to do but to leave the gate. -/
theorem exists_release {p : Prog (Cache T) Unit}
    (h : p.Follows (protocol (renewal T ttl)) (fun phase _ => phase.holdsGate = false)
      (.working (.failed number))) : ∃ next, p = .call (.inl .release) next := by
  cases p with
  | done a => exact nomatch h
  | call op next =>
    cases op with
    | inl op =>
      rcases h.1 with ⟨value, -, hyields⟩ | ⟨rfl, -⟩
      · exact nomatch hyields
      · exact ⟨next, rfl⟩
    | inr op => exact absurd h.1 id

/-- What holds in every state that is reached. The times are those on the clock, as the callers have
read them: a value is completed at what its caller reads after the factory, and a caller returns
what it finds after its own last reading. -/
structure Cached (ttl : ℤ) (c : State T) : Prop where
  /-- At most one call of the factory has been started and has not ended. -/
  single_flight : (c.threads.flatMap Thread.past).countP isStart ≤
    (c.threads.flatMap Thread.past).countP isEnd + 1
  /-- What a caller returns comes from its own call, or else from a call that is completed less than
  the time to live before the caller has read the clock, if it is completed yet. -/
  returned : ∀ t ∈ c.threads, ∀ read, Task.Runs (getAsync ttl) t.past (.ok read) →
    ∃ value, read = some value ∧ (Produces t.past value ∨
      ∃ now, lastReading t.past = some now ∧ (∃ m ∈ c.threads, Produces m.past value) ∧
        ∀ m ∈ c.threads, ∀ time, Produces m.past value → completion m.past = some time →
          now - ttl < time)
  /-- No call starts within the time to live after a completion before it. -/
  spaced : ∀ t ∈ c.threads, ∀ next, t.rest = .call (.inr .startFactory) next →
    ∀ m ∈ c.threads, ∀ time, completion m.past = some time → time + ttl ≤ c.shared.now
  /-- A caller whose call has failed writes nothing, and while it is behind the gate the fields are
  what they were when that call was started. -/
  unchanged : ∀ t ∈ c.threads, ∀ call, Fails t.past call → Unwritten t.past ∧
    (¬ HasReleased t.past → c.shared.rest[call]? = some (c.shared.value, c.shared.expires))
  /-- It has left the gate, or can do so, and then the gate is free. -/
  leaves : ∀ before t after, c.threads = before ++ t :: after → ∀ call, Fails t.past call →
    HasReleased t.past ∨ ∃ next, t.rest = .call (.inl .release) next ∧
      (system T ttl).Step c ⟨{ c.shared with free := true },
        before ++ ⟨t.request, t.past ++ [⟨.inl .release, true⟩], next true⟩ :: after⟩
  /-- Whoever waits can enter a free gate. -/
  enters : c.shared.free = true → ∀ before t after, c.threads = before ++ t :: after →
    ∀ next, t.rest = .call (.inl .awaitGate) next →
      (system T ttl).Step c ⟨{ c.shared with free := false },
        before ++ ⟨t.request, t.past ++ [⟨.inl .awaitGate, true⟩], next true⟩ :: after⟩

/-- A call that a caller is about to make is a step of the system. -/
theorem step_of_effect {before after : List (Caller T)} {op : (Cache T).Op}
    {next : (Cache T).Ret op → Prog (Cache T) Unit} {answer : (Cache T).Ret op}
    (hthreads : c.threads = before ++ t :: after) (hrest : t.rest = .call op next)
    (heffect : effect worked c.shared ⟨op, answer⟩ s') :
    (system T ttl).Step c
      ⟨s', before ++ ⟨t.request, t.past ++ [⟨op, answer⟩], next answer⟩ :: after⟩ := by
  obtain ⟨shared, threads⟩ := c
  obtain ⟨request, past, rest⟩ := t
  obtain rfl : threads = before ++ ⟨request, past, rest⟩ :: after := hthreads
  obtain rfl : rest = .call op next := hrest
  exact .call answer heffect

/-- There is but one caller whose call has the number of a value. -/
theorem completion_eq_of_produces (httl : 0 < ttl) (h : (system T ttl).Reachable c)
    {m m' : Caller T} (hm : m ∈ c.threads) (hm' : m' ∈ c.threads) {value : Produced T}
    (hproduces : Produces m.past value) (hproduces' : Produces m'.past value) :
    completion m.past = completion m'.past := by
  have hknows := knows_of_reachable (obeys httl) h
  have hcall := callOf_of_produces (hknows m hm) (ne_broken (obeys httl) h hm) hproduces
  have hcall' := callOf_of_produces (hknows m' hm') (ne_broken (obeys httl) h hm') hproduces'
  have hsame : phaseOf (renewal T ttl) m = phaseOf (renewal T ttl) m' := by
    by_contra hdiffer
    exact (sound_of_reachable httl h).numbered.apart.forall (List.mem_map_of_mem hm)
      (List.mem_map_of_mem hm') hdiffer _ hcall hcall'
  rw [completion, completion, firstReading_eq (obeys httl) h hm, hsame,
    ← firstReading_eq (obeys httl) h hm']

/-- Whose call has failed has left the gate, or can do so. -/
theorem leaves_of_fails (httl : 0 < ttl) (h : (system T ttl).Reachable c)
    {before after : List (Caller T)} {call : ℕ} (hthreads : c.threads = before ++ t :: after)
    (hfails : Fails t.past call) :
    HasReleased t.past ∨ ∃ next, t.rest = .call (.inl .release) next ∧
      (system T ttl).Step c ⟨{ c.shared with free := true },
        before ++ ⟨t.request, t.past ++ [⟨.inl .release, true⟩], next true⟩ :: after⟩ := by
  have ht : t ∈ c.threads := hthreads ▸ List.mem_append_right _ (List.mem_cons_self ..)
  rcases (phase_of_fails (knows_of_reachable (obeys httl) h t ht)
    (ne_broken (obeys httl) h ht) hfails).2 with hphase | hreleased
  · have hfollows := System.follows_of_reachable (obeys httl).follows h t ht
    have hinv := (sound_of_reachable httl h).fields
    rw [phases, hthreads, List.map_append, List.map_cons] at hinv
    rw [show t.phase _ _ = _ from hphase] at hfollows
    obtain ⟨next, hrest⟩ := exists_release hfollows
    refine .inr ⟨next, hrest, step_of_effect hthreads hrest ⟨(hinv.busy ?_).1, rfl⟩⟩
    rw [hphase]
    rfl
  · exact .inl hreleased

/-- **One call at a time, fresh values, and no trace of failures**, however the callers interleave
and however their calls end. -/
theorem cached_of_reachable (httl : 0 < ttl) (h : (system T ttl).Reachable c) : Cached ttl c := by
  have hsound := sound_of_reachable httl h
  have hknows := knows_of_reachable (obeys httl) h
  have hne : ∀ t ∈ c.threads, phaseOf (renewal T ttl) t ≠ .broken := fun t ht =>
    ne_broken (obeys httl) h ht
  refine ⟨?_, fun t ht read hruns => ?_, fun t ht next hrest m hm time htime => ?_,
    fun t ht call hfails => ?_,
    fun _ _ _ hthreads _ hfails => leaves_of_fails httl h hthreads hfails,
    fun hfree before t after hthreads next hrest => step_of_effect hthreads hrest ⟨hfree, rfl⟩⟩
  · have hle := countP_flatMap_le fun t ht => starts_le (hknows t ht) (hne t ht)
    have hgate := countP_le_one (obeys httl) h
      (p := fun t => (phaseOf (renewal T ttl) t).holdsGate) fun t ht hholds => hholds
    omega
  · rcases returned_of_runs (obeys httl) follows_getAsync h ht hruns with
      ⟨value, hread, hown | ⟨-, now, hnow, m, hm, hwrote, hbefore⟩⟩ | ⟨⟨ex, hread⟩, -⟩
    · exact ⟨value, Except.ok.inj hread, .inl (produces_of_wrote hown)⟩
    · have hproduces := produces_of_wrote hwrote
      refine ⟨value, Except.ok.inj hread, .inr ⟨now, hnow, ⟨m, hm, hproduces⟩, ?_⟩⟩
      intro m' hm' time hproduces' htime
      have hlt := hbefore time
        ((completion_eq_of_produces httl h hm hm' hproduces hproduces').trans htime)
      exact sub_lt_iff_lt_add.mpr hlt
    · exact nomatch hread
  · obtain ⟨value, -, hle⟩ := expired_of_reachable (obeys httl) h ht hrest hm htime
    exact hle
  · obtain ⟨hunwritten, hphase⟩ := phase_of_fails (hknows t ht) (hne t ht) hfails
    refine ⟨hunwritten, fun hinside => hsound.numbered.atStart _ (List.mem_map_of_mem ht) call ?_⟩
    rw [hphase.resolve_right hinside]
    rfl

/-- One caller has its own value, and another one has found it fresh. -/
theorem cached_of_two_callers :
    ∃ c : State ℕ, (∃ t ∈ c.threads, Produces t.past ⟨0, 42⟩ ∧ completion t.past = some 5) ∧
      (∃ t ∈ c.threads, Task.Runs (getAsync 10) t.past (.ok (some ⟨0, 42⟩)) ∧
        lastReading t.past = some 7) ∧ Cached 10 c := by
  let value : Produced ℕ := ⟨0, 42⟩
  let program := (system ℕ 10).program ()
  let fst : List (Event (Cache ℕ)) :=
    [⟨.inl .readValue, (none : Option (Produced ℕ))⟩, ⟨.inl .awaitGate, true⟩,
      ⟨.inl .readValue, (none : Option (Produced ℕ))⟩, ⟨.inr .startFactory, (0 : ℕ)⟩,
      ⟨.inr (.awaitFactory 0), Except.ok value⟩, ⟨.inl (.writeValue value), ()⟩,
      ⟨.inl .getUtcNow, (5 : ℤ)⟩, ⟨.inl (.writeExpires 15), ()⟩,
      ⟨.inl .readValue, some value⟩, ⟨.inl .release, true⟩]
  let snd : List (Event (Cache ℕ)) :=
    [⟨.inl .readValue, some value⟩, ⟨.inl .getUtcNow, (7 : ℤ)⟩, ⟨.inl .readExpires, (15 : ℤ)⟩,
      ⟨.inl .readValue, some value⟩]
  have hfst : program.Steps fst (.done ()) :=
    .call _ (.call _ (.call _ (.call _ (.call _ (.call _ (.call _ (.call _ (.call _
      (.call _ (.refl _))))))))))
  have hsnd : program.Steps snd (.done ()) := .call _ (.call _ (.call _ (.call _ (.refl _))))
  have hruns : Task.Runs (getAsync 10) snd (.ok (some value)) :=
    .call _ (.call _ (.call _ (.call _ (.done _))))
  let filled : Shared (Produced ℕ) (Starts ℕ) :=
    { value := some value, expires := 15, now := 5, rest := [(none, 0)] }
  have heffects₁ : (system ℕ 10).Effects { rest := [] } fst filled :=
    .cons ⟨rfl, rfl⟩ (.cons ⟨rfl, rfl⟩ (.cons ⟨rfl, rfl⟩ (.cons ⟨_, ⟨rfl, rfl⟩, rfl⟩
      (.cons ⟨_, ⟨rfl, rfl⟩, rfl⟩ (.cons rfl (.cons ⟨by decide, rfl⟩ (.cons rfl
        (.cons ⟨rfl, rfl⟩ (.cons ⟨rfl, rfl⟩ (.nil _))))))))))
  have heffects₂ : (system ℕ 10).Effects filled snd { filled with now := 7 } :=
    .cons ⟨rfl, rfl⟩ (.cons ⟨by decide, rfl⟩ (.cons ⟨rfl, rfl⟩ (.cons ⟨rfl, rfl⟩ (.nil _))))
  have hspawned : (system ℕ 10).Reachable
      ⟨{ rest := [] }, [] ++ ⟨(), [], program⟩ :: [⟨(), [], program⟩]⟩ :=
    (Relation.ReflTransGen.refl.tail (.spawn _ ())).tail (.spawn _ ())
  have hfirst : (system ℕ 10).Reachable
      ⟨filled, [⟨(), [] ++ fst, .done ()⟩] ++ ⟨(), [], program⟩ :: []⟩ :=
    hspawned.steps hfst heffects₁
  refine ⟨_, ⟨_, List.mem_cons_self .., ⟨0, ?_⟩, rfl⟩, ⟨_, List.mem_cons_of_mem _
    (List.mem_cons_self ..), hruns, rfl⟩,
    cached_of_reachable (by decide) (hfirst.steps hsnd heffects₂)⟩
  exact List.mem_of_getElem? (show fst[4]? = _ from rfl)

end TtlCache

end LookingGlass
