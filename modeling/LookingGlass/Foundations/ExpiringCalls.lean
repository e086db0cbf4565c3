import LookingGlass.Foundations.Completion
import LookingGlass.Foundations.Expiring

/-!
# The calls around a value that expires

What is promised of a value that expires is said here by the calls that the callers have made, and
not by how far a proof takes them to be.

## Times

When a value is completed is nothing that the two fields say: the expiry is only a promise, and code
that wrote a wrong one would be held to it. So the time is taken from the caller that has renewed
the value. It is the first reading of the clock in the caller's own calls after a call of a given
kind, `firstReading`, and the expiry is compared with that. The kind is a parameter: the last call
of the work, or the call that writes the value.

## Work

What the work makes of its own calls is a parameter as well. `Made` says, of every state of the
work, which calls have led to it, and it is enough that every call that is allowed keeps it.

## Main definitions

* `Unwritten`, `Writes`, `works`, `lastReading`, `firstReading` — functions of the calls
* `Phase.Knows`, `Phase.Times` — what a phase says about them
* `Obeys` — what is needed of the code

## Main results

* `inv_of_reachable`, `knows_of_reachable` — the fields, and the calls of every caller
* `expired_of_reachable` — who renews the value does so after every expiry
* `returned_of_runs` — what a caller returns is its own, or has not expired
* `exists_continues` — nobody is stuck, if the work never is
-/

namespace Interaction

namespace Expiring

variable {V : Type} {J : Interface} {H G ε α ι : Type} {R : Renewal V J H}
  {returns : Option V → Except ε α} {s s' : Shared V G} {phase : Phase V H}
  {worked : Shared V G → Event J → G → Prop}

/-! ### What is read off the calls of a caller

These are functions of a list of calls and know nothing of phases. They are what statements about a
run are made of. -/

/-- Neither field has been written. It is read off the calls, so it says nothing about what others
have written. -/
def Unwritten (past : List (Event (Calls V J))) : Prop := ∀ e ∈ past, isWrite e = false

/-- The value has been written. -/
def Writes (past : List (Event (Calls V J))) (value : V) : Prop :=
  (⟨.inl (.writeValue value), ()⟩ : Event (Calls V J)) ∈ past

/-- The calls of the work. -/
def works (past : List (Event (Calls V J))) : List (Event J) := past.filterMap Event.right?

/-- What the clock showed, if it was read. -/
def reading : Event (Calls V J) → Option ℤ
  | ⟨.inl .getUtcNow, now⟩ => some now
  | _ => none

/-- What the clock showed when it was read last. -/
def lastReading (past : List (Event (Calls V J))) : Option ℤ :=
  past.foldl (fun last e => (reading e).or last) none

/-- Whether a call of the kind has been made, and what the clock showed after it. -/
def noteFirst (kind : Event (Calls V J) → Bool) (first : Option (Option ℤ))
    (e : Event (Calls V J)) : Option (Option ℤ) :=
  if kind e then some none else first.map fun noted => noted.or (reading e)

/-- What the clock showed when it was first read after the last call of the kind. -/
def firstReading (kind : Event (Calls V J) → Bool) (past : List (Event (Calls V J))) : Option ℤ :=
  (past.foldl (noteFirst kind) none).join

/-! ### What the phases say about the calls

`Knows` is kept by every call that is allowed. It says in particular that a caller writes at most
one value, the one that its own work has come to, and that whoever does none of the work writes
nothing. -/

section

variable {past : List (Event (Calls V J))} {e : Event (Calls V J)}

theorem unwritten_append (h : Unwritten past) (he : isWrite e = false) :
    Unwritten (past ++ [e]) :=
  List.forall_mem_append.mpr ⟨h, List.forall_mem_singleton.mpr he⟩

theorem works_append_left (op : FieldOp V) (answer : FieldOp.Ret op) :
    works (past ++ [⟨.inl op, answer⟩]) = works (J := J) past := by
  rw [works, List.filterMap_append]
  exact List.append_nil _

theorem works_append_right (op : J.Op) (answer : J.Ret op) :
    works (V := V) (past ++ [⟨.inr op, answer⟩]) = works past ++ [⟨op, answer⟩] := by
  rw [works, List.filterMap_append]
  rfl

theorem mem_works {op : J.Op} {answer : J.Ret op} :
    (⟨op, answer⟩ : Event J) ∈ works past ↔ (⟨.inr op, answer⟩ : Event (Calls V J)) ∈ past := by
  constructor
  · intro h
    obtain ⟨⟨op', answer'⟩, he, hright⟩ := List.mem_filterMap.mp h
    cases op' with
    | inl op' => exact nomatch hright
    | inr op' =>
      obtain ⟨rfl, hanswer⟩ := Event.mk.inj (Option.some.inj hright)
      exact eq_of_heq hanswer ▸ he
  · intro h
    exact List.mem_filterMap.mpr ⟨_, h, rfl⟩

/-- Calls of the work are counted among those of the work. -/
theorem countP_works {p : Event (Calls V J) → Bool}
    (hp : ∀ op answer, p ⟨.inl op, answer⟩ = false) :
    past.countP p = (works past).countP fun e => p e.right := by
  induction past with
  | nil => rfl
  | cons e past ih =>
    obtain ⟨op, answer⟩ := e
    cases op with
    | inl op =>
      rw [List.countP_cons_of_neg (hp op answer ▸ Bool.false_ne_true), ih]
      rfl
    | inr op =>
      have hworks : works (⟨.inr op, answer⟩ :: past) = (⟨op, answer⟩ : Event J) :: works past :=
        rfl
      rw [List.countP_cons, ih, hworks, List.countP_cons]
      rfl

theorem lastReading_append : lastReading (past ++ [e]) = (reading e).or (lastReading past) := by
  rw [lastReading, List.foldl_append]
  rfl

theorem Unwritten.not_writes (h : Unwritten past) (value : V) : ¬ Writes past value :=
  fun hmem => nomatch h _ hmem

variable {Made : H → List (Event J) → Prop}

/-- A caller that has written no field and done none of the work. It has looked at the fields, and
waited at most. -/
def Idle (past : List (Event (Calls V J))) : Prop := Unwritten past ∧ works past = []

/-- A caller that has written the value that its work has come to, and no other. What its calls of
the work say about that is known by `Made`. -/
def Wrote (R : Renewal V J H) (Made : H → List (Event J) → Prop) (value : V)
    (past : List (Event (Calls V J))) : Prop :=
  (∀ other, Writes past other ↔ other = value) ∧ ∃ h, R.Yields h value ∧ Made h (works past)

/-- A caller that has failed: it was not let through the gate, or has left it after its work had
come to nothing. In neither case has it written anything, and the gate is not left held. -/
def GaveUp (R : Renewal V J H) (Made : H → List (Event J) → Prop)
    (past : List (Event (Calls V J))) : Prop :=
  Unwritten past ∧
    (works past = [] ∧ (⟨.inl .awaitGate, false⟩ : Event (Calls V J)) ∈ past ∨
      (∃ h, R.Fails h ∧ Made h (works past)) ∧
        (⟨.inl .release, true⟩ : Event (Calls V J)) ∈ past)

def Outcome.Knows (R : Renewal V J H) (Made : H → List (Event J) → Prop) :
    Outcome V → List (Event (Calls V J)) → Prop
  | own value _ _, past => Wrote R Made value past
  | cached now _, past => Idle past ∧ lastReading past = some now
  | failed, past => GaveUp R Made past

/-- What a phase says about the calls before it, if `Made` is what the work says about its own. -/
def Phase.Knows (R : Renewal V J H) (Made : H → List (Event J) → Prop) :
    Phase V H → List (Event (Calls V J)) → Prop
  | looking _ look, past => Idle past ∧ ∀ now, look.reading = some now → lastReading past = some now
  | waiting, past => Idle past
  | working h, past => Unwritten past ∧ Made h (works past)
  | written value, past | stamped value _, past | stored value _, past => Wrote R Made value past
  | releasing outcome, past => outcome ≠ .failed ∧ outcome.Knows R Made past
  | left outcome, past => outcome.Knows R Made past
  | broken, _ => True

theorem Idle.append (h : Idle past) (op : FieldOp V) (answer : FieldOp.Ret op)
    (he : isWrite (J := J) ⟨.inl op, answer⟩ = false) : Idle (past ++ [⟨.inl op, answer⟩]) :=
  ⟨unwritten_append h.1 he, (works_append_left op answer).trans h.2⟩

theorem writes_append {value : V} : Writes (past ++ [e]) value ↔
    Writes past value ∨ e = ⟨.inl (.writeValue value), ()⟩ :=
  List.mem_append.trans (or_congr_right (List.mem_singleton.trans eq_comm))

theorem Wrote.append {value : V} (h : Wrote R Made value past) {op : FieldOp V}
    (answer : FieldOp.Ret op) (hop : ∀ other, op ≠ .writeValue other) :
    Wrote R Made value (past ++ [⟨.inl op, answer⟩]) := by
  obtain ⟨hwrites, h₀, hyields, hmade⟩ := h
  refine ⟨fun other => ?_, h₀, hyields, ?_⟩
  · rw [writes_append, hwrites]
    refine or_iff_left fun he => hop other ?_
    exact Sum.inl.inj (congrArg Event.op he)
  · rwa [works_append_left]

/-- The value that the work has come to is written. -/
theorem wrote_of_unwritten {value : V} {h₀ : H} (hunwritten : Unwritten past)
    (hyields : R.Yields h₀ value) (hmade : Made h₀ (works past)) :
    Wrote R Made value (past ++ [⟨.inl (.writeValue value), ()⟩]) := by
  refine ⟨fun other => ?_, h₀, hyields, ?_⟩
  · rw [writes_append, or_iff_right (hunwritten.not_writes other)]
    constructor
    · intro he
      exact (FieldOp.writeValue.inj (Sum.inl.inj (congrArg Event.op he))).symm
    · rintro rfl
      rfl
  · rwa [works_append_left]

theorem knows_look {inside : Bool} {look : Look} {op : (Calls V J).Op}
    {answer : (Calls V J).Ret op} (hstart : Made R.start [])
    (hop : (Phase.looking inside look).isAllowed R op)
    (h : (Phase.looking inside look).Knows R Made past) :
    ((Phase.looking inside look).next R ⟨op, answer⟩).Knows R Made (past ++ [⟨op, answer⟩]) := by
  obtain ⟨hidle, hreading⟩ := h
  have hafter : ∀ {past : List (Event (Calls V J))}, Idle past →
      (Phase.afterLook R.start inside).Knows R Made past := by
    intro past hidle
    cases inside with
    | true => exact ⟨hidle.1, hidle.2.symm ▸ hstart⟩
    | false => exact hidle
  cases look with
  | begun =>
    obtain rfl : op = .inl .readValue := hop
    have hidle' := hidle.append .readValue answer rfl
    cases answer with
    | none => exact hafter hidle'
    | some value => exact ⟨hidle', nofun⟩
  | nonNull =>
    obtain rfl : op = .inl .getUtcNow := hop
    refine ⟨hidle.append .getUtcNow answer rfl, fun now hnow => ?_⟩
    rw [lastReading_append]
    exact hnow
  | timed now =>
    obtain rfl : op = .inl .readExpires := hop
    have hidle' := hidle.append .readExpires answer rfl
    show Phase.Knows R Made (if now < answer then _ else _) _
    split
    · refine ⟨hidle', fun now' hnow => ?_⟩
      rw [lastReading_append]
      exact hreading now' hnow
    · exact hafter hidle'
  | passed now =>
    obtain rfl : op = .inl .readValue := hop
    have hknows : (Outcome.cached now answer).Knows R Made (past ++ [⟨.inl .readValue, answer⟩]) :=
      ⟨hidle.append .readValue answer rfl, lastReading_append.trans (hreading now rfl)⟩
    cases inside with
    | true => exact ⟨nofun, hknows⟩
    | false => exact hknows

/-- What is written is what the work has come to. -/
theorem yields_of_isAllowed {h : H} {value : V}
    (hop : (Phase.working h).isAllowed R (.inl (.writeValue value))) : R.Yields h value := by
  rcases hop with ⟨value', heq, hyields⟩ | ⟨hfalse, -⟩
  · exact FieldOp.writeValue.inj heq ▸ hyields
  · exact nomatch hfalse

/-- The gate is left without a value if the work has come to nothing. -/
theorem fails_of_isAllowed {h : H}
    (hop : (Phase.working h : Phase V H).isAllowed R (.inl .release)) : R.Fails h := by
  rcases hop with ⟨value, hfalse, -⟩ | ⟨-, hfails⟩
  · exact nomatch hfalse
  · exact hfails

theorem knows_working {h₀ : H} {op : (Calls V J).Op} {answer : (Calls V J).Ret op}
    (hwork : ∀ h es e, R.protocol.allowed h e.op → Made h es →
      Made (R.protocol.next h e) (es ++ [e]))
    (hop : (Phase.working h₀).isAllowed R op) (h : (Phase.working h₀).Knows R Made past) :
    ((Phase.working h₀).next R ⟨op, answer⟩).Knows R Made (past ++ [⟨op, answer⟩]) := by
  match op, answer, hop with
  | .inr op, answer, hop =>
    refine ⟨unwritten_append h.1 rfl, ?_⟩
    rw [works_append_right]
    exact hwork h₀ _ ⟨op, answer⟩ hop h.2
  | .inl (.writeValue value), (), hop => exact wrote_of_unwritten h.1 (yields_of_isAllowed hop) h.2
  | .inl .release, true, hop =>
    refine ⟨unwritten_append h.1 rfl, .inr ⟨⟨h₀, fails_of_isAllowed hop, ?_⟩, ?_⟩⟩
    · rw [works_append_left]
      exact h.2
    · exact List.mem_append_right _ (List.mem_singleton_self _)
  | .inl .release, false, _ => trivial

theorem knows_next (hstart : Made R.start [])
    (hwork : ∀ h es e, R.protocol.allowed h e.op → Made h es →
      Made (R.protocol.next h e) (es ++ [e]))
    (hop : phase.isAllowed R e.op) (h : phase.Knows R Made past) :
    (phase.next R e).Knows R Made (past ++ [e]) := by
  obtain ⟨op, answer⟩ := e
  cases phase with
  | looking inside look => exact knows_look hstart hop h
  | waiting =>
    obtain rfl : op = .inl .awaitGate := hop
    cases answer with
    | true => exact ⟨Idle.append h .awaitGate true rfl, nofun⟩
    | false =>
      have hidle := Idle.append h .awaitGate false rfl
      exact ⟨hidle.1, .inl ⟨hidle.2, List.mem_append_right _ (List.mem_singleton_self _)⟩⟩
  | working h₀ => exact knows_working hwork hop h
  | written value =>
    rcases hop with rfl | rfl
    · rcases next_written R value answer with ⟨-, hnext⟩ | ⟨-, hnext⟩ <;> rw [hnext]
      · exact Wrote.append h _ nofun
      · trivial
    · exact Wrote.append h _ nofun
  | stamped value time =>
    obtain rfl : op = .inl (.writeExpires (time + R.timeToLive value)) := hop
    exact Wrote.append h _ nofun
  | stored value time =>
    obtain rfl : op = .inl .readValue := hop
    exact ⟨nofun, Wrote.append h _ nofun⟩
  | releasing outcome =>
    obtain rfl : op = .inl .release := hop
    cases answer with
    | false => trivial
    | true =>
      obtain ⟨hne, hknows⟩ := h
      cases outcome with
      | own value time read => exact Wrote.append hknows _ nofun
      | cached now read =>
        exact ⟨hknows.1.append .release true rfl, lastReading_append.trans hknows.2⟩
      | failed => exact absurd rfl hne
  | left outcome => exact absurd hop id
  | broken => trivial

/-- Where the work stands: it goes on behind the gate, has not begun, or has come to an end. -/
theorem works_of_knows (h : phase.Knows R Made past) (hne : phase ≠ .broken) :
    (∃ h, phase = .working h ∧ Made h (works past)) ∨ works past = [] ∨
      ∃ h, ((∃ value, R.Yields h value) ∨ R.Fails h) ∧ Made h (works past) := by
  have hwrote : ∀ {value : V}, Wrote R Made value past →
      ∃ h, ((∃ value, R.Yields h value) ∨ R.Fails h) ∧ Made h (works past) := by
    rintro value ⟨-, h₀, hyields, hmade⟩
    exact ⟨h₀, .inl ⟨value, hyields⟩, hmade⟩
  match phase, h with
  | .looking _ _, h => exact .inr (.inl h.1.2)
  | .waiting, h => exact .inr (.inl h.2)
  | .working h₀, h => exact .inl ⟨h₀, rfl, h.2⟩
  | .written _, h | .stamped _ _, h | .stored _ _, h | .left (.own _ _ _), h =>
    exact .inr (.inr (hwrote h))
  | .releasing (.own _ _ _), h => exact .inr (.inr (hwrote h.2))
  | .releasing (.cached _ _), h => exact .inr (.inl h.2.1.2)
  | .left (.cached _ _), h => exact .inr (.inl h.1.2)
  | .releasing .failed, h => exact absurd rfl h.1
  | .left .failed, h =>
    rcases h.2 with ⟨hnone, -⟩ | ⟨⟨h₀, hfails, hmade⟩, -⟩
    · exact .inr (.inl hnone)
    · exact .inr (.inr ⟨h₀, .inr hfails, hmade⟩)
  | .broken, _ => exact absurd rfl hne

/-! ### Times

The automaton `noteFirst` runs over all calls of a caller. It forgets a reading when another call of
the kind is made, so what it has in the end belongs to the last of them. -/

/-- What a phase says about the first reading of the clock after a call of the kind. In the work,
there may have been such a call already. -/
def Phase.Times (begun : H → Bool) : Phase V H → Option (Option ℤ) → Prop
  | looking _ _, first | waiting, first => first = none
  | working h, first => first = if begun h then some none else none
  | written _, first => first = some none
  | stamped _ time, first | stored _ time, first => first = some (some time)
  | releasing (.own _ time _), first | left (.own _ time _), first => first = some (some time)
  | releasing (.cached _ _), first | left (.cached _ _), first => first = none
  | releasing .failed, first | left .failed, first => first.join = none
  | broken, _ => True

/-- A kind of calls by which the completion of a value is told: the last call of the work, or that
which writes the value. -/
structure Completes (R : Renewal V J H) (kind : Event (Calls V J) → Bool) (begun : H → Bool) :
    Prop where
  fields : ∀ op answer, (∀ value, op ≠ .writeValue value) → kind ⟨.inl op, answer⟩ = false
  start : begun R.start = false
  work : ∀ h e, R.protocol.allowed h e.op →
    begun (R.protocol.next h e) = (begun h || kind ⟨.inr e.op, e.answer⟩)
  yields : ∀ h value, R.Yields h value →
    begun h = true ∨ kind ⟨.inl (.writeValue value), ()⟩ = true

variable {kind : Event (Calls V J) → Bool} {begun : H → Bool} {first : Option (Option ℤ)}

/-- Only readings of the clock matter, where no call is of the kind. -/
theorem noteFirst_of_not_kind {e : Event (Calls V J)} (hkind : kind e = false)
    (hreading : reading e = none) : noteFirst kind first e = first := by
  rw [noteFirst, hkind, if_neg Bool.false_ne_true, hreading]
  simp only [Option.or_none]
  exact Option.map_id'

theorem noteFirst_getUtcNow (hkind : Completes R kind begun) (now : ℤ) :
    noteFirst kind first ⟨.inl .getUtcNow, now⟩ =
      first.map fun noted => noted.or (some now) := by
  rw [noteFirst, hkind.fields .getUtcNow now nofun, if_neg Bool.false_ne_true]
  rfl

theorem times_look {inside : Bool} {look : Look} {op : (Calls V J).Op}
    {answer : (Calls V J).Ret op} (hkind : Completes R kind begun)
    (hop : (Phase.looking inside look).isAllowed R op) :
    ((Phase.looking inside look).next R ⟨op, answer⟩).Times begun
      (noteFirst kind none ⟨op, answer⟩) := by
  have hafter : (Phase.afterLook R.start inside : Phase V H).Times begun none := by
    cases inside with
    | true => exact (if_neg (hkind.start.symm ▸ Bool.false_ne_true)).symm
    | false => rfl
  have hnone : ∀ op answer, (∀ value : V, op ≠ .writeValue value) →
      noteFirst (J := J) kind none ⟨.inl op, answer⟩ = none := by
    intro op answer hop
    rw [noteFirst, hkind.fields op answer hop, if_neg Bool.false_ne_true]
    rfl
  cases look with
  | begun =>
    obtain rfl : op = .inl .readValue := hop
    rw [hnone .readValue answer nofun]
    cases answer with
    | none => exact hafter
    | some value => rfl
  | nonNull =>
    obtain rfl : op = .inl .getUtcNow := hop
    exact hnone .getUtcNow answer nofun
  | timed now =>
    obtain rfl : op = .inl .readExpires := hop
    rw [hnone .readExpires answer nofun]
    show Phase.Times begun (if now < answer then _ else _) none
    split
    · rfl
    · exact hafter
  | passed now =>
    obtain rfl : op = .inl .readValue := hop
    rw [hnone .readValue answer nofun]
    cases inside <;> rfl

/-- A call that neither writes a value nor reads the clock leaves the note as it is. -/
theorem noteFirst_of_quiet (hkind : Completes R kind begun) (first : Option (Option ℤ))
    (op : FieldOp V) (answer : FieldOp.Ret op) (hwrite : ∀ value, op ≠ .writeValue value)
    (hclock : op ≠ .getUtcNow) : noteFirst (J := J) kind first ⟨.inl op, answer⟩ = first := by
  refine noteFirst_of_not_kind (hkind.fields op answer hwrite) ?_
  cases op with
  | getUtcNow => exact absurd rfl hclock
  | _ => rfl

theorem times_working {h₀ : H} {op : (Calls V J).Op} {answer : (Calls V J).Ret op}
    (hkind : Completes R kind begun) (hop : (Phase.working h₀).isAllowed R op) :
    ((Phase.working h₀).next R ⟨op, answer⟩).Times begun
      (noteFirst kind (if begun h₀ then some none else none) ⟨op, answer⟩) := by
  match op, answer, hop with
  | .inr op, answer, hop =>
    have hbegun := hkind.work h₀ ⟨op, answer⟩ hop
    show noteFirst kind _ _ = if begun (R.protocol.next h₀ ⟨op, answer⟩) then some none else none
    rw [hbegun]
    cases hcall : kind ⟨.inr op, answer⟩ with
    | true => rw [noteFirst, if_pos hcall, Bool.or_true, if_pos rfl]
    | false => rw [noteFirst_of_not_kind hcall rfl, Bool.or_false]
  | .inl (.writeValue value), (), hop =>
    show noteFirst kind _ _ = some none
    cases hcall : kind ⟨.inl (.writeValue value), ()⟩ with
    | true => rw [noteFirst, if_pos hcall]
    | false =>
      have hbegun : begun h₀ = true :=
        (hkind.yields h₀ value (yields_of_isAllowed hop)).resolve_right
          (hcall.symm ▸ Bool.false_ne_true)
      rw [noteFirst_of_not_kind hcall rfl, if_pos hbegun]
  | .inl .release, true, _ =>
    show (noteFirst kind _ _).join = none
    rw [noteFirst_of_quiet hkind _ .release true nofun nofun]
    split <;> rfl
  | .inl .release, false, _ => trivial

theorem times_next (hkind : Completes R kind begun) (hop : phase.isAllowed R e.op)
    (h : phase.Times begun first) : (phase.next R e).Times begun (noteFirst kind first e) := by
  obtain ⟨op, answer⟩ := e
  have hkeep := noteFirst_of_quiet (J := J) hkind first
  cases phase with
  | looking inside look =>
    obtain rfl : first = none := h
    exact times_look hkind hop
  | waiting =>
    obtain rfl : first = none := h
    obtain rfl : op = .inl .awaitGate := hop
    rw [hkeep .awaitGate answer nofun nofun]
    cases answer <;> rfl
  | working h₀ =>
    obtain rfl : first = if begun h₀ then some none else none := h
    exact times_working hkind hop
  | written value =>
    obtain rfl : first = some none := h
    rcases hop with rfl | rfl
    · rw [hkeep .readValue answer nofun nofun]
      rcases next_written R value answer with ⟨-, hnext⟩ | ⟨-, hnext⟩ <;> rw [hnext]
      · rfl
      · trivial
    · exact noteFirst_getUtcNow hkind answer
  | stamped value time =>
    obtain rfl : op = .inl (.writeExpires (time + R.timeToLive value)) := hop
    exact (hkeep (.writeExpires _) answer nofun nofun).trans h
  | stored value time =>
    obtain rfl : op = .inl .readValue := hop
    exact (hkeep .readValue answer nofun nofun).trans h
  | releasing outcome =>
    obtain rfl : op = .inl .release := hop
    rw [hkeep .release answer nofun nofun]
    cases answer with
    | false => trivial
    | true => cases outcome <;> exact h
  | left outcome => exact absurd hop id
  | broken => trivial

theorem join_of_times (h : phase.Times begun first) (hne : phase ≠ .broken) :
    first.join = phase.completed.map Prod.snd := by
  match phase, h with
  | .looking _ _, h | .waiting, h | .written _, h | .stamped _ _, h | .stored _ _, h
  | .releasing (.own _ _ _), h | .left (.own _ _ _), h
  | .releasing (.cached _ _), h | .left (.cached _ _), h => exact congrArg Option.join h
  | .working h₀, h =>
    refine (congrArg Option.join h).trans ?_
    split <;> rfl
  | .releasing .failed, h | .left .failed, h => exact h
  | .broken, _ => exact absurd rfl hne

end

/-! ### Every interleaving

The invariants of the fields and of the calls, brought together: each caller in a reachable state is
in some phase, and that phase tells both what the fields are and what the caller has done. -/

section

variable {begin : G} {program : ι → Prog (Calls V J) Unit} {Made : H → List (Event J) → Prop}
  {kind : Event (Calls V J) → Bool} {begun : H → Bool} {g : Task (Calls V J) ε α}
  {c : Config (Calls V J) ι (Shared V G)} {t m : Thread (Calls V J) ι}

noncomputable abbrev phaseOf (R : Renewal V J H) (t : Thread (Calls V J) ι) : Phase V H :=
  t.phase (protocol R) fun _ => .looking false .begun

noncomputable def phases (R : Renewal V J H) (c : Config (Calls V J) ι (Shared V G)) :
    List (Phase V H) :=
  c.threads.map (phaseOf R)

/-- What is needed of the code: how its values are renewed, what the calls of the work say about how
far it has come, by which calls the completion of a value is told, and that whoever is done has left
the gate. -/
structure Obeys (R : Renewal V J H) (Made : H → List (Event J) → Prop)
    (kind : Event (Calls V J) → Bool) (begun : H → Bool) (program : ι → Prog (Calls V J) Unit) :
    Prop where
  timeToLive : ∀ value, 0 ≤ R.timeToLive value
  start : Made R.start []
  work : ∀ h es e, R.protocol.allowed h e.op → Made h es → Made (R.protocol.next h e) (es ++ [e])
  completes : Completes R kind begun
  leaves : ∀ i, (program i).Follows (protocol R) (fun phase _ => phase.holdsGate = false)
    (.looking false .begun)

theorem follows_of_finished
    (h : Task.Follows (protocol R) (Finished returns) g (.looking false .begun)) :
    (g.run >>= fun _ => pure ()).Follows (protocol R) (fun phase _ => phase.holdsGate = false)
      (.looking false .begun) := by
  refine Prog.follows_bind.mpr (Task.Follows.mono h fun phase r hfinished => ?_)
  rcases hfinished with rfl | ⟨outcome, rfl, -⟩
  · rfl
  · rfl

theorem Inv.spawn {phases : List (Phase V H)} (h : Inv R s phases) :
    Inv R s (phases ++ [.looking false .begun]) := by
  have hkepts : ∀ value time, Kept (phases ++ [.looking false .begun]) value time ↔
      Kept phases value time := by
    intro value time
    rw [kept_middle, List.append_nil]
    exact or_iff_right (nomatch ·)
  have hpendings : ∀ value, Pending (phases ++ [.looking false .begun]) value ↔
      Pending phases value := by
    intro value
    rw [pending_middle, List.append_nil]
    exact or_iff_right (nomatch ·)
  refine ⟨?_, ?_, ?_, ?_, h.empty⟩
  · rw [countP_middle, List.countP_nil]
    exact h.gate
  · refine List.forall_mem_append.mpr
      ⟨fun phase hphase => ?_, List.forall_mem_singleton.mpr trivial⟩
    refine (h.ok phase hphase).mono (fun now value => ?_) le_rfl le_rfl id fun _ => ⟨rfl, rfl⟩
    simp only [Fresh, hkepts, hpendings]
    exact id
  · simp only [hkepts]
    exact h.expiry
  · simp only [hkepts, hpendings]
    exact h.cached

theorem Obeys.follows (h : Obeys R Made kind begun program) (i : ι) :
    ((system begin worked program).program i).Follows (protocol R)
      (fun phase _ => phase.holdsGate = false) (.looking false .begun) :=
  h.leaves i

/-- **The run lemma for the fields.** -/
theorem inv_of_reachable (hcode : Obeys R Made kind begun program)
    (h : (system begin worked program).Reachable c) : Inv R c.shared (phases R c) :=
  System.invariant_of_reachable (P := protocol R) hcode.follows (Inv.start begin)
    (fun _ _ _ hinv => hinv.spawn)
    (fun _ _ _ _ _ _ _ hallowed heffect hinv => hinv.step hcode.timeToLive hallowed heffect) h

/-- **The run lemma for the calls.** -/
theorem knows_of_reachable (hcode : Obeys R Made kind begun program)
    (h : (system begin worked program).Reachable c) :
    ∀ t ∈ c.threads, (phaseOf R t).Knows R Made t.past :=
  System.records_of_reachable hcode.follows (fun _ => ⟨⟨nofun, rfl⟩, nofun⟩)
    (fun _ _ _ hallowed hknows => knows_next hcode.start hcode.work hallowed hknows) h

theorem ok_of_reachable (hcode : Obeys R Made kind begun program)
    (h : (system begin worked program).Reachable c) (ht : t ∈ c.threads) :
    (phaseOf R t).Ok R c.shared (phases R c) :=
  (inv_of_reachable hcode h).ok _ (List.mem_map_of_mem ht)

theorem ne_broken (hcode : Obeys R Made kind begun program)
    (h : (system begin worked program).Reachable c) (ht : t ∈ c.threads) :
    phaseOf R t ≠ .broken := by
  intro hbroken
  have hok := ok_of_reachable hcode h ht
  rwa [hbroken] at hok

/-- Whatever a caller has done of the work is what some state of it says. -/
theorem exists_made (hcode : Obeys R Made kind begun program)
    (h : (system begin worked program).Reachable c) (ht : t ∈ c.threads) :
    ∃ h, Made h (works t.past) := by
  rcases works_of_knows (knows_of_reachable hcode h t ht) (ne_broken hcode h ht) with
    ⟨h₀, -, hmade⟩ | hnone | ⟨h₀, -, hmade⟩
  · exact ⟨h₀, hmade⟩
  · exact ⟨R.start, hnone.symm ▸ hcode.start⟩
  · exact ⟨h₀, hmade⟩

/-- The first reading of the clock after a call of the kind is when the value was completed. -/
theorem firstReading_eq (hcode : Obeys R Made kind begun program)
    (h : (system begin worked program).Reachable c) (ht : t ∈ c.threads) :
    firstReading kind t.past = (phaseOf R t).completed.map Prod.snd := by
  have htimes : ∀ t ∈ c.threads,
      (phaseOf R t).Times begun (t.past.foldl (noteFirst kind) none) :=
    System.records_of_reachable (R := fun phase past =>
        Phase.Times begun phase (past.foldl (noteFirst kind) none)) hcode.follows
      (fun _ => rfl) (fun phase past e hallowed htimes => by
        rw [List.foldl_append]
        exact times_next hcode.completes hallowed htimes) h
  exact join_of_times (htimes t ht) (ne_broken hcode h ht)

theorem wrote_of_completed {value : V} {time : ℤ} {past : List (Event (Calls V J))}
    (h : phase.completed = some (value, time)) (hknows : phase.Knows R Made past) :
    Wrote R Made value past := by
  match phase, h, hknows with
  | .stamped _ _, h, hknows | .stored _ _, h, hknows =>
    obtain ⟨rfl, -⟩ := Prod.mk.inj (Option.some.inj h)
    exact hknows
  | .releasing (.own _ _ _), h, hknows =>
    obtain ⟨rfl, -⟩ := Prod.mk.inj (Option.some.inj h)
    exact hknows.2
  | .left (.own _ _ _), h, hknows =>
    obtain ⟨rfl, -⟩ := Prod.mk.inj (Option.some.inj h)
    exact hknows

theorem wrote_of_pending {value : V} {past : List (Event (Calls V J))}
    (h : phase.pending = some value) (hknows : phase.Knows R Made past) :
    Wrote R Made value past := by
  match phase, h, hknows with
  | .written _, h, hknows | .stamped _ _, h, hknows =>
    obtain rfl := Option.some.inj h
    exact hknows

theorem completed_of_kept {value : V} {time : ℤ} (h : phase.kept = some (value, time)) :
    phase.completed = some (value, time) := by
  match phase, h with
  | .stored _ _, h | .releasing (.own _ _ _), h | .left (.own _ _ _), h => exact h

/-- What is completed is kept already, or is stamped with the time and is about to be. -/
theorem kept_or_stamped {value : V} {time : ℤ} (h : phase.completed = some (value, time)) :
    phase.kept = some (value, time) ∨ phase = .stamped value time := by
  match phase, h with
  | .stored _ _, h | .releasing (.own _ _ _), h | .left (.own _ _ _), h => exact .inl h
  | .stamped _ _, h =>
    obtain ⟨rfl, rfl⟩ := Prod.mk.inj (Option.some.inj h)
    exact .inr rfl

/-! ### What can be said of any such code

From here on no theorem mentions how far a caller is, except through the calls that it is about to
make and the result that it has come to. -/

/-- **Behind the gate there is at most one caller.** -/
theorem countP_le_one (hcode : Obeys R Made kind begun program)
    (h : (system begin worked program).Reachable c) {p : Thread (Calls V J) ι → Bool}
    (hp : ∀ t ∈ c.threads, p t = true → (phaseOf R t).holdsGate = true) :
    c.threads.countP p ≤ 1 := by
  have hgate := (inv_of_reachable hcode h).gate
  rw [phases, List.countP_map] at hgate
  have hle := List.countP_mono_left hp
  simp only [Function.comp_def] at hgate
  omega

theorem working_of_isAllowed {op : J.Op} (h : phase.isAllowed R (.inr op)) (hne : phase ≠ .broken) :
    ∃ h, phase = .working h ∧ R.protocol.allowed h op := by
  cases phase with
  | working h₀ => exact ⟨h₀, rfl, h⟩
  | looking inside look => cases look <;> exact nomatch h
  | written value => rcases h with hop | hop <;> exact nomatch hop
  | left outcome => exact absurd h id
  | broken => exact absurd rfl hne
  | _ => exact nomatch h

/-- Whoever is about to do some of the work is behind the gate, and has found nothing fresh. -/
theorem exists_working (hcode : Obeys R Made kind begun program)
    (h : (system begin worked program).Reachable c) (ht : t ∈ c.threads) {op : J.Op}
    {next : J.Ret op → Prog (Calls V J) Unit} (hrest : t.rest = .call (.inr op) next) :
    ∃ h, phaseOf R t = .working h ∧ R.protocol.allowed h op := by
  have hfollows := System.follows_of_reachable hcode.follows h t ht
  rw [hrest] at hfollows
  exact working_of_isAllowed hfollows.1 (ne_broken hcode h ht)

/-- **Who works does so after every expiry**: whatever has been completed was completed the time to
live before. -/
theorem expired_of_reachable (hcode : Obeys R Made kind begun program)
    (h : (system begin worked program).Reachable c) (ht : t ∈ c.threads) {op : J.Op}
    {next : J.Ret op → Prog (Calls V J) Unit} (hrest : t.rest = .call (.inr op) next)
    (hm : m ∈ c.threads) {time : ℤ} (htime : firstReading kind m.past = some time) :
    ∃ value, Wrote R Made value m.past ∧ time + R.timeToLive value ≤ c.shared.now := by
  have hinv := inv_of_reachable hcode h
  rw [firstReading_eq hcode h hm] at htime
  obtain ⟨⟨value, _⟩, hcompleted, rfl⟩ := Option.map_eq_some_iff.mp htime
  refine ⟨value, wrote_of_completed hcompleted (knows_of_reachable hcode h m hm), ?_⟩
  obtain ⟨h₀, hworking, -⟩ := exists_working hcode h ht hrest
  have hexpired := ok_of_reachable hcode h ht
  rw [hworking] at hexpired
  rcases kept_or_stamped hcompleted with hkept | hstamped
  · exact (hinv.expiry value _ ⟨_, List.mem_map_of_mem hm, hkept⟩).trans hexpired
  · -- whoever has stamped a value is behind the gate as well
    obtain ⟨before, after, hthreads⟩ := List.append_of_mem ht
    have hpending : Pending (phases R c) value :=
      ⟨_, List.mem_map_of_mem hm, hstamped.symm ▸ rfl⟩
    rw [phases, hthreads, List.map_append, List.map_cons, hworking] at hinv hpending
    rcases pending_middle.mp hpending with hself | hother
    · exact nomatch hself
    · exact absurd hother (hinv.not_pending rfl value)

/-- A value that is stamped is stamped after the expiry that it has yet to replace. -/
theorem expires_le_of_pending {phases : List (Phase V H)} {value value' : V} {time : ℤ}
    (hok : phase.Ok R s phases) (hpending : phase.pending = some value)
    (hcompleted : phase.completed = some (value', time)) : s.expires ≤ time := by
  match phase, hok, hpending, hcompleted with
  | .stamped _ _, hok, _, hcompleted =>
    obtain ⟨-, rfl⟩ := Prod.mk.inj (Option.some.inj hcompleted)
    exact hok.2

/-- What is fresh in the fields comes from a caller that completed it, or is going to, after the
reading less the time to live. -/
theorem exists_of_fresh (hcode : Obeys R Made kind begun program)
    (h : (system begin worked program).Reachable c) {now : ℤ} {value : V}
    (hfresh : Fresh R c.shared (phases R c) now value) :
    ∃ m ∈ c.threads, Wrote R Made value m.past ∧
      ∀ time, firstReading kind m.past = some time → now < time + R.timeToLive value := by
  have hknows := knows_of_reachable hcode h
  rcases hfresh with ⟨time, ⟨phase, hphase, hkept⟩, hlt⟩ | ⟨⟨phase, hphase, hpending⟩, hlt⟩ <;>
    obtain ⟨m, hm, rfl⟩ := List.mem_map.mp hphase
  · have hcompleted := completed_of_kept hkept
    refine ⟨m, hm, wrote_of_completed hcompleted (hknows m hm), fun time' htime => ?_⟩
    rw [firstReading_eq hcode h hm, hcompleted] at htime
    exact Option.some.inj htime ▸ hlt
  · refine ⟨m, hm, wrote_of_pending hpending (hknows m hm), fun time htime => ?_⟩
    rw [firstReading_eq hcode h hm] at htime
    have hok := ok_of_reachable hcode h hm
    have httl := hcode.timeToLive value
    obtain ⟨⟨value', _⟩, hcompleted, rfl⟩ := Option.map_eq_some_iff.mp htime
    have hle := expires_le_of_pending hok hpending hcompleted
    show now < _
    omega

/-- **What a caller comes to**: a value that it has written itself, or one that it has found fresh
at its last reading of the clock without doing anything, or a failure that has changed nothing. -/
theorem returned_of_runs (hcode : Obeys R Made kind begun program)
    (hget : Task.Follows (protocol R) (Finished returns) g (.looking false .begun))
    (h : (system begin worked program).Reachable c) (ht : t ∈ c.threads) {r : Except ε α}
    (hruns : Task.Runs g t.past r) :
    (∃ value, r = returns (some value) ∧ (Wrote R Made value t.past ∨
      Idle t.past ∧ ∃ now, lastReading t.past = some now ∧
        ∃ m ∈ c.threads, Wrote R Made value m.past ∧
          ∀ time, firstReading kind m.past = some time → now < time + R.timeToLive value)) ∨
    (∃ ex, r = .error ex) ∧ GaveUp R Made t.past := by
  have hknows := knows_of_reachable hcode h t ht
  have hok := ok_of_reachable hcode h ht
  rcases (Prog.Follows.run hget hruns).1 with hbroken | ⟨outcome, hleft, hreturns⟩
  · exact absurd hbroken (ne_broken hcode h ht)
  · have hphase : phaseOf R t = .left outcome := hleft
    rw [hphase] at hknows hok
    cases outcome with
    | own value time read =>
      obtain rfl : read = some value := hok
      exact .inl ⟨value, hreturns, .inl hknows⟩
    | cached now read =>
      obtain ⟨value, rfl, hfresh⟩ := hok
      exact .inl ⟨value, hreturns, .inr ⟨hknows.1, now, hknows.2, exists_of_fresh hcode h hfresh⟩⟩
    | failed => exact .inr ⟨hreturns, hknows⟩

/-! ### Nobody is stuck

The only call that waits is the one for the gate. If everybody who is not done waits there, nobody
holds it, and then it is free. -/

theorem holdsGate_of_awaitGate (h : phase.isAllowed R (.inl .awaitGate)) :
    phase.holdsGate = false := by
  cases phase with
  | waiting | left outcome | broken => rfl
  | looking inside look => cases look <;> exact nomatch h
  | working h₀ => rcases h with ⟨value, hop, -⟩ | ⟨hop, -⟩ <;> exact nomatch hop
  | written value => rcases h with hop | hop <;> exact nomatch hop
  | _ => exact nomatch h

theorem holdsGate_of_release (h : phase.isAllowed R (.inl .release)) (hne : phase ≠ .broken) :
    phase.holdsGate = true := by
  cases phase with
  | working h₀ | written value | stamped value time | stored value time | releasing outcome => rfl
  | looking inside look => cases look <;> exact nomatch h
  | waiting => exact nomatch h
  | left outcome => exact absurd h id
  | broken => exact absurd rfl hne

/-- The gate is free if everybody who has something left to do waits for it. -/
theorem free_of_all_waiting (hcode : Obeys R Made kind begun program)
    (h : (system begin worked program).Reachable c)
    (hwaiting : ∀ t ∈ c.threads, ∀ op next, t.rest = .call op next → op = .inl .awaitGate) :
    c.shared.free = true := by
  have hgate := (inv_of_reachable hcode h).gate
  have hnone : (phases R c).countP Phase.holdsGate = 0 := by
    rw [List.countP_eq_zero]
    intro phase hphase
    obtain ⟨t, ht, rfl⟩ := List.mem_map.mp hphase
    have hfollows := System.follows_of_reachable hcode.follows h t ht
    rw [Bool.not_eq_true]
    cases hrest : t.rest with
    | done a =>
      rw [hrest] at hfollows
      exact hfollows
    | call op next =>
      obtain rfl := hwaiting t ht op next hrest
      rw [hrest] at hfollows
      exact holdsGate_of_awaitGate hfollows.1
  rw [hnone, Nat.zero_add] at hgate
  cases hfree : c.shared.free with
  | true => rfl
  | false => simp [hfree] at hgate

/-- Every call that concerns the fields can be made at any time, but the wait for the gate. -/
theorem exists_effect {op : FieldOp V} (hallowed : phase.isAllowed R (.inl op))
    (hne : phase ≠ .broken) (hop : op ≠ .awaitGate)
    (hbusy : phase.holdsGate = true → s.free = false) :
    ∃ answer s', effect worked s ⟨.inl op, answer⟩ s' := by
  cases op with
  | getUtcNow => exact ⟨s.now, s, le_rfl, rfl⟩
  | readValue => exact ⟨s.value, s, rfl, rfl⟩
  | readExpires => exact ⟨s.expires, s, rfl, rfl⟩
  | awaitGate => exact absurd rfl hop
  | writeValue value => exact ⟨(), _, rfl⟩
  | writeExpires expires => exact ⟨(), _, rfl⟩
  | release => exact ⟨true, _, hbusy (holdsGate_of_release hallowed hne), rfl⟩

/-- **Nobody is stuck** if the work never is: as long as somebody has something left to do, somebody
can go on, and with calls that are `ok` if the work can, and if it is ok to be let through the gate
and to use the fields. -/
theorem exists_continues {ok : Event (Calls V J) → Prop} (hcode : Obeys R Made kind begun program)
    (hworks : ∀ s h op, R.protocol.allowed h op →
      ∃ answer rest, worked s ⟨op, answer⟩ rest ∧ ok ⟨.inr op, answer⟩)
    (hfields : ∀ op answer, op ≠ .awaitGate → ok ⟨.inl op, answer⟩)
    (hgate : ok ⟨.inl .awaitGate, true⟩) (h : (system begin worked program).Reachable c)
    (hdone : ¬ c.Done) : ∃ c', (system begin worked program).Continues ok c c' := by
  refine System.exists_continues_of_waits (· = .inl .awaitGate)
    (fun t ht op next hrest hop => ?_) (fun hwaiting t ht op next hrest => ?_) hdone
  · have hfollows := System.follows_of_reachable hcode.follows h t ht
    rw [hrest] at hfollows
    have hne := ne_broken hcode h ht
    cases op with
    | inl op =>
      have hop : op ≠ .awaitGate := fun heq => hop (heq ▸ rfl)
      obtain ⟨before, after, hthreads⟩ := List.append_of_mem ht
      have hinv := inv_of_reachable hcode h
      rw [phases, hthreads, List.map_append, List.map_cons] at hinv
      obtain ⟨answer, s', heffect⟩ := exists_effect hfollows.1 hne hop fun hholds =>
        (hinv.busy hholds).1
      exact ⟨answer, s', heffect, hfields op answer hop⟩
    | inr op =>
      obtain ⟨h₀, -, hallowed⟩ := working_of_isAllowed hfollows.1 hne
      obtain ⟨answer, rest, hrest, hok⟩ := hworks c.shared h₀ op hallowed
      exact ⟨answer, _, ⟨rest, hrest, rfl⟩, hok⟩
  · obtain rfl : op = .inl .awaitGate := hwaiting t ht op next hrest
    exact ⟨true, _, ⟨free_of_all_waiting hcode h hwaiting, rfl⟩, hgate⟩

end

end Expiring

end Interaction
