import LookingGlass.Diagnostics.Environment
import LookingGlass.Diagnostics.ProcessRunner
import Mathlib.Logic.Relation

/-!
# The process of a tool

`RunAsync` waits for a tool that it has started. Meanwhile two tasks read what the tool writes, the
caller may cancel, and the callback of the cancellation token kills the tool; so does the task that
reads too much, and `RunAsync` itself before it ends. All of these take turns in any order.

The tool writes what it likes and exits when it likes. To kill it means to send it a signal that it
cannot ignore, after which it has yet to exit. That may fail, with an exception that is caught or
with one that is not.

What `RunAsync` returns rests on two loops that it shares variables with, so the state has the
variables of each: how far the loop is, which reads it has seen, and what its task has come to. The
list of reads is there for the statement alone. It ties what a task keeps to `readCappedAsync`, the
loop as one function of all its reads.

## What is deliberately absent

* The start of the process. The first state is that after `Start`, which may throw; then there is no
  process, and none of this happens.
* The time between `HasExited` and `Kill`. A whole `TryKill` is one step: the tool does not exit in
  the midst of it. A tool that did would make `Kill` throw the exception that is caught, which is
  what `Attempt.nothing` stands for.
* The arguments and the environment of the tool. They are another module's.
* The decoding of bytes. Text is what is left of the bytes after they are decoded.
* A tool that closes its streams before it exits, and a child of the tool that keeps them open after
  it. The streams end when the tool exits, no sooner and no later.

## Main definitions

* `ProcessRunner.State.act` — what each party does

## Main results

* `ProcessRunner.sound_of_reachable` — the invariant
* `ProcessRunner.ended_of_reachable` — what is known when `RunAsync` has ended
-/

namespace LookingGlass

open Utf16 Utf8

namespace ProcessRunner

/-! ### Reading, round by round

A round is one read. The loop as a function of all its reads is what the rounds add up to. -/

/-- The variables of the loop in `ReadCappedAsync`. The buffer is not among them, since a round
fills it before it looks at it. -/
structure Loop where
  builder : Str := []
  total : ℤ := 0
  deriving DecidableEq

/-- One round of the loop, which may be the last one. -/
def Loop.round (maxBytes : ℤ) (loop : Loop) : Read → Loop ⊕ Capped
  | .objectDisposed | .io => .inr ⟨loop.builder, false⟩
  | .chars buffer =>
    if buffer.length = 0 then .inr ⟨loop.builder, false⟩
    else
      let bytes : ℤ := byteCount buffer
      if wrap (loop.total + bytes) > maxBytes then
        let remaining := max 0 (wrap (maxBytes - loop.total))
        .inr ⟨loop.builder ++ buffer.take (min buffer.length remaining.toNat), true⟩
      else .inl ⟨loop.builder ++ buffer, wrap (loop.total + bytes)⟩

/-- The characters of a read. -/
def Read.text : Read → Str
  | chars buffer => buffer
  | _ => []

def readText (reads : List Read) : Str := reads.flatMap Read.text

theorem readLoop_cons (maxBytes : ℤ) (loop : Loop) (read : Read) (reads : List Read) :
    readLoop maxBytes loop.builder loop.total (read :: reads) =
      match loop.round maxBytes read with
      | .inl next => readLoop maxBytes next.builder next.total reads
      | .inr capped => capped := by
  cases read with
  | chars buffer =>
    rw [readLoop, Loop.round]
    split
    · rfl
    · dsimp only
      split <;> rfl
  | objectDisposed => rfl
  | io => rfl

/-- What a round keeps is what there was and the beginning of what was read; all of it unless the
cap was reached. -/
theorem round_cases (maxBytes : ℤ) (loop : Loop) (read : Read) :
    (∃ next, loop.round maxBytes read = .inl next ∧ next.builder = loop.builder ++ read.text ∧
        read.text ≠ []) ∨
      ∃ capped, loop.round maxBytes read = .inr capped ∧
        capped.text <+: loop.builder ++ read.text ∧
        (capped.limited = false → read.text = [] ∧ capped.text = loop.builder) := by
  cases read with
  | chars buffer =>
    rw [Loop.round]
    split
    · next hempty =>
      refine .inr ⟨_, rfl, List.prefix_append _ _, fun _ => ⟨?_, rfl⟩⟩
      exact List.length_eq_zero_iff.mp hempty
    · next hne =>
      dsimp only
      split
      · refine .inr ⟨_, rfl, ?_, fun h => absurd h (by simp)⟩
        exact (List.prefix_append_right_inj _).mpr (List.take_prefix _ _)
      · exact .inl ⟨_, rfl, rfl, fun h => hne (List.length_eq_zero_iff.mpr h)⟩
  | objectDisposed => exact .inr ⟨_, rfl, List.prefix_append _ _, fun _ => ⟨rfl, rfl⟩⟩
  | io => exact .inr ⟨_, rfl, List.prefix_append _ _, fun _ => ⟨rfl, rfl⟩⟩

/-! ### The tool

What the tool can do, and what can be done to it. -/

/-- What the operating system knows of the process, as far as `RunAsync` can find out, and what has
been done to it. -/
structure Tool where
  exitCode : Option ℤ := none
  /-- It has been sent a signal that it cannot ignore. -/
  signalled : Bool := false
  /-- An attempt to kill it has failed. -/
  spared : Bool := false
  deriving DecidableEq

/-- What comes of `TryKill`. Whether a tool can be killed is up to the operating system, so an
attempt may end in any of these ways as long as the tool is there. -/
inductive Attempt
  /-- The process has exited, or was disposed of: an `InvalidOperationException` is caught. -/
  | nothing
  | signalled
  /-- A `Win32Exception` is caught. -/
  | refused
  /-- Not the whole tree of processes was killed: an `AggregateException` is not caught. -/
  | incomplete
  deriving DecidableEq

/-- What `TryKill` throws. -/
def Attempt.thrown : Attempt → Except Exn Unit
  | incomplete => .error .other
  | _ => .ok ()

namespace Tool

def hasExited (tool : Tool) : Bool := tool.exitCode.isSome

/-- Whether `HasExited` makes no difference: who has exited stays so until `Kill`. -/
def permits (tool : Tool) (disposed : Bool) : Attempt → Bool
  | .nothing => tool.hasExited || disposed
  | _ => !tool.hasExited && !disposed

def kill (tool : Tool) : Attempt → Tool
  | .nothing => tool
  | .signalled => { tool with signalled := true }
  | .refused | .incomplete => { tool with spared := true }

end Tool

/-! ### The streams

A stream has what is written and not yet read, and a task that reads it. -/

/-- A stream of the tool, and the task that reads it. What was written and what is unread are texts;
a read takes a beginning of what is unread, as long as it may be. -/
structure Output where
  /-- Everything that the tool has written. -/
  written : Str := []
  unread : Str := []
  /-- What the reads have come to, and where the loop is after them. -/
  reads : List Read := []
  loop : Loop := {}
  /-- What the task has come to. -/
  result : Option (Except Exn Capped) := none

namespace Output

def write (output : Output) (text : Str) : Output :=
  { output with written := output.written ++ text, unread := output.unread ++ text }

/-- What the next read may come to: some characters, as many as the buffer holds at most; none when
there will not be any more; or an exception. -/
def mayRead (output : Output) (tool : Tool) : Read → Bool
  | .chars buffer =>
    output.result.isNone && buffer.isPrefixOf output.unread && decide (buffer.length ≤ 4096) &&
      (buffer != [] || output.unread == [] && tool.hasExited)
  | _ => output.result.isNone

/-- `onLimit` is invoked. -/
def reachesLimit (maxBytes : ℤ) (output : Output) (read : Read) : Bool :=
  match output.loop.round maxBytes read with
  | .inl _ => false
  | .inr capped => capped.limited

/-- The task after a read, where `onLimit` returns or throws this if it is invoked. -/
def receive (maxBytes : ℤ) (output : Output) (read : Read) (onLimit : Except Exn Unit) : Output :=
  let after : Output :=
    { output with
      unread := output.unread.drop read.text.length
      reads := output.reads ++ [read] }
  match output.loop.round maxBytes read with
  | .inl loop => { after with loop := loop }
  | .inr capped =>
    { after with
      result := some (if capped.limited then onLimit.map fun _ => capped else .ok capped) }

end Output

/-! ### All parties

One state for everything that `RunAsync` shares, and one action for each thing that somebody can do.
An action that is not possible has no next state. -/

/-- Where `RunAsync` is: before its next call, or after what it has come to. Between two of these
nothing happens that others could notice. -/
inductive Main
  /-- At `Register`. -/
  | registering
  /-- At `WaitForExitAsync`. -/
  | awaitingExit
  /-- At `WhenAll`. -/
  | awaitingOutput
  /-- At `catch`. -/
  | caught
  /-- At `finally`, with what the `try` came to. -/
  | finishing (outcome : Except Exn Unit)
  /-- With what it is going to return or throw: at the end of the scope of the registration, at
  that of the process, and after it. -/
  | unregistering (outcome : Except Exn ProcessResult)
  | disposing (outcome : Except Exn ProcessResult)
  | done (outcome : Except Exn ProcessResult)

structure State where
  tool : Tool := {}
  stdout : Output := {}
  stderr : Output := {}
  /-- The tasks that read have been started. -/
  reading : Bool := false
  truncated : Bool := false
  isCancellationRequested : Bool := false
  /-- The token has a callback that it has not invoked. -/
  registered : Bool := false
  disposed : Bool := false
  main : Main := .registering

inductive Action
  /-- The tool writes, or exits. -/
  | write (text : Str)
  | writeError (text : Str)
  | exit (exitCode : ℤ)
  | cancel
  | callback (attempt : Attempt)
  | read (read : Read) (attempt : Attempt)
  | readError (read : Read)
  | register (attempt : Attempt)
  /-- `WaitForExitAsync` returns, or throws. -/
  | exited
  | interrupted
  | gathered
  | rethrow (attempt : Attempt)
  | finish (attempt : Attempt)
  | unregister
  | dispose

def maxErrorBytes : ℤ := 8192

namespace State

/-- The whole of `TryKill`, `HasExited` and `Kill`, in one step. -/
def tryKill (s : State) (attempt : Attempt) : Option State :=
  if s.tool.permits s.disposed attempt then some { s with tool := s.tool.kill attempt } else none

/-- `new ProcessResult(process.ExitCode, await stdout, await stderr, truncated)` -/
def result (s : State) : Except Exn ProcessResult :=
  match s.tool.exitCode, s.stdout.result, s.stderr.result with
  | some exitCode, some stdout, some stderr => do
    let stdout ← stdout
    let stderr ← stderr
    return ⟨exitCode, stdout.text, stderr.text, s.truncated⟩
  | _, _, _ => .error .invalidOperation

/-- What a party does, if it can. -/
def act (maxOutputBytes : ℤ) (s : State) : Action → Option State
  | .write text =>
    if s.tool.hasExited then none else some { s with stdout := s.stdout.write text }
  | .writeError text =>
    if s.tool.hasExited then none else some { s with stderr := s.stderr.write text }
  | .exit exitCode =>
    if s.tool.hasExited then none
    else some { s with tool := { s.tool with exitCode := some exitCode } }
  | .cancel => some { s with isCancellationRequested := true }
  | .callback attempt =>
    if s.registered && s.isCancellationRequested then
      (s.tryKill attempt).map fun s => { s with registered := false }
    else none
  | .read read attempt =>
    if s.reading && s.stdout.mayRead s.tool read then
      if s.stdout.reachesLimit maxOutputBytes read then
        (s.tryKill attempt).map fun killed =>
          { killed with
            truncated := true
            stdout := s.stdout.receive maxOutputBytes read attempt.thrown }
      else some { s with stdout := s.stdout.receive maxOutputBytes read (.ok ()) }
    else none
  | .readError read =>
    if s.reading && s.stderr.mayRead s.tool read then
      some { s with stderr := s.stderr.receive maxErrorBytes read (.ok ()) }
    else none
  | .register attempt =>
    match s.main with
    | .registering =>
      -- the callback of a token that is cancelled already is invoked at once
      if s.isCancellationRequested then
        (s.tryKill attempt).map fun s =>
          match attempt.thrown with
          | .ok () => { s with reading := true, main := .awaitingExit }
          | .error ex => { s with main := .disposing (.error ex) }
      else some { s with registered := true, reading := true, main := .awaitingExit }
    | _ => none
  | .exited =>
    match s.main with
    | .awaitingExit => if s.tool.hasExited then some { s with main := .awaitingOutput } else none
    | _ => none
  | .interrupted =>
    match s.main with
    | .awaitingExit => if s.isCancellationRequested then some { s with main := .caught } else none
    | _ => none
  | .gathered =>
    match s.main, s.stdout.result, s.stderr.result with
    | .awaitingOutput, some stdout, some stderr =>
      some { s with main := .finishing (do let _ ← stdout; let _ ← stderr; pure ()) }
    | _, _, _ => none
  | .rethrow attempt =>
    match s.main with
    | .caught =>
      (s.tryKill attempt).map fun s =>
        { s with main := .finishing (do attempt.thrown; throw .operationCanceled) }
    | _ => none
  | .finish attempt =>
    match s.main with
    | .finishing outcome =>
      -- an exception in `finally` takes the place of the one before
      (s.tryKill attempt).map fun s =>
        { s with main := .unregistering (do attempt.thrown; outcome; s.result) }
    | _ => none
  | .unregister =>
    match s.main with
    | .unregistering outcome => some { s with registered := false, main := .disposing outcome }
    | _ => none
  | .dispose =>
    match s.main with
    | .disposing outcome => some { s with disposed := true, main := .done outcome }
    | _ => none

end State

/-- What the parties do, one after the other. An action that is not possible in a state has no next
state there, so each step of such a sequence is one that can happen. -/
inductive Leads (maxOutputBytes : ℤ) : State → State → Prop
  | refl (s : State) : Leads maxOutputBytes s s
  | tail {s s' s'' : State} {action : Action} (before : Leads maxOutputBytes s s')
      (next : s'.act maxOutputBytes action = some s'') : Leads maxOutputBytes s s''

/-- From the start of a tool, with a token that may be cancelled already. -/
def Reachable (maxOutputBytes : ℤ) (s : State) : Prop :=
  ∃ requested, Leads maxOutputBytes { isCancellationRequested := requested } s

variable {maxBytes maxOutputBytes : ℤ} {tool : Tool} {output : Output} {s s' : State}
  {read : Read} {attempt : Attempt}

/-! ### The invariant of a stream

What a task has kept is what the loop makes of the reads that it has seen, and the reads are a
beginning of what was written. -/

/-- No read has thrown. -/
def Output.Uninterrupted (output : Output) : Prop :=
  ∀ read ∈ output.reads, ∃ buffer, read = .chars buffer

/-- The invariant of one stream. The loop has kept what was read, it goes on as the loop as a whole
would, and once it has ended its result is that of the loop as a whole. -/
structure Output.Sound (maxBytes : ℤ) (tool : Tool) (output : Output) : Prop where
  written : output.written = readText output.reads ++ output.unread
  loop : output.result = none → output.loop.builder = readText output.reads ∧
    ∀ reads, readCappedAsync (output.reads ++ reads) maxBytes =
      readLoop maxBytes output.loop.builder output.loop.total reads
  result : ∀ capped, output.result = some (.ok capped) →
    readCappedAsync output.reads maxBytes = capped ∧ capped.text <+: readText output.reads ∧
      (capped.limited = false → output.Uninterrupted →
        capped.text = output.written ∧ tool.hasExited = true)

theorem Output.Sound.of_tool (h : output.Sound maxBytes tool) {tool' : Tool}
    (hexited : tool.hasExited = true → tool'.hasExited = true) : output.Sound maxBytes tool' :=
  ⟨h.written, h.loop, fun capped hcapped =>
    have hresult := h.result capped hcapped
    ⟨hresult.1, hresult.2.1, fun hlimited hreads =>
      (hresult.2.2 hlimited hreads).imp_right hexited⟩⟩

theorem Output.Sound.write (h : output.Sound maxBytes tool) (hrunning : tool.hasExited = false)
    (text : Str) : (output.write text).Sound maxBytes tool where
  written := by rw [Output.write, h.written, List.append_assoc]
  loop := h.loop
  result capped hcapped := by
    obtain ⟨hcapped, hprefix, hwhole⟩ := h.result capped hcapped
    refine ⟨hcapped, hprefix, fun hlimited hreads => ?_⟩
    rw [(hwhole hlimited hreads).2] at hrunning
    cases hrunning

theorem mayRead_iff : output.mayRead tool read = true ↔ output.result = none ∧
    ∀ buffer, read = .chars buffer → buffer <+: output.unread ∧ buffer.length ≤ 4096 ∧
      (buffer = [] → output.unread = [] ∧ tool.hasExited = true) := by
  cases read with
  | chars buffer =>
    simp only [Output.mayRead, Bool.and_eq_true, Bool.or_eq_true, Option.isNone_iff_eq_none,
      List.isPrefixOf_iff_prefix, decide_eq_true_eq, bne_iff_ne, beq_iff_eq, Read.chars.injEq,
      forall_eq', and_assoc, ne_eq, ← imp_iff_not_or]
  | _ => simp [Output.mayRead]

theorem readText_append_singleton (reads : List Read) (read : Read) :
    readText (reads ++ [read]) = readText reads ++ read.text := by
  simp [readText]

/-- What is read is what was unread. -/
theorem text_append_drop (h : output.mayRead tool read = true) :
    read.text ++ output.unread.drop read.text.length = output.unread := by
  obtain ⟨-, hread⟩ := mayRead_iff.mp h
  cases read with
  | chars buffer =>
    obtain ⟨rest, hrest⟩ := (hread buffer rfl).1
    rw [Read.text, ← hrest, List.drop_left]
  | _ => rfl

theorem Output.Sound.receive (h : output.Sound maxBytes tool)
    (hread : output.mayRead tool read = true) (onLimit : Except Exn Unit) :
    (output.receive maxBytes read onLimit).Sound maxBytes tool := by
  obtain ⟨hnone, hmay⟩ := mayRead_iff.mp hread
  obtain ⟨hbuilder, hloop⟩ := h.loop hnone
  have hreads := hloop [read]
  rw [readLoop_cons] at hreads
  have hwritten : output.written =
      readText (output.reads ++ [read]) ++ output.unread.drop read.text.length := by
    rw [readText_append_singleton, List.append_assoc, text_append_drop hread, h.written]
  rw [Output.receive]
  rcases round_cases maxBytes output.loop read with
    ⟨next, hround, hnext, -⟩ | ⟨capped, hround, hprefix, hwhole⟩ <;>
    simp only [hround] at hreads ⊢
  · refine ⟨hwritten, fun _ => ⟨?_, fun reads => ?_⟩, fun capped hcapped => ?_⟩
    · rw [hnext, hbuilder, readText_append_singleton]
    · have hall := hloop (read :: reads)
      rw [readLoop_cons, hround] at hall
      rw [List.append_assoc]
      exact hall
    · rw [hnone] at hcapped
      cases hcapped
  · refine ⟨hwritten, fun hresult => absurd hresult (by simp), fun capped' hcapped => ?_⟩
    obtain rfl : capped' = capped := by
      cases hlimited : capped.limited with
      | false => simpa [hlimited] using hcapped.symm
      | true =>
        cases onLimit with
        | ok _ => simpa [hlimited, Except.map] using hcapped.symm
        | error ex => simp [hlimited, Except.map] at hcapped
    rw [hbuilder, ← readText_append_singleton] at hprefix
    refine ⟨hreads, hprefix, fun hlimited hreads' => ?_⟩
    obtain ⟨htext, hkept⟩ := hwhole hlimited
    obtain ⟨buffer, rfl⟩ := hreads' read (List.mem_append_right _ (List.mem_singleton_self _))
    obtain rfl : buffer = [] := htext
    obtain ⟨hunread, hexited⟩ := (hmay [] rfl).2.2 rfl
    refine ⟨?_, hexited⟩
    rw [hkept, hbuilder, h.written, hunread, List.append_nil]

/-! ### What stays as it is

Most actions concern one party. What the others have stays as it is, and this is said once for all
of them. -/

namespace Tool

variable {tool' : Tool}

/-- It has exited, it has been killed, or that was tried in vain. More cannot be said when
`RunAsync` ends, since a signal is not waited for and a system may refuse to send it. -/
def Stopped (tool : Tool) : Prop :=
  tool.hasExited = true ∨ tool.signalled = true ∨ tool.spared = true

structure Advances (tool tool' : Tool) : Prop where
  exitCode : ∀ exitCode, tool.exitCode = some exitCode → tool'.exitCode = some exitCode
  signalled : tool.signalled = true → tool'.signalled = true
  spared : tool.spared = true → tool'.spared = true

theorem Advances.refl (tool : Tool) : tool.Advances tool := ⟨fun _ h => h, id, id⟩

theorem Advances.hasExited (h : tool.Advances tool') (hexited : tool.hasExited = true) :
    tool'.hasExited = true := by
  obtain ⟨exitCode, hcode⟩ := Option.isSome_iff_exists.mp hexited
  exact Option.isSome_iff_exists.mpr ⟨exitCode, h.exitCode exitCode hcode⟩

theorem Stopped.mono (h : tool.Stopped) (hadvances : tool.Advances tool') : tool'.Stopped :=
  h.imp hadvances.hasExited (Or.imp hadvances.signalled hadvances.spared)

theorem advances_kill (tool : Tool) (attempt : Attempt) : tool.Advances (tool.kill attempt) := by
  cases attempt with
  | nothing => exact .refl tool
  | signalled => exact ⟨fun _ h => h, fun _ => rfl, id⟩
  | _ => exact ⟨fun _ h => h, id, fun _ => rfl⟩

theorem advances_exit (hrunning : tool.hasExited = false) (exitCode : ℤ) :
    tool.Advances { tool with exitCode := some exitCode } := by
  refine ⟨fun code hcode => ?_, id, id⟩
  rw [hasExited, hcode] at hrunning
  cases hrunning

/-- Nobody lets go of a tool that runs without having tried to kill it. -/
theorem stopped_kill {disposed : Bool} (h : tool.permits disposed attempt = true)
    (hdisposed : disposed = true → tool.Stopped) : (tool.kill attempt).Stopped := by
  cases attempt with
  | nothing => exact (Bool.or_eq_true_iff.mp h).elim .inl hdisposed
  | signalled => exact .inr (.inl rfl)
  | _ => exact .inr (.inr rfl)

theorem spared_of_thrown {ex : Exn} (h : attempt.thrown = .error ex) :
    ex = .other ∧ (tool.kill attempt).spared = true := by
  cases attempt with
  | incomplete => exact ⟨(Except.error.inj h).symm, rfl⟩
  | _ => cases h

end Tool

namespace State

/-- What happened before the tool is left alone with this outcome, if it is a failure. Two things
may have: the caller has cancelled, or an attempt to kill the tool has failed in the way that is not
caught. -/
def Explains {α : Type} (s : State) (outcome : Except Exn α) : Prop :=
  ∀ ex, outcome = .error ex →
    ex = .operationCanceled ∧ s.isCancellationRequested = true ∨
      ex = .other ∧ s.tool.spared = true

/-- What `RunAsync` is going to return or throw, if this is it. From here on nothing that others do
can make a difference, as each part of it stays true. -/
structure Settles (s : State) (outcome : Except Exn ProcessResult) : Prop where
  stopped : s.tool.Stopped
  explains : s.Explains outcome
  result : ∀ result, outcome = .ok result → s.result = .ok result

theorem result_eq_ok_iff {result : ProcessResult} :
    s.result = .ok result ↔ ∃ exitCode stdout stderr, s.tool.exitCode = some exitCode ∧
      s.stdout.result = some (.ok stdout) ∧ s.stderr.result = some (.ok stderr) ∧
      result = ⟨exitCode, stdout.text, stderr.text, s.truncated⟩ := by
  constructor
  · intro h
    rw [State.result] at h
    split at h
    · next exitCode stdout stderr hcode hstdout hstderr =>
      cases stdout with
      | error ex => cases h
      | ok stdout =>
        cases stderr with
        | error ex => cases h
        | ok stderr =>
          exact ⟨exitCode, stdout, stderr, hcode, hstdout, hstderr, (Except.ok.inj h).symm⟩
    · cases h
  · rintro ⟨exitCode, stdout, stderr, hcode, hstdout, hstderr, rfl⟩
    rw [State.result, hcode, hstdout, hstderr]
    rfl

structure Advances (s s' : State) : Prop where
  tool : s.tool.Advances s'.tool
  requested : s.isCancellationRequested = true → s'.isCancellationRequested = true
  reading : s.reading = true → s'.reading = true
  stdout : ∀ result, s.stdout.result = some result →
    s'.stdout.result = some result ∧ s'.truncated = s.truncated
  stderr : ∀ result, s.stderr.result = some result → s'.stderr.result = some result

theorem Explains.mono {α : Type} {outcome : Except Exn α} (h : s.Explains outcome)
    (hadvances : s.Advances s') : s'.Explains outcome :=
  fun ex hex => (h ex hex).imp (And.imp_right hadvances.requested)
    (And.imp_right hadvances.tool.spared)

theorem Advances.result (h : s.Advances s') {result : ProcessResult}
    (hresult : s.result = .ok result) : s'.result = .ok result := by
  obtain ⟨exitCode, stdout, stderr, hcode, hstdout, hstderr, rfl⟩ := result_eq_ok_iff.mp hresult
  obtain ⟨hstdout', htruncated⟩ := h.stdout _ hstdout
  exact result_eq_ok_iff.mpr ⟨exitCode, stdout, stderr, h.tool.exitCode _ hcode, hstdout',
    h.stderr _ hstderr, by rw [htruncated]⟩

theorem Settles.mono {outcome : Except Exn ProcessResult} (h : s.Settles outcome)
    (hadvances : s.Advances s') : s'.Settles outcome :=
  ⟨h.stopped.mono hadvances.tool, h.explains.mono hadvances,
    fun result hresult => hadvances.result (h.result result hresult)⟩

/-! ### The invariant

What `RunAsync` has come to depends on who has exited, who was killed and what the tasks have come
to. Each of its actions is a lemma of its own. -/

/-- What is known at each point of `RunAsync`. From `finally` on, the outcome is known, and what it
says about the tool is carried along to the end. -/
def MainSound (s : State) : Prop :=
  match s.main with
  | .registering => True
  | .awaitingExit => s.reading = true
  | .awaitingOutput => s.reading = true ∧ s.tool.hasExited = true
  | .caught => s.isCancellationRequested = true
  | .finishing outcome =>
    s.Explains outcome ∧ (outcome = .ok () → ∃ result, s.result = .ok result)
  | .unregistering outcome => s.Settles outcome
  | .disposing outcome => s.Settles outcome ∧ s.registered = false
  | .done outcome => s.Settles outcome ∧ s.registered = false ∧ s.disposed = true

/-- The invariant. What the two tasks and `RunAsync` share is the flag and the tool, and each of the
three has its own clauses on these. -/
structure Sound (maxOutputBytes : ℤ) (s : State) : Prop where
  stdout : s.stdout.Sound maxOutputBytes s.tool
  stderr : s.stderr.Sound maxErrorBytes s.tool
  pending : s.stdout.result = none → s.truncated = false
  truncated : ∀ capped, s.stdout.result = some (.ok capped) → s.truncated = capped.limited
  failed : ∀ ex, s.stdout.result = some (.error ex) → ex = .other ∧ s.tool.spared = true
  stderr_ok : ∀ ex, s.stderr.result ≠ some (.error ex)
  limited : s.truncated = true → s.tool.Stopped
  disposed : s.disposed = true → s.tool.Stopped
  unregistered : s.main = .registering → s.registered = false
  main : s.MainSound

theorem MainSound.mono (h : s.MainSound) (hadvances : s.Advances s') (hmain : s'.main = s.main)
    (hregistered : s.registered = false → s'.registered = false)
    (hdisposed : s'.disposed = s.disposed) : s'.MainSound := by
  unfold MainSound at h ⊢
  rw [hmain, hdisposed]
  cases hs : s.main with
  | registering => trivial
  | awaitingExit =>
    rw [hs] at h
    exact hadvances.reading h
  | awaitingOutput =>
    rw [hs] at h
    exact ⟨hadvances.reading h.1, hadvances.tool.hasExited h.2⟩
  | caught =>
    rw [hs] at h
    exact hadvances.requested h
  | finishing outcome =>
    rw [hs] at h
    exact ⟨h.1.mono hadvances, fun hok => (h.2 hok).imp fun _ => hadvances.result⟩
  | unregistering outcome =>
    rw [hs] at h
    exact h.mono hadvances
  | disposing outcome =>
    rw [hs] at h
    exact ⟨h.1.mono hadvances, hregistered h.2⟩
  | done outcome =>
    rw [hs] at h
    exact ⟨h.1.mono hadvances, hregistered h.2.1, h.2.2⟩

theorem Sound.of_tool (h : s.Sound maxOutputBytes) {tool' : Tool}
    (hadvances : s.tool.Advances tool') :
    ({ s with tool := tool' } : State).Sound maxOutputBytes where
  stdout := h.stdout.of_tool hadvances.hasExited
  stderr := h.stderr.of_tool hadvances.hasExited
  pending := h.pending
  truncated := h.truncated
  failed ex hex := (h.failed ex hex).imp_right hadvances.spared
  stderr_ok := h.stderr_ok
  limited htruncated := (h.limited htruncated).mono hadvances
  disposed hdisposed := (h.disposed hdisposed).mono hadvances
  unregistered := h.unregistered
  main := h.main.mono ⟨hadvances, id, id, fun _ hr => ⟨hr, rfl⟩, fun _ hr => hr⟩ rfl id rfl

/-- `RunAsync` goes on, and nothing else changes. -/
theorem Sound.of_main (h : s.Sound maxOutputBytes) (htool : s'.tool = s.tool)
    (hstdout : s'.stdout = s.stdout) (hstderr : s'.stderr = s.stderr)
    (htruncated : s'.truncated = s.truncated) (hdisposed : s'.disposed = true → s.tool.Stopped)
    (hunregistered : s'.main = .registering → s'.registered = false) (hmain : s'.MainSound) :
    s'.Sound maxOutputBytes where
  stdout := by rw [hstdout, htool]; exact h.stdout
  stderr := by rw [hstderr, htool]; exact h.stderr
  pending := by rw [hstdout, htruncated]; exact h.pending
  truncated := by rw [hstdout, htruncated]; exact h.truncated
  failed := by rw [hstdout, htool]; exact h.failed
  stderr_ok := by rw [hstderr]; exact h.stderr_ok
  limited := by rw [htruncated, htool]; exact h.limited
  disposed := by rw [htool]; exact hdisposed
  unregistered := hunregistered
  main := hmain

theorem Advances.of_main (htool : s'.tool = s.tool) (hstdout : s'.stdout = s.stdout)
    (hstderr : s'.stderr = s.stderr) (htruncated : s'.truncated = s.truncated)
    (hrequested : s.isCancellationRequested = true → s'.isCancellationRequested = true)
    (hreading : s.reading = true → s'.reading = true) : s.Advances s' where
  tool := htool ▸ .refl _
  requested := hrequested
  reading := hreading
  stdout _ hresult := ⟨hstdout ▸ hresult, htruncated⟩
  stderr _ hresult := hstderr ▸ hresult

theorem Advances.trans {s'' : State} (h : s.Advances s') (h' : s'.Advances s'') :
    s.Advances s'' where
  tool := ⟨fun code hcode => h'.tool.exitCode code (h.tool.exitCode code hcode),
    h'.tool.signalled ∘ h.tool.signalled, h'.tool.spared ∘ h.tool.spared⟩
  requested := h'.requested ∘ h.requested
  reading := h'.reading ∘ h.reading
  stdout result hresult := by
    obtain ⟨hresult', htruncated⟩ := h.stdout result hresult
    obtain ⟨hresult'', htruncated'⟩ := h'.stdout result hresult'
    exact ⟨hresult'', htruncated'.trans htruncated⟩
  stderr result hresult := h'.stderr result (h.stderr result hresult)

theorem advances_tool {tool' : Tool} (h : s.tool.Advances tool') :
    s.Advances { s with tool := tool' } :=
  ⟨h, id, id, fun _ hresult => ⟨hresult, rfl⟩, fun _ hresult => hresult⟩

theorem tryKill_eq_some (h : s.tryKill attempt = some s') :
    s.tool.permits s.disposed attempt = true ∧ s' = { s with tool := s.tool.kill attempt } := by
  obtain ⟨hpermits, heq⟩ := Option.ite_none_right_eq_some.mp h
  exact ⟨hpermits, (Option.some.inj heq).symm⟩

/-- What `TryKill` leaves. -/
theorem of_tryKill (h : s.Sound maxOutputBytes) (hkill : s.tryKill attempt = some s') :
    s'.Sound maxOutputBytes ∧ s.Advances s' ∧ s'.tool.Stopped ∧
      (∀ ex, attempt.thrown = .error ex → ex = .other ∧ s'.tool.spared = true) ∧
      s' = { s with tool := s.tool.kill attempt } := by
  obtain ⟨hpermits, rfl⟩ := tryKill_eq_some hkill
  have hadvances := s.tool.advances_kill attempt
  exact ⟨h.of_tool hadvances, advances_tool hadvances, Tool.stopped_kill hpermits h.disposed,
    fun ex hex => Tool.spared_of_thrown hex, rfl⟩

/-- What a task that reads comes to with a read. -/
theorem result_receive (maxBytes : ℤ) (output : Output) (read : Read) (onLimit : Except Exn Unit) :
    (output.reachesLimit maxBytes read = true ∧ ∃ capped, capped.limited = true ∧
      (output.receive maxBytes read onLimit).result = some (onLimit.map fun _ => capped)) ∨
    (output.reachesLimit maxBytes read = false ∧
      ((output.receive maxBytes read onLimit).result = output.result ∨
        ∃ capped, capped.limited = false ∧
          (output.receive maxBytes read onLimit).result = some (.ok capped))) := by
  rw [Output.reachesLimit, Output.receive]
  cases output.loop.round maxBytes read with
  | inl loop => exact .inr ⟨rfl, .inl rfl⟩
  | inr capped =>
    cases hlimited : capped.limited with
    | true => exact .inl ⟨hlimited, capped, hlimited, by simp [hlimited]⟩
    | false => exact .inr ⟨hlimited, .inr ⟨capped, hlimited, by simp [hlimited]⟩⟩

/-- A read of standard output that does not reach the cap. -/
theorem sound_read (h : s.Sound maxOutputBytes) (hread : s.stdout.mayRead s.tool read = true)
    (hlimit : s.stdout.reachesLimit maxOutputBytes read = false) :
    let s' := { s with stdout := s.stdout.receive maxOutputBytes read (.ok ()) }
    s'.Sound maxOutputBytes ∧ s.Advances s' := by
  obtain ⟨hnone, -⟩ := mayRead_iff.mp hread
  have htruncated := h.pending hnone
  have hadvances : s.Advances { s with
      stdout := s.stdout.receive maxOutputBytes read (.ok ()) } :=
    ⟨.refl _, id, id, fun _ hr => absurd (hnone.symm.trans hr) (by simp), fun _ hr => hr⟩
  refine ⟨?_, hadvances⟩
  have hresult : ∀ result,
      (s.stdout.receive maxOutputBytes read (.ok ())).result = some result →
      ∃ capped, result = .ok capped ∧ capped.limited = false := by
    intro result hresult
    rcases result_receive maxOutputBytes s.stdout read (.ok ()) with
      ⟨hlimit', -⟩ | ⟨-, heq | ⟨capped, hlimited, heq⟩⟩
    · rw [hlimit] at hlimit'
      cases hlimit'
    · rw [heq, hnone] at hresult
      cases hresult
    · rw [heq] at hresult
      exact ⟨capped, (Option.some.inj hresult).symm, hlimited⟩
  exact {
    stdout := h.stdout.receive hread _
    stderr := h.stderr
    pending := fun _ => htruncated
    truncated := fun capped hcapped => by
      obtain ⟨_, heq, hlimited⟩ := hresult _ hcapped
      obtain rfl := Except.ok.inj heq
      rw [htruncated, hlimited]
    failed := fun ex hex => by
      obtain ⟨_, heq, -⟩ := hresult _ hex
      cases heq
    stderr_ok := h.stderr_ok
    limited := h.limited
    disposed := h.disposed
    unregistered := h.unregistered
    main := h.main.mono hadvances rfl id rfl }

/-- One that does, after the tool was killed. -/
theorem sound_read_limit (h : s.Sound maxOutputBytes)
    (hread : s.stdout.mayRead s.tool read = true)
    (hlimit : s.stdout.reachesLimit maxOutputBytes read = true)
    (hkill : s.tryKill attempt = some s') :
    let s'' := { s' with
      truncated := true
      stdout := s.stdout.receive maxOutputBytes read attempt.thrown }
    s''.Sound maxOutputBytes ∧ s.Advances s'' := by
  obtain ⟨hnone, -⟩ := mayRead_iff.mp hread
  obtain ⟨hsound, htool, hstopped, hthrown, rfl⟩ := of_tryKill h hkill
  have hadvances : s.Advances { s with
      tool := s.tool.kill attempt
      truncated := true
      stdout := s.stdout.receive maxOutputBytes read attempt.thrown } :=
    ⟨htool.tool, id, id, fun _ hr => absurd (hnone.symm.trans hr) (by simp), fun _ hr => hr⟩
  refine ⟨?_, hadvances⟩
  obtain ⟨capped, hlimited, hresult⟩ :
      ∃ capped, capped.limited = true ∧
        (s.stdout.receive maxOutputBytes read attempt.thrown).result =
          some (attempt.thrown.map fun _ => capped) := by
    rcases result_receive maxOutputBytes s.stdout read attempt.thrown with ⟨-, h⟩ | ⟨hlimit', -⟩
    · exact h
    · rw [hlimit] at hlimit'
      cases hlimit'
  exact {
    stdout := (h.stdout.receive hread _).of_tool htool.tool.hasExited
    stderr := hsound.stderr
    pending := fun hpending => by
      rw [hresult] at hpending
      cases hpending
    truncated := fun capped' hcapped => by
      rw [hresult] at hcapped
      cases hattempt : attempt.thrown with
      | ok _ =>
        rw [hattempt] at hcapped
        obtain rfl := Except.ok.inj (Option.some.inj hcapped)
        exact hlimited.symm
      | error ex =>
        rw [hattempt] at hcapped
        cases hcapped
    failed := fun ex hex => by
      rw [hresult] at hex
      cases hattempt : attempt.thrown with
      | ok _ =>
        rw [hattempt] at hex
        cases hex
      | error ex' =>
        rw [hattempt] at hex
        obtain rfl := Except.error.inj (Option.some.inj hex)
        exact hthrown _ hattempt
    stderr_ok := h.stderr_ok
    limited := fun _ => hstopped
    disposed := fun _ => hstopped
    unregistered := h.unregistered
    main := h.main.mono hadvances rfl id rfl }

theorem result_eq_error {ex : Exn}
    (h : (output.receive maxBytes read (.ok ())).result = some (.error ex)) :
    output.result = some (.error ex) := by
  rcases result_receive maxBytes output read (.ok ()) with
    ⟨-, capped, -, heq⟩ | ⟨-, heq | ⟨capped, -, heq⟩⟩
  · rw [heq] at h
    cases h
  · rw [← heq, h]
  · rw [heq] at h
    cases h

theorem sound_readError (h : s.Sound maxOutputBytes)
    (hread : s.stderr.mayRead s.tool read = true) :
    let s' := { s with stderr := s.stderr.receive maxErrorBytes read (.ok ()) }
    s'.Sound maxOutputBytes ∧ s.Advances s' := by
  obtain ⟨hnone, -⟩ := mayRead_iff.mp hread
  have hadvances : s.Advances { s with
      stderr := s.stderr.receive maxErrorBytes read (.ok ()) } :=
    ⟨.refl _, id, id, fun _ hr => ⟨hr, rfl⟩, fun _ hr => absurd (hnone.symm.trans hr) (by simp)⟩
  exact ⟨{
    stdout := h.stdout
    stderr := h.stderr.receive hread _
    pending := h.pending
    truncated := h.truncated
    failed := h.failed
    stderr_ok := fun ex hex => h.stderr_ok ex (result_eq_error hex)
    limited := h.limited
    disposed := h.disposed
    unregistered := h.unregistered
    main := h.main.mono hadvances rfl id rfl }, hadvances⟩

/-- What `RunAsync` itself does next. -/
theorem sound_main (h : s.Sound maxOutputBytes) {action : Action}
    (hact : s.act maxOutputBytes action = some s')
    (hmain : action = .exited ∨ action = .interrupted ∨ action = .gathered ∨
      action = .unregister ∨ action = .dispose) : s'.Sound maxOutputBytes ∧ s.Advances s' := by
  have hsound := h.main
  unfold MainSound at hsound
  rcases hmain with rfl | rfl | rfl | rfl | rfl <;> rw [State.act] at hact <;> split at hact <;>
    try cases hact
  · next hawaiting =>
    obtain ⟨hexited, heq⟩ := Option.ite_none_right_eq_some.mp hact
    obtain rfl := Option.some.inj heq
    rw [hawaiting] at hsound
    exact ⟨h.of_main rfl rfl rfl rfl h.disposed (fun hmain => by cases hmain) ⟨hsound, hexited⟩,
      .of_main rfl rfl rfl rfl id id⟩
  · next hawaiting =>
    obtain ⟨hrequested, heq⟩ := Option.ite_none_right_eq_some.mp hact
    obtain rfl := Option.some.inj heq
    exact ⟨h.of_main rfl rfl rfl rfl h.disposed (fun hmain => by cases hmain) hrequested,
      .of_main rfl rfl rfl rfl id id⟩
  · next stdout stderr hawaiting hstdout hstderr =>
    rw [hawaiting] at hsound
    refine ⟨h.of_main rfl rfl rfl rfl h.disposed (fun hmain => by cases hmain) ?_,
      .of_main rfl rfl rfl rfl id id⟩
    cases stderr with
    | error ex => exact absurd hstderr (h.stderr_ok ex)
    | ok stderr =>
      cases stdout with
      | error ex =>
        obtain ⟨rfl, hspared⟩ := h.failed ex hstdout
        refine ⟨fun ex hex => .inr ⟨(Except.error.inj hex).symm, hspared⟩, fun hok => ?_⟩
        cases hok
      | ok stdout =>
        refine ⟨?_, fun _ => ?_⟩
        · intro ex hex
          cases hex
        obtain ⟨exitCode, hcode⟩ := Option.isSome_iff_exists.mp hsound.2
        exact ⟨_, result_eq_ok_iff.mpr ⟨exitCode, stdout, stderr, hcode, hstdout, hstderr, rfl⟩⟩
  · next outcome hunregistering =>
    rw [hunregistering] at hsound
    have hadvances : s.Advances { s with registered := false, main := .disposing outcome } :=
      .of_main rfl rfl rfl rfl id id
    exact ⟨h.of_main rfl rfl rfl rfl h.disposed (fun hmain => by cases hmain)
      ⟨hsound.mono hadvances, rfl⟩, hadvances⟩
  · next outcome hdisposing =>
    rw [hdisposing] at hsound
    have hadvances : s.Advances { s with disposed := true, main := .done outcome } :=
      .of_main rfl rfl rfl rfl id id
    exact ⟨h.of_main rfl rfl rfl rfl (fun _ => hsound.1.stopped) (fun hmain => by cases hmain)
      ⟨hsound.1.mono hadvances, hsound.2, rfl⟩, hadvances⟩

theorem sound_register (h : s.Sound maxOutputBytes)
    (hact : s.act maxOutputBytes (.register attempt) = some s') :
    s'.Sound maxOutputBytes ∧ s.Advances s' := by
  rw [State.act] at hact
  split at hact
  · next hregistering =>
    split at hact
    · obtain ⟨killed, hkill, rfl⟩ := Option.map_eq_some_iff.mp hact
      obtain ⟨hsound, hadvances, hstopped, hthrown, rfl⟩ := of_tryKill h hkill
      cases hattempt : attempt.thrown with
      | ok _ =>
        exact ⟨hsound.of_main rfl rfl rfl rfl hsound.disposed (fun hmain => by cases hmain) rfl,
          hadvances.trans (.of_main rfl rfl rfl rfl id fun _ => rfl)⟩
      | error ex =>
        obtain ⟨rfl, hspared⟩ := hthrown ex hattempt
        refine ⟨hsound.of_main rfl rfl rfl rfl hsound.disposed (fun hmain => by cases hmain)
          ⟨⟨hstopped, fun ex hex => .inr ⟨(Except.error.inj hex).symm, hspared⟩, ?_⟩,
            h.unregistered hregistering⟩, hadvances.trans (.of_main rfl rfl rfl rfl id id)⟩
        intro result hresult
        cases hresult
    · obtain rfl := Option.some.inj hact
      exact ⟨h.of_main rfl rfl rfl rfl h.disposed (fun hmain => by cases hmain) rfl,
        .of_main rfl rfl rfl rfl id fun _ => rfl⟩
  · cases hact

theorem sound_rethrow (h : s.Sound maxOutputBytes)
    (hact : s.act maxOutputBytes (.rethrow attempt) = some s') :
    s'.Sound maxOutputBytes ∧ s.Advances s' := by
  rw [State.act] at hact
  split at hact
  · next hcaught =>
    obtain ⟨killed, hkill, rfl⟩ := Option.map_eq_some_iff.mp hact
    obtain ⟨hsound, hadvances, -, hthrown, rfl⟩ := of_tryKill h hkill
    have hrequested := h.main
    unfold MainSound at hrequested
    rw [hcaught] at hrequested
    refine ⟨hsound.of_main rfl rfl rfl rfl hsound.disposed (fun hmain => by cases hmain) ?_,
      hadvances.trans (.of_main rfl rfl rfl rfl id id)⟩
    cases hattempt : attempt.thrown with
    | ok _ =>
      refine ⟨fun ex hex => .inl ⟨(Except.error.inj hex).symm, hrequested⟩, ?_⟩
      intro hok
      cases hok
    | error ex =>
      obtain ⟨rfl, hspared⟩ := hthrown ex hattempt
      refine ⟨fun ex hex => .inr ⟨(Except.error.inj hex).symm, hspared⟩, ?_⟩
      intro hok
      cases hok
  · cases hact

theorem sound_finish (h : s.Sound maxOutputBytes)
    (hact : s.act maxOutputBytes (.finish attempt) = some s') :
    s'.Sound maxOutputBytes ∧ s.Advances s' := by
  rw [State.act] at hact
  split at hact
  · next outcome hfinishing =>
    obtain ⟨killed, hkill, rfl⟩ := Option.map_eq_some_iff.mp hact
    obtain ⟨hsound, hadvances, hstopped, hthrown, rfl⟩ := of_tryKill h hkill
    have hbefore := hsound.main
    unfold MainSound at hbefore
    dsimp only at hbefore
    rw [hfinishing] at hbefore
    have hmain : ∀ main, ({ s with tool := s.tool.kill attempt } : State).Advances
        { s with tool := s.tool.kill attempt, main := main } :=
      fun main => .of_main rfl rfl rfl rfl id id
    refine ⟨hsound.of_main rfl rfl rfl rfl hsound.disposed (fun hmain => by cases hmain) ?_,
      hadvances.trans (hmain _)⟩
    refine Settles.mono ?_ (hmain _)
    cases hattempt : attempt.thrown with
    | error ex =>
      obtain ⟨rfl, hspared⟩ := hthrown ex hattempt
      refine ⟨hstopped, fun ex hex => .inr ⟨(Except.error.inj hex).symm, hspared⟩, ?_⟩
      intro result hresult
      cases hresult
    | ok _ =>
      cases outcome with
      | error ex =>
        refine ⟨hstopped, fun ex' hex => hbefore.1 ex' ?_, ?_⟩
        · exact congrArg _ (Except.error.inj hex)
        · intro result hresult
          cases hresult
      | ok _ =>
        obtain ⟨result, hresult⟩ := hbefore.2 rfl
        refine ⟨hstopped, fun ex hex => ?_, fun result' hresult' => hresult'⟩
        exact absurd (hresult.symm.trans hex) (by simp)
  · cases hact

theorem sound_callback (h : s.Sound maxOutputBytes)
    (hact : s.act maxOutputBytes (.callback attempt) = some s') :
    s'.Sound maxOutputBytes ∧ s.Advances s' := by
  obtain ⟨-, hact⟩ := Option.ite_none_right_eq_some.mp hact
  obtain ⟨killed, hkill, rfl⟩ := Option.map_eq_some_iff.mp hact
  obtain ⟨hsound, hadvances, -, -, rfl⟩ := of_tryKill h hkill
  have hunregister : ({ s with tool := s.tool.kill attempt } : State).Advances
      { s with tool := s.tool.kill attempt, registered := false } :=
    .of_main rfl rfl rfl rfl id id
  exact ⟨hsound.of_main rfl rfl rfl rfl hsound.disposed (fun _ => rfl)
    (hsound.main.mono hunregister rfl (fun _ => rfl) rfl), hadvances.trans hunregister⟩

/-- The tool writes. -/
theorem sound_write (h : s.Sound maxOutputBytes) (hrunning : s.tool.hasExited = false)
    (text error : Str) :
    let s' := { s with stdout := s.stdout.write text, stderr := s.stderr.write error }
    s'.Sound maxOutputBytes ∧ s.Advances s' := by
  have hadvances : s.Advances { s with
      stdout := s.stdout.write text
      stderr := s.stderr.write error } := ⟨.refl _, id, id, fun _ hr => ⟨hr, rfl⟩, fun _ hr => hr⟩
  exact ⟨{
    stdout := h.stdout.write hrunning text
    stderr := h.stderr.write hrunning error
    pending := h.pending
    truncated := h.truncated
    failed := h.failed
    stderr_ok := h.stderr_ok
    limited := h.limited
    disposed := h.disposed
    unregistered := h.unregistered
    main := h.main.mono hadvances rfl id rfl }, hadvances⟩

theorem write_nil (output : Output) : output.write [] = output := by
  rw [Output.write, List.append_nil, List.append_nil]

/-- **Whoever does something keeps the invariant**, and takes nothing back. -/
theorem sound_act (h : s.Sound maxOutputBytes) {action : Action}
    (hact : s.act maxOutputBytes action = some s') :
    s'.Sound maxOutputBytes ∧ s.Advances s' := by
  cases action with
  | write text =>
    obtain ⟨hrunning, heq⟩ := Option.ite_none_left_eq_some.mp hact
    obtain rfl := Option.some.inj heq
    have hwrite := sound_write h (Bool.eq_false_iff.mpr hrunning) text []
    rwa [write_nil] at hwrite
  | writeError text =>
    obtain ⟨hrunning, heq⟩ := Option.ite_none_left_eq_some.mp hact
    obtain rfl := Option.some.inj heq
    have hwrite := sound_write h (Bool.eq_false_iff.mpr hrunning) [] text
    rwa [write_nil] at hwrite
  | exit exitCode =>
    obtain ⟨hrunning, heq⟩ := Option.ite_none_left_eq_some.mp hact
    obtain rfl := Option.some.inj heq
    have hadvances := Tool.advances_exit (Bool.eq_false_iff.mpr hrunning) exitCode
    exact ⟨h.of_tool hadvances, advances_tool hadvances⟩
  | cancel =>
    obtain rfl := Option.some.inj hact
    have hadvances : s.Advances { s with isCancellationRequested := true } :=
      .of_main rfl rfl rfl rfl (fun _ => rfl) id
    exact ⟨h.of_main rfl rfl rfl rfl h.disposed h.unregistered
      (h.main.mono hadvances rfl id rfl), hadvances⟩
  | callback attempt => exact sound_callback h hact
  | read read attempt =>
    obtain ⟨hguard, hact⟩ := Option.ite_none_right_eq_some.mp hact
    have hread := (Bool.and_eq_true_iff.mp hguard).2
    split at hact
    · next hlimit =>
      obtain ⟨killed, hkill, rfl⟩ := Option.map_eq_some_iff.mp hact
      exact sound_read_limit h hread hlimit hkill
    · next hlimit =>
      obtain rfl := Option.some.inj hact
      exact sound_read h hread (Bool.eq_false_iff.mpr hlimit)
  | readError read =>
    obtain ⟨hguard, heq⟩ := Option.ite_none_right_eq_some.mp hact
    obtain rfl := Option.some.inj heq
    exact sound_readError h (Bool.and_eq_true_iff.mp hguard).2
  | register attempt => exact sound_register h hact
  | exited => exact sound_main h hact (.inl rfl)
  | interrupted => exact sound_main h hact (.inr (.inl rfl))
  | gathered => exact sound_main h hact (.inr (.inr (.inl rfl)))
  | rethrow attempt => exact sound_rethrow h hact
  | finish attempt => exact sound_finish h hact
  | unregister => exact sound_main h hact (.inr (.inr (.inr (.inl rfl))))
  | dispose => exact sound_main h hact (.inr (.inr (.inr (.inr rfl))))

theorem sound_of_leads (h : s.Sound maxOutputBytes) (hleads : Leads maxOutputBytes s s') :
    s'.Sound maxOutputBytes := by
  induction hleads with
  | refl => exact h
  | tail before next ih => exact (sound_act ih next).1

end State

theorem sound_of_reachable (h : Reachable maxOutputBytes s) : s.Sound maxOutputBytes := by
  obtain ⟨requested, hleads⟩ := h
  have houtput : ∀ maxBytes, ({} : Output).Sound maxBytes {} := fun maxBytes =>
    ⟨rfl, fun _ => ⟨rfl, fun _ => rfl⟩, fun capped hcapped => by cases hcapped⟩
  refine State.sound_of_leads ?_ hleads
  exact {
    stdout := houtput _
    stderr := houtput _
    pending := fun _ => rfl
    truncated := fun capped hcapped => by cases hcapped
    failed := fun ex hex => by cases hex
    stderr_ok := fun ex hex => by cases hex
    limited := fun htruncated => by cases htruncated
    disposed := fun hdisposed => by cases hdisposed
    unregistered := fun _ => rfl
    main := trivial }

/-! ### When it has ended

What the invariant says of a state in which `RunAsync` has returned or thrown. -/

/-- What a result says about the tool. Both texts are beginnings of what was written. That standard
output was cut is said by the result; that standard error was cut is not. -/
structure Returned (maxOutputBytes : ℤ) (s : State) (result : ProcessResult) : Prop where
  exitCode : s.tool.exitCode = some result.exitCode
  stdOut : result.stdOut <+: s.stdout.written
  stdErr : result.stdErr <+: s.stderr.written
  capped : readCappedAsync s.stdout.reads maxOutputBytes = ⟨result.stdOut, result.truncated⟩
  /-- The output is complete unless it is said not to be. -/
  whole : result.truncated = false → s.stdout.Uninterrupted → result.stdOut = s.stdout.written
  /-- What is kept of the errors is cut at a size of its own, and nothing in the result says so. -/
  cappedError : ∃ limited, readCappedAsync s.stderr.reads maxErrorBytes = ⟨result.stdErr, limited⟩ ∧
    (limited = false → s.stderr.Uninterrupted → result.stdErr = s.stderr.written)

structure Ended (maxOutputBytes : ℤ) (s : State) (outcome : Except Exn ProcessResult) : Prop where
  stopped : s.tool.Stopped
  returned : ∀ result, outcome = .ok result → Returned maxOutputBytes s result
  failed : ∀ ex, outcome = .error ex →
    ex = .operationCanceled ∧ s.isCancellationRequested = true ∨
      ex = .other ∧ s.tool.spared = true

theorem returned_of_result (h : s.Sound maxOutputBytes) {result : ProcessResult}
    (hresult : s.result = .ok result) : Returned maxOutputBytes s result := by
  obtain ⟨exitCode, stdout, stderr, hcode, hstdout, hstderr, rfl⟩ :=
    State.result_eq_ok_iff.mp hresult
  obtain ⟨hcapped, htext, hwhole⟩ := h.stdout.result stdout hstdout
  obtain ⟨hcapped', htext', hwhole'⟩ := h.stderr.result stderr hstderr
  have htruncated := h.truncated stdout hstdout
  refine ⟨hcode, ?_, ?_, ?_, fun hlimited hreads => ?_, stderr.limited, hcapped', ?_⟩
  · rw [h.stdout.written]
    exact htext.trans (List.prefix_append _ _)
  · rw [h.stderr.written]
    exact htext'.trans (List.prefix_append _ _)
  · rw [hcapped, htruncated]
  · exact (hwhole (htruncated.symm.trans hlimited) hreads).1
  · exact fun hlimited hreads => (hwhole' hlimited hreads).1

theorem ended_of_sound (h : s.Sound maxOutputBytes) {outcome : Except Exn ProcessResult}
    (hdone : s.main = .done outcome) :
    Ended maxOutputBytes s outcome ∧ s.registered = false ∧ s.disposed = true := by
  have hmain := h.main
  unfold State.MainSound at hmain
  rw [hdone] at hmain
  obtain ⟨hsettles, hregistered, hdisposed⟩ := hmain
  exact ⟨⟨hsettles.stopped, fun result hresult =>
    returned_of_result h (hsettles.result result hresult), hsettles.explains⟩, hregistered,
    hdisposed⟩

/-- Afterwards nobody touches the process. -/
theorem act_of_done (h : s.Sound maxOutputBytes) {outcome : Except Exn ProcessResult}
    (hdone : s.main = .done outcome) {action : Action}
    (hact : s.act maxOutputBytes action = some s') : s'.main = .done outcome ∧
      s'.tool.signalled = s.tool.signalled ∧ s'.tool.spared = s.tool.spared := by
  obtain ⟨-, hregistered, hdisposed⟩ := ended_of_sound h hdone
  cases action with
  | write text =>
    obtain ⟨-, heq⟩ := Option.ite_none_left_eq_some.mp hact
    obtain rfl := Option.some.inj heq
    exact ⟨hdone, rfl, rfl⟩
  | writeError text =>
    obtain ⟨-, heq⟩ := Option.ite_none_left_eq_some.mp hact
    obtain rfl := Option.some.inj heq
    exact ⟨hdone, rfl, rfl⟩
  | exit exitCode =>
    obtain ⟨-, heq⟩ := Option.ite_none_left_eq_some.mp hact
    obtain rfl := Option.some.inj heq
    exact ⟨hdone, rfl, rfl⟩
  | cancel =>
    obtain rfl := Option.some.inj hact
    exact ⟨hdone, rfl, rfl⟩
  | callback attempt => simp [State.act, hregistered] at hact
  | read read attempt =>
    obtain ⟨-, hact⟩ := Option.ite_none_right_eq_some.mp hact
    split at hact
    · obtain ⟨killed, hkill, rfl⟩ := Option.map_eq_some_iff.mp hact
      obtain ⟨hpermits, rfl⟩ := State.tryKill_eq_some hkill
      -- a process that was disposed of is not there to be killed
      obtain rfl : attempt = .nothing := by
        cases attempt with
        | nothing => rfl
        | _ => simp [Tool.permits, hdisposed] at hpermits
      exact ⟨hdone, rfl, rfl⟩
    · obtain rfl := Option.some.inj hact
      exact ⟨hdone, rfl, rfl⟩
  | readError read =>
    obtain ⟨-, heq⟩ := Option.ite_none_right_eq_some.mp hact
    obtain rfl := Option.some.inj heq
    exact ⟨hdone, rfl, rfl⟩
  | _ => simp [State.act, hdone] at hact

/-- **No tool is left running** that was not killed, or could not be: when `RunAsync` has ended, in
whichever way, the tool has exited or somebody has tried to kill it. What is returned is the
beginning of what the tool has written, and all of its output unless that is said to be truncated;
what is thrown is the cancellation of the caller, or that killing was in vain. From then on nobody
touches the process, whatever the tasks that still read do. -/
theorem ended_of_reachable (h : Reachable maxOutputBytes s) {outcome : Except Exn ProcessResult}
    (hdone : s.main = .done outcome) :
    Ended maxOutputBytes s outcome ∧ ∀ s', Leads maxOutputBytes s s' →
      s'.main = .done outcome ∧ s'.tool.signalled = s.tool.signalled ∧
        s'.tool.spared = s.tool.spared := by
  have hsound := sound_of_reachable h
  refine ⟨(ended_of_sound hsound hdone).1, fun s' hleads => ?_⟩
  induction hleads with
  | refl => exact ⟨hdone, rfl, rfl⟩
  | tail before next ih =>
    obtain ⟨hmain, hsignalled, hspared⟩ := ih
    obtain ⟨hmain', hsignalled', hspared'⟩ :=
      act_of_done (State.sound_of_leads hsound before) hmain next
    exact ⟨hmain', hsignalled'.trans hsignalled, hspared'.trans hspared⟩

/-- Some actions, one after the other. -/
def State.acts (maxOutputBytes : ℤ) (s : State) : List Action → Option State
  | [] => some s
  | action :: actions => (s.act maxOutputBytes action).bind fun s' => s'.acts maxOutputBytes actions

theorem leads_of_acts {actions : List Action} {s₀ : State} (hleads : Leads maxOutputBytes s₀ s)
    (h : s.acts maxOutputBytes actions = some s') : Leads maxOutputBytes s₀ s' := by
  induction actions generalizing s with
  | nil =>
    obtain rfl := Option.some.inj h
    exact hleads
  | cons action actions ih =>
    obtain ⟨next, hnext, hrest⟩ := Option.bind_eq_some_iff.mp h
    exact ih (hleads.tail hnext) hrest

/-- A tool that writes too much is killed, and what it has written is cut. -/
def exampleActions : List Action :=
  [.register .nothing, .write "abcd", .read (.chars "abcd") .signalled, .exit 137, .exited,
    .readError (.chars []), .gathered, .finish .nothing, .unregister, .dispose]

theorem ended_of_example : ∃ s, s.main = .done (.ok ⟨137, "abc", [], true⟩) ∧
    Ended 3 s (.ok ⟨137, "abc", [], true⟩) ∧ ∀ s', Leads 3 s s' →
      s'.main = .done (.ok ⟨137, "abc", [], true⟩) ∧ s'.tool.signalled = s.tool.signalled ∧
        s'.tool.spared = s.tool.spared := by
  obtain ⟨s, hs⟩ : ∃ s, State.acts 3 {} exampleActions = some s := ⟨_, rfl⟩
  have hdone : s.main = .done (.ok ⟨137, "abc", [], true⟩) := by
    obtain rfl := Option.some.inj hs
    rfl
  exact ⟨s, hdone, ended_of_reachable ⟨false, leads_of_acts (.refl _) hs⟩ hdone⟩

end ProcessRunner

end LookingGlass
