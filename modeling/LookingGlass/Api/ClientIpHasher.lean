import LookingGlass.Contracts.Models
import LookingGlass.Foundations.Interleaving

/-!
# The client hash

Addresses are hashed under a random key that is replaced when the UTC day changes. A call reads the
clock first and takes the lock after that, so around midnight calls of the old day and of the new
one can take the lock in any order, and what the lock protects is the day it was last taken with,
not the latest one. Every time a day comes back, it comes back with another key.

The shared state keeps a history next to the two fields: the days with which the lock was taken,
with the keys that were used, and the keys that were ever generated.

## What may be correlated

Within a day two requests of one address are to have one hash, and across days they are not. The
second half always holds, as a key is generated for each change of the day and no generated key is
one that was there before. The first half depends on the order of the calls at the lock. The clock
is read outside of it, so a call that has read the evening may come to the lock after a call of the
next day, and what the lock compares is only whether the day has changed.

So the condition is on the order of the days at the lock: none of them comes back after another. It
is a condition on the history and not on the two fields, which have forgotten it.

## Keys and digests

The digest is a parameter. Nothing is claimed about it, neither that it is a function of the key
that cannot be inverted nor that different keys have different digests. What is claimed is which key
a call was given, and `Hashed` ties the text that a finished call returns to that key.

## Main results

* `List.noReturn_concat` — when no element comes back in a longer list
* `ClientIpHasher.inv_of_reachable` — the history, in every reachable state
* `ClientIpHasher.correlated_iff` — when hashes of a day are correlatable
-/

namespace List

variable {α : Type*}

/-- No element comes back after another one: the occurrences of each are next to each other. It is a
condition on the order alone, and it says nothing about how many occurrences there are. -/
def NoReturn (xs : List α) : Prop := ∀ x y, x ≠ y → ¬ [x, y, x].Sublist xs

theorem noReturn_nil : NoReturn ([] : List α) := fun _ _ _ h => by simpa using h.length_le

theorem sublist_concat_iff (ys : List α) {xs : List α} {x y : α} :
    (ys ++ [y]).Sublist (xs ++ [x]) ↔ (ys ++ [y]).Sublist xs ∨ y = x ∧ ys.Sublist xs := by
  constructor
  · intro h
    obtain ⟨fst, snd, heq, hfst, hsnd⟩ := sublist_append_iff.mp h
    rcases sublist_singleton.mp hsnd with rfl | rfl
    · rw [append_nil] at heq
      exact .inl (heq ▸ hfst)
    · obtain ⟨rfl, hlast⟩ := append_inj' heq rfl
      exact .inr ⟨singleton_inj.mp hlast, hfst⟩
  · rintro (h | ⟨rfl, h⟩)
    · exact h.trans (sublist_append_left xs [x])
    · exact h.append (Sublist.refl _)

/-- The new element may have been there only if it was there last. -/
theorem noReturn_concat {xs : List α} {x : α} :
    NoReturn (xs ++ [x]) ↔ NoReturn xs ∧ (x ∈ xs → xs.getLast? = some x) := by
  constructor
  · intro h
    refine ⟨fun a b hab hsub => h a b hab (hsub.trans (sublist_append_left xs [x])), fun hx => ?_⟩
    obtain ⟨ys, y, rfl⟩ := (eq_nil_or_concat' xs).resolve_left (ne_nil_of_mem hx)
    by_contra hlast
    have hne : x ≠ y := fun hxy => hlast (by rw [hxy, getLast?_concat])
    have hys : x ∈ ys := (mem_append.mp hx).resolve_right fun hxy => hne (mem_singleton.mp hxy)
    have hsub : ([x] ++ [y]).Sublist (ys ++ [y]) := (singleton_sublist.mpr hys).append (.refl _)
    exact h x y hne (hsub.append (.refl [x]))
  · rintro ⟨h, hlast⟩ a b hab hsub
    rcases (sublist_concat_iff [a, b]).mp hsub with hsub | ⟨rfl, hab₂⟩
    · exact h a b hab hsub
    obtain ⟨ys, rfl⟩ := getLast?_eq_some_iff.mp (hlast (hab₂.subset (mem_cons_self ..)))
    rcases (sublist_concat_iff [a]).mp hab₂ with hys | ⟨rfl, -⟩
    · exact h a b hab (Sublist.append hys (.refl [a]))
    · exact hab rfl

end List

namespace LookingGlass

open Utf16 Interaction

/-- Days since the first one of the calendar. -/
abbrev DateOnly := ℤ

/-- `DateOnly.FromDateTime`, for times that are counted from the first day of the calendar. -/
def DateOnly.fromDateTime (now : DateTimeOffset) : DateOnly := now / 864000000000

abbrev Bytes := List UInt8

/-- What the hash is made with. -/
structure Crypto where
  /-- `Encoding.UTF8.GetBytes` -/
  getBytes : Str → Bytes
  /-- `HMACSHA256.HashData` -/
  hashData : Bytes → Bytes → Bytes

/-- `Convert.ToHexStringLower` -/
def toHexStringLower (bytes : Bytes) : Str :=
  bytes.flatMap fun b => AddressText.hex (b.toNat / 16) ++ AddressText.hex (b.toNat % 16)

inductive HasherOp
  | getUtcNow
  /-- The block under the lock, which returns the key. -/
  | compareAndRotate (today : DateOnly)

abbrev HasherOp.Ret : HasherOp → Type
  | getUtcNow => DateTimeOffset
  | compareAndRotate _ => Bytes

abbrev Hasher : Interface := ⟨HasherOp, HasherOp.Ret⟩

namespace ClientIpHasher

def currentKey : Task Hasher Exn Bytes := do
  let now : DateTimeOffset ← Task.perform (I := Hasher) .getUtcNow
  let today := DateOnly.fromDateTime now
  Task.perform (I := Hasher) (.compareAndRotate today)

def hash (crypto : Crypto) (address : Option Str) : Task Hasher Exn Str :=
  match address with
  | none | some [] => pure "unknown"
  | some address => do
    let key ← currentKey
    let digest := crypto.hashData key (crypto.getBytes address)
    pure (toHexStringLower (digest.take 6))

/-! ### All calls together

The block under the lock is one call, whose answer is the key. The effect says how the key comes
about. -/

/-- `_day` and `_key`, the time on the clock and the history. -/
structure Shared where
  day : DateOnly := 0
  key : Bytes := []
  now : DateTimeOffset := 0
  /-- The keys that were generated. -/
  generated : List Bytes := []
  /-- The calls that have taken the lock, in that order: the day and the key of each. -/
  entered : List (DateOnly × Bytes) := []

/-- The clock does not go back, and a generated key is one that was never generated before:
thirty-two random bytes do not repeat. -/
def effect : Shared → Event Hasher → Shared → Prop
  | s, ⟨.getUtcNow, now⟩, s' => s.now ≤ now ∧ s' = { s with now := now }
  | s, ⟨.compareAndRotate today, key⟩, s' =>
    if today ≠ s.day then
      (key : Bytes).length = 32 ∧ key ∉ s.generated ∧
        s' = { s with
          day := today
          key := key
          generated := key :: s.generated
          entered := s.entered ++ [(today, key)] }
    else key = s.key ∧ s' = { s with entered := s.entered ++ [(today, s.key)] }

def system (crypto : Crypto) : System Hasher (Option Str) Shared where
  start := {}
  program address := (hash crypto address).run >>= fun _ => pure ()
  effect := effect

/-! ### The progress of a call

A call reads the clock at most once and takes the lock at most once, in that order. -/

/-- What a call has read from the clock, and the key it was given. Both are recorded, since the
clock is read before the lock is taken, and others may take the lock in between. -/
structure Progress where
  read : Option DateTimeOffset
  key : Option Bytes
  deriving DecidableEq

def Progress.arrived : Progress := ⟨none, none⟩

def next (progress : Progress) : Event Hasher → Progress
  | ⟨.getUtcNow, now⟩ => { progress with read := some now }
  | ⟨.compareAndRotate _, key⟩ => { progress with key := some key }

def isAllowed (progress : Progress) : HasherOp → Prop
  | .getUtcNow => progress = .arrived
  | .compareAndRotate today => ∃ now, progress = ⟨some now, none⟩ ∧
    today = DateOnly.fromDateTime now

def protocol : Protocol Hasher Progress := ⟨isAllowed, next⟩

/-- What a finished call has returned: its address under the key that it was given. -/
def Hashed (crypto : Crypto) (address : Option Str) (call : Progress) (text : Str) : Prop :=
  match address with
  | none | some [] => text = "unknown"
  | some address => ∃ now key, call = ⟨some now, some key⟩ ∧
    text = toHexStringLower ((crypto.hashData key (crypto.getBytes address)).take 6)

theorem follows_hash {crypto : Crypto} {address : Option Str} :
    Task.Follows protocol (fun call r => ∀ text, r = .ok text → Hashed crypto address call text)
      (hash crypto address) .arrived := by
  have hkey : ∀ c cs, Task.Follows protocol (fun call r => ∀ text, r = .ok text →
      Hashed crypto (some (c :: cs)) call text) (do
      let key ← currentKey
      pure (toHexStringLower ((crypto.hashData key (crypto.getBytes (c :: cs))).take 6)))
      .arrived := by
    intro c cs
    refine Task.follows_bind.mpr (Task.follows_bind.mpr ⟨rfl, fun now => ?_⟩)
    exact ⟨⟨now, rfl, rfl⟩, fun key text h => ⟨now, key, rfl, (Except.ok.inj h).symm⟩⟩
  match address with
  | none => exact fun text h => (Except.ok.inj h).symm
  | some [] => exact fun text h => (Except.ok.inj h).symm
  | some (c :: cs) => exact hkey c cs

theorem follows_program (crypto : Crypto) (address : Option Str) :
    ((system crypto).program address).Follows protocol (fun _ _ => True) .arrived :=
  Prog.follows_bind.mpr (follows_hash.mono fun _ _ _ => trivial)

/-! ### The history

`History` is about the shared state alone. It is kept by each of the two ways in which the lock can
be taken. -/

/-- Entries of one day have one key. -/
def Agree (entered : List (DateOnly × Bytes)) : Prop :=
  ∀ entry ∈ entered, ∀ other ∈ entered, entry.1 = other.1 → entry.2 = other.2

theorem agree_concat {entered : List (DateOnly × Bytes)} {day : DateOnly} {key : Bytes} :
    Agree (entered ++ [(day, key)]) ↔
      Agree entered ∧ ∀ entry ∈ entered, entry.1 = day → entry.2 = key := by
  simp only [Agree, List.forall_mem_append, List.forall_mem_singleton]
  constructor
  · rintro ⟨hold, hnew⟩
    exact ⟨fun entry hentry => (hold entry hentry).1, fun entry hentry => (hold entry hentry).2⟩
  · rintro ⟨hold, hnew⟩
    refine ⟨fun entry hentry => ⟨hold entry hentry, hnew entry hentry⟩, fun entry hentry h => ?_,
      fun _ => trivial⟩
    exact (hnew entry hentry h.symm).symm

/-- What the history says about the two fields and about the keys. The last clause is the condition
itself: it holds of each state, whether the condition does or not, and this is what makes it an
equivalence in the end. -/
structure History (s : Shared) : Prop where
  last : s.entered ≠ [] → s.entered.getLast? = some (s.day, s.key)
  current : s.key ∈ [] :: s.generated
  keys : ∀ entry ∈ s.entered, entry.2 ∈ [] :: s.generated
  /-- A key is used on one day only. -/
  days : ∀ entry ∈ s.entered, ∀ other ∈ s.entered, entry.2 = other.2 → entry.1 = other.1
  /-- A day has one key exactly if it does not come back after another day. -/
  agree : Agree s.entered ↔ (s.entered.map Prod.fst).NoReturn

theorem History.getLast?_days {s : Shared} (h : History s) (hne : s.entered ≠ []) :
    (s.entered.map Prod.fst).getLast? = some s.day := by
  rw [List.getLast?_map, h.last hne]
  rfl

/-- A call of another day gets a key that no call before it got. -/
theorem History.rotate {s : Shared} (h : History s) {today : DateOnly} {key : Bytes}
    (hday : today ≠ s.day) (hlen : key.length = 32) (hkey : key ∉ s.generated) :
    History { s with
      day := today
      key := key
      generated := key :: s.generated
      entered := s.entered ++ [(today, key)] } := by
  have hnew : ∀ entry ∈ s.entered, entry.2 ≠ key := by
    intro entry hentry heq
    rcases List.mem_cons.mp (heq ▸ h.keys entry hentry) with rfl | hmem
    · exact absurd hlen (by simp)
    · exact hkey hmem
  refine ⟨fun _ => List.getLast?_concat, by simp, ?_, ?_, ?_⟩
  · refine List.forall_mem_append.mpr ⟨fun entry hentry => ?_, by simp⟩
    exact List.mem_cons.mpr ((List.mem_cons.mp (h.keys entry hentry)).imp_right
      (List.mem_cons_of_mem key))
  · simp only [List.forall_mem_append, List.forall_mem_singleton]
    refine ⟨fun entry hentry => ⟨h.days entry hentry, fun heq => absurd heq (hnew entry hentry)⟩,
      fun entry hentry heq => absurd heq.symm (hnew entry hentry), fun _ => trivial⟩
  · show Agree (s.entered ++ [(today, key)]) ↔ ((s.entered ++ [(today, key)]).map Prod.fst).NoReturn
    rw [agree_concat, List.map_append, List.map_singleton, List.noReturn_concat, h.agree]
    refine and_congr_right fun _ => ?_
    -- On both sides, the day of the call must be one that nobody came with before.
    constructor
    · intro hsame hmem
      obtain ⟨entry, hentry, hfst⟩ := List.mem_map.mp hmem
      exact absurd (hsame entry hentry hfst) (hnew entry hentry)
    · intro hlast entry hentry hfst
      have hlast := hlast (List.mem_map.mpr ⟨entry, hentry, hfst⟩)
      rw [h.getLast?_days (List.ne_nil_of_mem hentry)] at hlast
      exact absurd (Option.some.inj hlast).symm hday

/-- A call of the day that the lock was last taken with gets the current key. -/
theorem History.keep {s : Shared} (h : History s) :
    History { s with entered := s.entered ++ [(s.day, s.key)] } := by
  have hlast : ∀ entry ∈ s.entered, (s.day, s.key) ∈ s.entered := fun entry hentry =>
    List.mem_of_getLast? (h.last (List.ne_nil_of_mem hentry))
  refine ⟨fun _ => List.getLast?_concat, h.current, ?_, ?_, ?_⟩
  · exact List.forall_mem_append.mpr ⟨h.keys, List.forall_mem_singleton.mpr h.current⟩
  · simp only [List.forall_mem_append, List.forall_mem_singleton]
    exact ⟨fun entry hentry => ⟨h.days entry hentry, h.days entry hentry _ (hlast entry hentry)⟩,
      fun entry hentry => h.days _ (hlast entry hentry) entry hentry, fun _ => trivial⟩
  · show Agree (s.entered ++ [(s.day, s.key)]) ↔
      ((s.entered ++ [(s.day, s.key)]).map Prod.fst).NoReturn
    rw [agree_concat, List.map_append, List.map_singleton, List.noReturn_concat, h.agree]
    refine and_congr_right fun hreturn => ⟨fun _ hmem => ?_, fun _ entry hentry => ?_⟩
    · obtain ⟨entry, hentry, -⟩ := List.mem_map.mp hmem
      exact h.getLast?_days (List.ne_nil_of_mem hentry)
    · exact h.agree.mpr hreturn entry hentry _ (hlast entry hentry)

/-! ### Every interleaving

The history is that of the calls: whoever has a key is in it, and whoever is in it has a key. -/

abbrev State := Config Hasher (Option Str) Shared

def progress (c : State) : List Progress :=
  c.threads.map (Thread.phase protocol fun _ => .arrived)

/-- A call that read the clock on this day and was given this key. -/
def Progress.IsEntry (call : Progress) (day : DateOnly) (key : Bytes) : Prop :=
  ∃ now, call = ⟨some now, some key⟩ ∧ day = DateOnly.fromDateTime now

theorem Progress.not_isEntry {call : Progress} (h : call.key = none) {day : DateOnly}
    {key : Bytes} :
    ¬ call.IsEntry day key := by
  rintro ⟨now, rfl, -⟩
  exact absurd h (by simp)

/-- The history, and that it is the one of the calls that were given a key. It is by the second
clause that what is known of the history is known of the calls. -/
structure Inv (s : Shared) (calls : List Progress) : Prop where
  history : History s
  calls : ∀ day key, (day, key) ∈ s.entered ↔ ∃ call ∈ calls, call.IsEntry day key

theorem Inv.start : Inv {} [] where
  history := ⟨fun h => absurd rfl h, by simp, by simp, by simp,
    iff_of_true (by simp [Agree]) List.noReturn_nil⟩
  calls := by simp

theorem Inv.spawn {s : Shared} {calls : List Progress} (h : Inv s calls) :
    Inv s (calls ++ [.arrived]) where
  history := h.history
  calls day key := by
    rw [h.calls, exists_mem_middle, List.append_nil]
    exact (or_iff_right (Progress.not_isEntry rfl)).symm

/-- The step lemma: reading the clock changes no history, and taking the lock adds one entry. -/
theorem Inv.step {s s' : Shared} {before after : List Progress} {call : Progress} {op : HasherOp}
    {answer : HasherOp.Ret op} (hallowed : isAllowed call op) (heffect : effect s ⟨op, answer⟩ s')
    (h : Inv s (before ++ call :: after)) : Inv s' (before ++ next call ⟨op, answer⟩ :: after) := by
  have hcalls : ∀ day key, (day, key) ∈ s.entered ↔
      call.IsEntry day key ∨ ∃ call ∈ before ++ after, call.IsEntry day key :=
    fun day key => (h.calls day key).trans exists_mem_middle
  cases op with
  | getUtcNow =>
    obtain rfl : call = .arrived := hallowed
    obtain ⟨-, rfl⟩ := heffect
    refine ⟨⟨h.history.last, h.history.current, h.history.keys, h.history.days, h.history.agree⟩,
      fun day key => ?_⟩
    rw [exists_mem_middle]
    exact (hcalls day key).trans (or_congr_left (iff_of_false (Progress.not_isEntry rfl)
      (Progress.not_isEntry rfl)))
  | compareAndRotate today =>
    obtain ⟨now, rfl, rfl⟩ := hallowed
    -- Whichever key it is given, the call becomes the newest entry.
    have hentered : ∀ given : Bytes, ∀ day key,
        (day, key) ∈ s.entered ++ [(DateOnly.fromDateTime now, given)] ↔
          ∃ call ∈ before ++ ⟨some now, some given⟩ :: after, call.IsEntry day key := by
      intro given day key
      have hself : (⟨some now, some given⟩ : Progress).IsEntry day key ↔
          (day, key) = (DateOnly.fromDateTime now, given) := by
        constructor
        · rintro ⟨_, hcall, rfl⟩
          obtain ⟨hnow, hkey⟩ := Progress.mk.inj hcall
          rw [Option.some.inj hnow, Option.some.inj hkey]
        · intro heq
          obtain ⟨rfl, rfl⟩ := Prod.mk.inj heq
          exact ⟨now, rfl, rfl⟩
      rw [List.mem_append, List.mem_singleton, exists_mem_middle, hself, hcalls,
        or_iff_right (Progress.not_isEntry rfl), or_comm]
    by_cases hday : DateOnly.fromDateTime now ≠ s.day
    · obtain ⟨hlen, hkey, rfl⟩ := (if_pos hday).mp heffect
      exact ⟨h.history.rotate hday hlen hkey, hentered answer⟩
    · obtain ⟨rfl, rfl⟩ := (if_neg hday).mp heffect
      refine ⟨?_, hentered s.key⟩
      rw [not_not.mp hday]
      exact h.history.keep

/-- The run lemma. -/
theorem inv_of_reachable {crypto : Crypto} {c : State} (h : (system crypto).Reachable c) :
    Inv c.shared (progress c) :=
  System.invariant_of_reachable (P := protocol) (follows_program crypto) Inv.start
    (fun _ _ _ hinv => hinv.spawn) (fun _ _ _ _ _ _ _ hallowed heffect hinv =>
      hinv.step hallowed heffect) h

/-! ### Days and keys

The headline is an equivalence, and the half of it that holds always is stated besides. -/

/-- Calls that read the clock on one day use one key, and calls that read it on different days use
different keys. It is about keys and not about what is made of them: different keys might still lead
to one digest, and nothing is assumed that rules this out. -/
def Correlated (calls : List Progress) : Prop :=
  ∀ call ∈ calls, ∀ other ∈ calls, ∀ now key now' key', call = ⟨some now, some key⟩ →
    other = ⟨some now', some key'⟩ →
      (DateOnly.fromDateTime now = DateOnly.fromDateTime now' ↔ key = key')

/-- **When hashes of a day are correlatable**, in every state of any number of calls that interleave
in any way: exactly if, in the order in which the calls took the lock, no day came back after
another one. Hashes of different days never are. What a finished call has returned is made with the
key that this is about. -/
theorem correlated_iff {crypto : Crypto} {c : State} (h : (system crypto).Reachable c) :
    (Correlated (progress c) ↔ (c.shared.entered.map Prod.fst).NoReturn) ∧
      (∀ call ∈ progress c, ∀ other ∈ progress c, ∀ now key now' key',
        call = ⟨some now, some key⟩ → other = ⟨some now', some key'⟩ →
          DateOnly.fromDateTime now ≠ DateOnly.fromDateTime now' → key ≠ key') ∧
      ∀ t ∈ c.threads, ∀ text, Task.Runs (hash crypto t.request) t.past (.ok text) →
        Hashed crypto t.request (t.phase protocol fun _ => .arrived) text := by
  obtain ⟨hhistory, hcalls⟩ := inv_of_reachable h
  have hentry : ∀ call ∈ progress c, ∀ now key, call = ⟨some now, some key⟩ →
      (DateOnly.fromDateTime now, key) ∈ c.shared.entered := by
    rintro _ hcall now key rfl
    exact (hcalls _ _).mpr ⟨_, hcall, now, rfl, rfl⟩
  have hdays : ∀ call ∈ progress c, ∀ other ∈ progress c, ∀ now key now' key',
      call = ⟨some now, some key⟩ → other = ⟨some now', some key'⟩ → key = key' →
        DateOnly.fromDateTime now = DateOnly.fromDateTime now' := by
    intro call hcall other hother now key now' key' hnow hnow' hkey
    exact hhistory.days _ (hentry call hcall now key hnow) _
      (hentry other hother now' key' hnow') hkey
  refine ⟨?_, fun call hcall other hother now key now' key' hnow hnow' hne hkey =>
    hne (hdays call hcall other hother now key now' key' hnow hnow' hkey), fun t _ text hruns =>
    (Prog.Follows.run follows_hash hruns).1 text rfl⟩
  rw [← hhistory.agree]
  constructor
  · rintro hcorrelated ⟨day, key⟩ hmem ⟨day', key'⟩ hmem' hday
    obtain ⟨call, hcall, now, rfl, rfl⟩ := (hcalls day key).mp hmem
    obtain ⟨other, hother, now', rfl, rfl⟩ := (hcalls day' key').mp hmem'
    exact (hcorrelated _ hcall _ hother now key now' key' rfl rfl).mp hday
  · intro hagree call hcall other hother now key now' key' hnow hnow'
    refine ⟨fun hday => ?_, hdays call hcall other hother now key now' key' hnow hnow'⟩
    exact hagree _ (hentry call hcall now key hnow) _ (hentry other hother now' key' hnow') hday

/-! ### Around midnight

Three calls: two read the clock before midnight and one after it, and the third takes the lock
between the other two. -/

def exampleCrypto : Crypto where
  getBytes s := s.map UInt16.toUInt8
  hashData key bytes := key ++ bytes

/-- A tick before midnight, and midnight. -/
def evening : DateTimeOffset := 1727999999999

def midnight : DateTimeOffset := 1728000000000

def exampleKey (b : UInt8) : Bytes := List.replicate 32 b

def exampleAddress : Option Str := some "192.0.2.1"

/-- What is left of a call once it has read the clock. -/
def afterRead (now : DateTimeOffset) : Prog Hasher Unit :=
  .call (.compareAndRotate (DateOnly.fromDateTime now)) fun _ => .done ()

def newCall : Thread Hasher (Option Str) := ⟨exampleAddress, [], .call .getUtcNow afterRead⟩

def readCall (now : DateTimeOffset) : Thread Hasher (Option Str) :=
  ⟨exampleAddress, [⟨.getUtcNow, now⟩], afterRead now⟩

def keyedCall (now : DateTimeOffset) (key : Bytes) : Thread Hasher (Option Str) :=
  ⟨exampleAddress, [⟨.getUtcNow, now⟩, ⟨.compareAndRotate (DateOnly.fromDateTime now), key⟩],
    .done ()⟩

variable {s : Shared} {now : DateTimeOffset} {k : Bytes}

theorem reachable_read (before after : List (Thread Hasher (Option Str))) (hclock : s.now ≤ now)
    (h : (system exampleCrypto).Reachable ⟨s, before ++ newCall :: after⟩) :
    (system exampleCrypto).Reachable ⟨{ s with now := now }, before ++ readCall now :: after⟩ :=
  System.Reachable.steps h (@Prog.Steps.call Hasher _ .getUtcNow afterRead _ _ now (.refl _))
    (.cons ⟨hclock, rfl⟩ (.nil _))

theorem reachable_lock {s' : Shared} (before after : List (Thread Hasher (Option Str)))
    (heffect : effect s ⟨.compareAndRotate (DateOnly.fromDateTime now), k⟩ s')
    (h : (system exampleCrypto).Reachable ⟨s, before ++ readCall now :: after⟩) :
    (system exampleCrypto).Reachable ⟨s', before ++ keyedCall now k :: after⟩ :=
  System.Reachable.steps h
    (@Prog.Steps.call Hasher _ (.compareAndRotate _) (fun _ => .done ()) _ _ k (.refl _))
    (.cons heffect (.nil _))

theorem effect_rotate (hday : DateOnly.fromDateTime now ≠ s.day) (hlen : k.length = 32)
    (hkey : k ∉ s.generated) :
    effect s ⟨.compareAndRotate (DateOnly.fromDateTime now), k⟩ { s with
      day := DateOnly.fromDateTime now
      key := k
      generated := k :: s.generated
      entered := s.entered ++ [(DateOnly.fromDateTime now, k)] } :=
  (if_pos hday).mpr ⟨hlen, hkey, rfl⟩

theorem effect_keep (hday : DateOnly.fromDateTime now = s.day) :
    effect s ⟨.compareAndRotate (DateOnly.fromDateTime now), s.key⟩
      { s with entered := s.entered ++ [(DateOnly.fromDateTime now, s.key)] } :=
  (if_neg (not_not.mpr hday)).mpr ⟨rfl, rfl⟩

/-- Two of three calls have read the clock in the evening, and one of them has its key. -/
theorem reachable_evening : (system exampleCrypto).Reachable
    ⟨⟨1, exampleKey 1, evening, [exampleKey 1], [(1, exampleKey 1)]⟩,
      [keyedCall evening (exampleKey 1), readCall evening, newCall]⟩ := by
  have hspawned : (system exampleCrypto).Reachable ⟨{}, [newCall, newCall, newCall]⟩ :=
    ((Relation.ReflTransGen.refl.tail (.spawn _ exampleAddress)).tail
      (.spawn _ exampleAddress)).tail (.spawn _ exampleAddress)
  have hfst : (0 : ℤ) ≤ evening := by decide
  have hread := reachable_read [readCall evening] [newCall] le_rfl
    (reachable_read [] [newCall, newCall] hfst hspawned)
  exact reachable_lock [] [readCall evening, newCall]
    (effect_rotate (by decide) (by decide) (by decide)) hread

/-- The other call of the evening gets the same key if it takes the lock next. -/
theorem correlated_evening :
    ∃ c, (system exampleCrypto).Reachable c ∧
      progress c = [⟨some evening, some (exampleKey 1)⟩, ⟨some evening, some (exampleKey 1)⟩,
        .arrived] ∧
      Correlated (progress c) := by
  have h := reachable_lock [keyedCall evening (exampleKey 1)] [newCall] (effect_keep (by decide))
    reachable_evening
  refine ⟨_, h, rfl, (correlated_iff h).1.mpr fun day other hne hsub => ?_⟩
  exact absurd hsub.length_le (by simp)

/-- A call of the next day takes the lock in between: one day, two keys. -/
theorem midnight_splits_evening :
    ∃ c, (system exampleCrypto).Reachable c ∧
      progress c = [⟨some evening, some (exampleKey 1)⟩, ⟨some evening, some (exampleKey 3)⟩,
        ⟨some midnight, some (exampleKey 2)⟩] ∧
      ¬ Correlated (progress c) := by
  have hmidnight : evening ≤ midnight := by decide
  have hread := reachable_read [keyedCall evening (exampleKey 1), readCall evening] [] hmidnight
    reachable_evening
  have hlock := reachable_lock [keyedCall evening (exampleKey 1), readCall evening] []
    (effect_rotate (k := exampleKey 2) (by decide) (by decide) (by decide)) hread
  have h := reachable_lock [keyedCall evening (exampleKey 1)]
    [keyedCall midnight (exampleKey 2)]
    (effect_rotate (k := exampleKey 3) (by decide) (by decide) (by decide)) hlock
  refine ⟨_, h, rfl, ?_⟩
  show ¬ Correlated [⟨some evening, some (exampleKey 1)⟩, ⟨some evening, some (exampleKey 3)⟩,
    ⟨some midnight, some (exampleKey 2)⟩]
  intro hcorrelated
  have hkeys := hcorrelated _ (.head _) _ (.tail _ (.head _)) evening _ evening _ rfl rfl
  exact absurd (hkeys.mp rfl) (by decide)

end ClientIpHasher

end LookingGlass
