import LookingGlass.Contracts.Models

/-!
# The activity log

A short list of the last diagnostics that were run, newest first. It is limited twice: by the number
of its items and by their age, which is looked at before anything else is done with the list.

The clock is read once to look at the ages and once more for the time of the new item.

## The lock

Both methods hold one lock for all of their body, so a call is one step, and the list is passed
through it as a value. Nothing else is shared: the settings are read once when the service starts
and do not change, which is why they are a parameter and not a part of the state.

An item is `not older than` the cutoff if its time is not less. The comparison is written the way
the source writes it, with a negation, and so an item that is exactly as old as the limit stays.

A log that is switched off does nothing and says so: the response has a flag, and its list is empty
whatever was kept before.
-/

namespace LookingGlass

open Utf16

/-- The options are checked against ranges at the start; all that matters here is that neither limit
is zero. -/
structure ActivityOptions where
  enabled : Bool := true
  retentionMinutes : ℕ := 60
  maxItems : ℕ := 10
  retentionMinutes_pos : 1 ≤ retentionMinutes := by decide
  maxItems_pos : 1 ≤ maxItems := by decide

structure ActivityItem where
  type : Str
  target : Str
  summary : Str
  addedAt : DateTimeOffset
  deriving DecidableEq

structure ActivityResponse where
  enabled : Bool
  items : List ActivityItem := []

namespace ActivityLog

variable (settings : ActivityOptions)

def ticksPerMinute : ℤ := 600000000

/-- What is not older than the retention, in the order it had. The source removes the others in
place. -/
def prune (now : DateTimeOffset) (items : List ActivityItem) : List ActivityItem :=
  let cutoff := now - settings.retentionMinutes * ticksPerMinute
  items.filter fun item => !decide (item.addedAt < cutoff)

/-- The clock shows `pruneNow` first and `itemNow` then. -/
def add (type target summary : Str) (pruneNow itemNow : DateTimeOffset)
    (items : List ActivityItem) : List ActivityItem :=
  if !settings.enabled then items
  else
    let items := ⟨type, target, summary, itemNow⟩ :: prune settings pruneNow items
    if items.length > settings.maxItems then items.take settings.maxItems else items

/-- The response, and the items that are left: looking at the log prunes it, too. -/
def snapshot (now : DateTimeOffset) (items : List ActivityItem) :
    ActivityResponse × List ActivityItem :=
  if !settings.enabled then (⟨false, []⟩, items)
  else
    let items := prune settings now items
    (⟨true, items⟩, items)

variable {settings}

/-- **A log that is enabled takes in the new item**, in front of some of those it had. -/
theorem exists_add_eq_cons (h : settings.enabled = true) (type target summary : Str)
    (pruneNow itemNow : DateTimeOffset) (items : List ActivityItem) :
    ∃ kept, kept.Sublist items ∧
      add settings type target summary pruneNow itemNow items =
        ⟨type, target, summary, itemNow⟩ :: kept := by
  obtain ⟨room, hroom⟩ : ∃ room, settings.maxItems = room + 1 :=
    Nat.exists_eq_add_of_le' settings.maxItems_pos
  have hpruned : (prune settings pruneNow items).Sublist items := List.filter_sublist
  simp only [add, h, Bool.not_true, if_neg Bool.false_ne_true, List.length_cons]
  by_cases hfull : (prune settings pruneNow items).length + 1 > settings.maxItems
  · refine ⟨(prune settings pruneNow items).take room, (List.take_sublist _ _).trans hpruned, ?_⟩
    rw [if_pos hfull, hroom, List.take_succ_cons]
  · exact ⟨_, hpruned, if_neg hfull⟩

end ActivityLog

end LookingGlass
