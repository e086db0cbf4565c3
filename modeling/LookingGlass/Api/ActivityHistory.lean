import LookingGlass.Api.ActivityLog
import LookingGlass.Foundations.SlidingWindow

/-!
# What the activity log remembers

The log is pruned by age whenever it is used, and cut at its cap whenever something is added. Here
it is compared with a log that drops nothing: the items that were ever added, newest first. As long
as the clock does not run backwards, a snapshot shows what is recent of these.

The calls take turns, since each of them holds the log's lock while it reads the clock and works on
the items. What the clock shows is therefore non-decreasing over all the readings, in the order of
the calls, and not only within one call.

## The log that drops nothing

`added` is not part of the program. It is what a reader of the endpoint has in mind: the diagnostics
that were run, in the order in which they were added. The program keeps an end of it only, and the
question is whether anybody can tell. Nobody can, because the cutoff is the reading of a clock less
a constant, and the next reading is not an earlier one. An item that is dropped for its age is too
old for every snapshot to come, and one that is dropped for the cap has as many newer ones in front
of it as a snapshot may show.

That the clock does not go back is a hypothesis here and an assumption of the code. With a clock
that is set back, a snapshot may miss items that were dropped while it was ahead.

## Main results

* `ActivityLog.shows_run` — the items that are kept answer every later question
* `ActivityLog.snapshot_run` — a snapshot shows the recent items, all of them and no others
-/

namespace LookingGlass

namespace ActivityLog

open Utf16 SlidingWindow

/-- A call, with what the clock shows while it is answered. An addition reads the clock twice, once
for the cutoff and once for the item. -/
inductive Call where
  | add (type target summary : Str) (pruneNow itemNow : DateTimeOffset)
  | snapshot (now : DateTimeOffset)

namespace Call

def readings : Call → List DateTimeOffset
  | .add _ _ _ pruneNow itemNow => [pruneNow, itemNow]
  | .snapshot now => [now]

def item? : Call → Option ActivityItem
  | .add type target summary _ itemNow => some ⟨type, target, summary, itemNow⟩
  | .snapshot _ => none

end Call

/-- Every item that was ever added, newest first. -/
def added (calls : List Call) : List ActivityItem :=
  (calls.filterMap Call.item?).reverse

variable (settings : ActivityOptions)

def cutoff (now : DateTimeOffset) : DateTimeOffset :=
  now - settings.retentionMinutes * ticksPerMinute

def step (items : List ActivityItem) : Call → List ActivityItem
  | .add type target summary pruneNow itemNow =>
    add settings type target summary pruneNow itemNow items
  | .snapshot now => (snapshot settings now items).2

/-- The items that are kept after the calls. -/
def run (calls : List Call) : List ActivityItem :=
  calls.foldl (step settings) []

variable {settings} {now : DateTimeOffset} {items history : List ActivityItem} {calls : List Call}

/-! ### Single calls

Both calls prune first. In the words of the sliding window, that is a `since` with the cutoff of the
moment. -/

theorem cutoff_le_cutoff {earlier : DateTimeOffset} (h : earlier ≤ now) :
    cutoff settings earlier ≤ cutoff settings now :=
  Int.sub_le_sub_right h _

theorem prune_eq_since (now : DateTimeOffset) (items : List ActivityItem) :
    prune settings now items = since ActivityItem.addedAt (cutoff settings now) items := by
  rw [prune, since]
  congr 1
  funext item
  rw [cutoff, ← decide_not]
  exact decide_eq_decide.mpr not_lt

theorem add_of_enabled (h : settings.enabled = true) (type target summary : Str)
    (pruneNow itemNow : DateTimeOffset) (items : List ActivityItem) :
    add settings type target summary pruneNow itemNow items =
      (⟨type, target, summary, itemNow⟩ :: prune settings pruneNow items).take
        settings.maxItems := by
  simp only [add, h, Bool.not_true, if_neg Bool.false_ne_true]
  split
  · rfl
  · next hroom => exact (List.take_of_length_le (not_lt.mp hroom)).symm

theorem snapshot_of_enabled (h : settings.enabled = true) (now : DateTimeOffset)
    (items : List ActivityItem) :
    snapshot settings now items =
      (⟨true, prune settings now items⟩, prune settings now items) := by
  simp only [snapshot, h, Bool.not_true, if_neg Bool.false_ne_true]

/-! ### The items that were ever added

Newest first, and ordered by time as long as the clock shows one reading after the other. -/

theorem added_concat_add (type target summary : Str) (pruneNow itemNow : DateTimeOffset) :
    added (calls ++ [.add type target summary pruneNow itemNow]) =
      ⟨type, target, summary, itemNow⟩ :: added calls := by
  simp [added, Call.item?]

theorem added_concat_snapshot (now : DateTimeOffset) :
    added (calls ++ [.snapshot now]) = added calls := by
  simp [added, Call.item?]

/-- The time of an item is what the clock showed during a call. -/
theorem addedAt_mem_readings {item : ActivityItem} (h : item ∈ added calls) :
    item.addedAt ∈ calls.flatMap Call.readings := by
  obtain ⟨call, hcall, hitem⟩ := List.mem_filterMap.mp (List.mem_reverse.mp h)
  refine List.mem_flatMap.mpr ⟨call, hcall, ?_⟩
  cases call with
  | add type target summary pruneNow itemNow =>
    obtain rfl := Option.some.inj hitem
    simp [Call.readings]
  | snapshot now => exact absurd hitem (by simp [Call.item?])

theorem newestFirst_added (hclock : (calls.flatMap Call.readings).Pairwise (· ≤ ·)) :
    NewestFirst ActivityItem.addedAt (added calls) := by
  induction calls using List.reverseRecOn with
  | nil => exact List.Pairwise.nil
  | append_singleton calls call ih =>
    rw [List.flatMap_append, List.flatMap_singleton] at hclock
    obtain ⟨hbefore, -, hcall⟩ := List.pairwise_append.mp hclock
    cases call with
    | add type target summary pruneNow itemNow =>
      rw [added_concat_add]
      refine List.pairwise_cons.mpr ⟨fun item hitem => ?_, ih hbefore⟩
      exact hcall _ (addedAt_mem_readings hitem) itemNow (by simp [Call.readings])
    | snapshot now =>
      rw [added_concat_snapshot]
      exact ih hbefore

/-! ### All calls

By induction over the calls from the first to the last: what is kept shows the history, before a
call and after it. -/

/-- **The items that are kept answer every question that is still to come**: by induction on the
calls, from the first to the last. -/
theorem shows_run (h : settings.enabled = true)
    (hclock : (calls.flatMap Call.readings ++ [now]).Pairwise (· ≤ ·)) :
    Shows ActivityItem.addedAt settings.maxItems (cutoff settings now) (run settings calls)
      (added calls) := by
  induction calls using List.reverseRecOn generalizing now with
  | nil => exact Shows.nil _
  | append_singleton calls call ih =>
    have hreadings : (calls.flatMap Call.readings ++ call.readings).Pairwise (· ≤ ·) := by
      simpa using (List.pairwise_append.mp hclock).1
    have hlast : ∀ reading ∈ call.readings, reading ≤ now := by
      intro reading hreading
      refine (List.pairwise_append.mp hclock).2.2 reading ?_ now (by simp)
      rw [List.flatMap_append, List.flatMap_singleton]
      exact List.mem_append_right _ hreading
    have hrun : run settings (calls ++ [call]) = step settings (run settings calls) call := by
      rw [run, List.foldl_append, List.foldl_cons, List.foldl_nil, run]
    rw [hrun]
    cases call with
    | add type target summary pruneNow itemNow =>
      have hprune : (calls.flatMap Call.readings ++ [pruneNow]).Pairwise (· ≤ ·) :=
        hreadings.sublist ((List.Sublist.refl _).append (by simp [Call.readings]))
      have hordered : NewestFirst ActivityItem.addedAt
          (added (calls ++ [.add type target summary pruneNow itemNow])) := by
        refine newestFirst_added ?_
        rwa [List.flatMap_append, List.flatMap_singleton]
      rw [added_concat_add] at hordered ⊢
      rw [step, add_of_enabled h, prune_eq_since]
      exact ((ih hprune).prune.add hordered).mono
        (cutoff_le_cutoff (hlast pruneNow (by simp [Call.readings])))
    | snapshot earlier =>
      rw [added_concat_snapshot, step, snapshot_of_enabled h, prune_eq_since]
      exact (ih hreadings).prune.mono (cutoff_le_cutoff (hlast earlier (by simp [Call.readings])))

/-- **A snapshot shows the most recently added items that are not too old**, as many as the cap
allows, newest first: none of them is lost while it is within both limits. -/
theorem snapshot_run (h : settings.enabled = true)
    (hclock : (calls.flatMap Call.readings ++ [now]).Pairwise (· ≤ ·)) :
    (snapshot settings now (run settings calls)).1 =
      ⟨true, recent ActivityItem.addedAt settings.maxItems
        (now - settings.retentionMinutes * ticksPerMinute) (added calls)⟩ := by
  rw [snapshot_of_enabled h, prune_eq_since, (shows_run h hclock).reads _ le_rfl, cutoff]

/-- Three items where there is room for two: the first of them has gone. -/
theorem snapshot_run_of_three :
    (snapshot { maxItems := 2, retentionMinutes := 10 } 4
      (run { maxItems := 2, retentionMinutes := 10 }
        [.add [] [] (ofString "1") 1 1, .add [] [] (ofString "2") 2 2, .snapshot 2,
          .add [] [] (ofString "3") 3 3])).1.items =
      [⟨[], [], ofString "3", 3⟩, ⟨[], [], ofString "2", 2⟩] := by
  rw [snapshot_run]
  · decide
  · rfl
  · decide

end ActivityLog

end LookingGlass
