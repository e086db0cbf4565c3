import Mathlib.Data.Int.Basic
import Mathlib.Data.List.Nodup
import Mathlib.Data.List.Perm.Basic
import Mathlib.Tactic.Common

/-!
# The chart of the replies

A ping is drawn as one place for each probe: a bar for the time of its reply, or a cross where no
reply came. A reply says which probe it answers, and that is how it finds its place; a place that
finds none takes the reply at the same position of the list.

The second way is meant for replies without usable numbers. Where the numbers are right, it makes a
lost probe look answered as soon as there are enough replies. So the crosses are where they belong
only if no probe was answered after one that was lost.

What a time is does not matter here, only whether there is one.

## Places

The number of places is the number of probes, or that of the replies if there are more of those. The
map from numbers to replies keeps the last of several replies with one number. Where the numbers are
distinct and in range, neither matters.

Then a place of a probe that was answered shows the time of its reply. A place of a probe that was
lost shows the reply at that position of the list, if the list is so long. The list has as many
replies as there were answers. So all the lost probes have to come after that many places, which
means that they are the last ones.

## Main results

* `ReplyBars.marksLost_iff` — when the crosses are those of the lost probes
-/

namespace LookingGlass

namespace ReplyBars

variable {Time : Type}

/-- The parts of a reply that are drawn. -/
structure PingReply (Time : Type) where
  seq : ℤ
  timeMs : Option Time

/-- What is drawn at one place: a cross, or a bar for a time. -/
inductive Mark (Time : Type) where
  | noReply
  | bar (time : Time)

def Mark.isNoReply : Mark Time → Bool
  | .noReply => true
  | .bar _ => false

def count (replies : List (PingReply Time)) (transmitted : ℕ) : ℕ :=
  max (max transmitted replies.length) 1

/-- The map from sequence numbers to replies: the last one counts. -/
def bySeq (replies : List (PingReply Time)) (seq : ℤ) : Option (PingReply Time) :=
  replies.reverse.find? fun reply => reply.seq == seq

def slots (replies : List (PingReply Time)) (transmitted : ℕ) : List (Option (PingReply Time)) :=
  (List.range (count replies transmitted)).map fun (i : ℕ) => bySeq replies (i + 1) <|> replies[i]?

/-- A reply without a time is drawn like no reply. -/
def mark (reply : Option (PingReply Time)) : Mark Time :=
  match reply.bind PingReply.timeMs with
  | none => .noReply
  | some time => .bar time

def marks (replies : List (PingReply Time)) (transmitted : ℕ) : List (Mark Time) :=
  (slots replies transmitted).map mark

/-- As the caption says: a cross marks a lost probe. Place `i` is that of probe `i + 1`. Every reply
is to be shown at its own place, every other place is to have a cross, and the crosses are to be as
many as the lost probes. -/
structure MarksLost (transmitted : ℕ) (replies : List (PingReply Time))
    (marks : List (Mark Time)) : Prop where
  length : marks.length = transmitted
  shown : ∀ (i : ℕ), ∀ reply ∈ replies, reply.seq = i + 1 →
    ∃ time, reply.timeMs = some time ∧ marks[i]? = some (.bar time)
  lost : ∀ i < transmitted, (∀ reply ∈ replies, reply.seq ≠ i + 1) → marks[i]? = some .noReply
  crosses : marks.countP Mark.isNoReply + replies.length = transmitted

variable {replies : List (PingReply Time)} {transmitted i : ℕ}

/-! ### Finding a reply

With distinct numbers the map is a partial inverse of taking the number of a reply. -/

theorem bySeq_eq_none {seq : ℤ} (h : ∀ reply ∈ replies, reply.seq ≠ seq) :
    bySeq replies seq = none := by
  refine List.find?_eq_none.mpr fun reply hreply => ?_
  simpa using h reply (List.mem_reverse.mp hreply)

/-- Distinct numbers: a reply is found under its own. -/
theorem bySeq_eq_some (hdistinct : (replies.map PingReply.seq).Nodup) {reply : PingReply Time}
    (h : reply ∈ replies) : bySeq replies reply.seq = some reply := by
  cases hfind : bySeq replies reply.seq with
  | none =>
    have hnot := List.find?_eq_none.mp hfind reply (List.mem_reverse.mpr h)
    exact absurd hnot (by simp)
  | some found =>
    have hmem := List.mem_reverse.mp (List.mem_of_find?_eq_some hfind)
    have hseq : found.seq = reply.seq := by simpa using List.find?_some hfind
    rw [List.inj_on_of_nodup_map hdistinct hmem h hseq]

/-- The probes that were answered are as many as the replies. -/
theorem countP_answered (hdistinct : (replies.map PingReply.seq).Nodup)
    (hrange : ∀ reply ∈ replies, 1 ≤ reply.seq ∧ reply.seq ≤ transmitted) :
    (List.range transmitted).countP (fun (i : ℕ) => ((i : ℤ) + 1) ∈ replies.map PingReply.seq) =
      replies.length := by
  have hperm : (((List.range transmitted).map fun (i : ℕ) => (i : ℤ) + 1).filter
      (· ∈ replies.map PingReply.seq)).Perm (replies.map PingReply.seq) := by
    have hnodup : ((List.range transmitted).map fun (i : ℕ) => (i : ℤ) + 1).Nodup := by
      refine List.Nodup.map (fun a b hab => ?_) List.nodup_range
      omega
    refine (List.perm_ext_iff_of_nodup (hnodup.filter _) hdistinct).mpr fun seq => ?_
    rw [List.mem_filter, decide_eq_true_eq]
    refine and_iff_right_of_imp fun hseq => ?_
    obtain ⟨reply, hreply, rfl⟩ := List.mem_map.mp hseq
    obtain ⟨hlow, hhigh⟩ := hrange reply hreply
    refine List.mem_map.mpr ⟨(reply.seq - 1).toNat, List.mem_range.mpr ?_, ?_⟩
    · omega
    · omega
  have hlength := hperm.length_eq
  rw [List.length_map, ← List.countP_eq_length_filter, List.countP_map] at hlength
  exact hlength

theorem count_eq (hpos : 1 ≤ transmitted) (hdistinct : (replies.map PingReply.seq).Nodup)
    (hrange : ∀ reply ∈ replies, 1 ≤ reply.seq ∧ reply.seq ≤ transmitted) :
    count replies transmitted = transmitted := by
  have hle : replies.length ≤ transmitted := by
    have hcount := List.countP_le_length (l := List.range transmitted)
      (p := fun (i : ℕ) => ((i : ℤ) + 1) ∈ replies.map PingReply.seq)
    rwa [countP_answered hdistinct hrange, List.length_range] at hcount
  rw [count, Nat.max_eq_left hle, Nat.max_eq_left hpos]

/-! ### What is drawn

Place by place, and then the crosses are counted. -/

theorem length_marks : (marks replies transmitted).length = count replies transmitted := by
  rw [marks, slots, List.length_map, List.length_map, List.length_range]

theorem getElem?_marks (h : i < count replies transmitted) :
    (marks replies transmitted)[i]? = some (mark (bySeq replies (i + 1) <|> replies[i]?)) := by
  rw [marks, slots, List.getElem?_map, List.getElem?_map, List.getElem?_range h]
  rfl

theorem mark_eq_noReply_iff {reply : Option (PingReply Time)} :
    mark reply = .noReply ↔ reply.bind PingReply.timeMs = none := by
  unfold mark
  split <;> simp_all

theorem mark_some {reply : PingReply Time} {time : Time} (h : reply.timeMs = some time) :
    mark (some reply) = .bar time := by
  simp [mark, h]

/-- The place of an answered probe. -/
theorem slot_of_answered (hdistinct : (replies.map PingReply.seq).Nodup) {reply : PingReply Time}
    (h : reply ∈ replies) (hseq : reply.seq = i + 1) :
    (bySeq replies (i + 1) <|> replies[i]?) = some reply := by
  rw [← hseq, bySeq_eq_some hdistinct h]
  rfl

/-- The place of a lost probe: what is drawn there is at the same position of the list. -/
theorem slot_of_lost (h : ∀ reply ∈ replies, reply.seq ≠ i + 1) :
    (bySeq replies (i + 1) <|> replies[i]?) = replies[i]? := by
  rw [bySeq_eq_none h]
  rfl

/-- Where every place shows what it should, there are as many crosses as lost probes. -/
theorem countP_isNoReply (hpos : 1 ≤ transmitted)
    (hdistinct : (replies.map PingReply.seq).Nodup)
    (hrange : ∀ reply ∈ replies, 1 ≤ reply.seq ∧ reply.seq ≤ transmitted)
    (hlast : ∀ i < transmitted, (∀ reply ∈ replies, reply.seq ≠ i + 1) → replies.length ≤ i)
    (htimes : ∀ reply ∈ replies, reply.timeMs ≠ none) :
    (marks replies transmitted).countP Mark.isNoReply + replies.length = transmitted := by
  have hcount := count_eq hpos hdistinct hrange
  have hplace (i : ℕ) (hi : i ∈ List.range transmitted) :
      (mark (bySeq replies (i + 1) <|> replies[i]?)).isNoReply = true ↔
        ¬ decide (((i : ℤ) + 1) ∈ replies.map PingReply.seq) = true := by
    rw [decide_eq_true_eq, List.mem_map]
    by_cases hanswered : ∃ reply ∈ replies, reply.seq = i + 1
    · obtain ⟨reply, hreply, hseq⟩ := hanswered
      obtain ⟨time, htime⟩ := Option.ne_none_iff_exists'.mp (htimes reply hreply)
      rw [slot_of_answered hdistinct hreply hseq, mark_some htime]
      exact iff_of_false (by simp [Mark.isNoReply]) (not_not.mpr ⟨reply, hreply, hseq⟩)
    · have hlost : ∀ reply ∈ replies, reply.seq ≠ i + 1 := by simpa using hanswered
      have hnone := List.getElem?_eq_none (hlast i (List.mem_range.mp hi) hlost)
      rw [slot_of_lost hlost, hnone]
      exact iff_of_true rfl hanswered
  have hcrosses : (marks replies transmitted).countP Mark.isNoReply =
      (List.range transmitted).countP
        fun (i : ℕ) => ¬ decide (((i : ℤ) + 1) ∈ replies.map PingReply.seq) := by
    rw [marks, slots, hcount, List.map_map, List.countP_map]
    exact List.countP_congr fun i hi => (hplace i hi).trans decide_eq_true_iff.symm
  have hall := List.length_eq_countP_add_countP (l := List.range transmitted)
    (fun (i : ℕ) => decide (((i : ℤ) + 1) ∈ replies.map PingReply.seq))
  rw [countP_answered hdistinct hrange, List.length_range] at hall
  omega

/-- **The crosses mark the lost probes** if and only if every reply has a time and the lost probes
are the last ones: no place of a lost probe is among the first, as many as there are replies. -/
theorem marksLost_iff (hpos : 1 ≤ transmitted) (hdistinct : (replies.map PingReply.seq).Nodup)
    (hrange : ∀ reply ∈ replies, 1 ≤ reply.seq ∧ reply.seq ≤ transmitted) :
    MarksLost transmitted replies (marks replies transmitted) ↔
      (∀ i < transmitted, (∀ reply ∈ replies, reply.seq ≠ i + 1) → replies.length ≤ i) ∧
        ∀ reply ∈ replies, reply.timeMs ≠ none := by
  have hcount := count_eq hpos hdistinct hrange
  have hplace (i : ℕ) (hi : i < transmitted) := getElem?_marks (hcount.symm ▸ hi)
  constructor
  · intro h
    have htimes : ∀ reply ∈ replies, reply.timeMs ≠ none := by
      intro reply hreply
      obtain ⟨hlow, -⟩ := hrange reply hreply
      obtain ⟨time, htime, -⟩ := h.shown (reply.seq - 1).toNat reply hreply (by omega)
      rw [htime]
      exact Option.some_ne_none time
    refine ⟨fun i hi hlost => ?_, htimes⟩
    -- A reply at this position would be drawn in place of the cross.
    by_contra hlt
    have hcross := h.lost i hi hlost
    rw [hplace i hi, slot_of_lost hlost, List.getElem?_eq_getElem (not_le.mp hlt)] at hcross
    exact htimes _ (List.getElem_mem _) (mark_eq_noReply_iff.mp (Option.some.inj hcross))
  · rintro ⟨hlast, htimes⟩
    refine ⟨length_marks.trans hcount, fun i reply hreply hseq => ?_, fun i hi hlost => ?_,
      countP_isNoReply hpos hdistinct hrange hlast htimes⟩
    · obtain ⟨time, htime⟩ := Option.ne_none_iff_exists'.mp (htimes reply hreply)
      have hi : i < transmitted := by
        obtain ⟨-, hhigh⟩ := hrange reply hreply
        omega
      refine ⟨time, htime, ?_⟩
      rw [hplace i hi, slot_of_answered hdistinct hreply hseq, mark_some htime]
    · rw [hplace i hi, slot_of_lost hlost, List.getElem?_eq_none (hlast i hi hlost)]
      rfl

/-- The second of three probes is lost, and its place shows the time of the third. -/
theorem not_marksLost_of_gap :
    (marks [⟨1, some 10⟩, ⟨3, some 30⟩] 3)[1]? = some (.bar 30) ∧
      ¬ MarksLost 3 [⟨1, some 10⟩, ⟨3, some 30⟩] (marks [⟨1, some 10⟩, ⟨3, some 30⟩] 3) := by
  have hbar : (marks [⟨1, some 10⟩, ⟨3, some 30⟩] 3)[1]? = some (.bar 30) := by rfl
  refine ⟨hbar, fun h => ?_⟩
  have hcross := h.lost 1 (by omega) (by simp)
  rw [hbar] at hcross
  exact absurd (Option.some.inj hcross) (by simp)

/-- Replies out of order, and the last probe lost. -/
theorem marksLost_of_last :
    MarksLost 3 [⟨2, some 20⟩, ⟨1, some 10⟩] (marks [⟨2, some 20⟩, ⟨1, some 10⟩] 3) := by
  refine (marksLost_iff (by omega) (by simp) (by simp)).mpr ⟨fun i hi hlost => ?_, by simp⟩
  simp only [List.forall_mem_cons, List.not_mem_nil] at hlost
  simp
  omega

end ReplyBars

end LookingGlass
