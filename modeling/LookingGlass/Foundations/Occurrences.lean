import Mathlib.Data.List.Infix
import Mathlib.Tactic.Common

/-!
# Where a text occurs in another

The positions at which one list occurs in another, the first and the last of them, and the first two
pieces that the occurrences cut the list into. Occurrences may overlap: `::` occurs twice in `:::`.

An occurrence is a way of writing the list as `l ++ part ++ r`. So what is to be known about
positions is said about such `l`, and the positions are gone after that.

## Positions and pieces

Code asks for positions: the first occurrence, the last one, whether these are the same. What the
code is after is the pieces, and the positions are a detour, as is the arithmetic with lengths by
which one gets from one to the other. `mem_occurrences` does this arithmetic once.

A split at a text of several characters is not the split of a list at an element. The occurrences
that count are those that do not overlap the one before, and only the first two pieces are ever
asked for here, so `cut` yields these.

## Main results

* `Occurrences.indexOf_eq_lastIndexOf_iff` — the first occurrence is the last one
* `Occurrences.lastIndexOf_append_cons` — the last occurrence of one element
* `Occurrences.cut_of_unique` — the pieces on both sides of a single occurrence
-/

namespace Occurrences

section Sorted

variable {ns : List ℕ} {m : ℕ}

theorem head?_eq_some_of_le (hsorted : ns.Pairwise (· < ·)) (hm : m ∈ ns) (hle : ∀ n ∈ ns, m ≤ n) :
    ns.head? = some m := by
  cases ns with
  | nil => exact absurd hm List.not_mem_nil
  | cons n ns =>
    rcases List.mem_cons.mp hm with rfl | hmem
    · rfl
    · have hlt := List.rel_of_pairwise_cons hsorted hmem
      have hge := hle n (List.mem_cons_self ..)
      omega

theorem getLast?_eq_some_of_le (hsorted : ns.Pairwise (· < ·)) (hm : m ∈ ns)
    (hle : ∀ n ∈ ns, n ≤ m) : ns.getLast? = some m := by
  have hne : ns ≠ [] := List.ne_nil_of_mem hm
  obtain ⟨init, last, rfl⟩ := List.eq_nil_or_concat ns |>.resolve_left hne
  rw [List.concat_eq_append] at *
  rw [List.getLast?_concat]
  rcases List.mem_append.mp hm with hinit | hlast
  · have hlt := (List.pairwise_append.mp hsorted).2.2 m hinit last (List.mem_singleton_self last)
    have hge := hle last (by simp)
    omega
  · rw [List.mem_singleton.mp hlast]

end Sorted

variable {α : Type} [BEq α] [LawfulBEq α] {part s l r : List α}

/-- The positions at which `part` occurs in `s`, in order. The empty list occurs everywhere, at the
end as well. -/
def occurrences (part s : List α) : List ℕ :=
  (List.range (s.length + 1)).filter fun i => part.isPrefixOf (s.drop i)

/-- The first position; `none` if there is none. -/
def indexOf (part s : List α) : Option ℕ := (occurrences part s).head?

/-- The last position; `none` if there is none. -/
def lastIndexOf (part s : List α) : Option ℕ := (occurrences part s).getLast?

/-- The piece before the first occurrence, and the piece from there to the next one. -/
def cut (part s : List α) : List α × List α :=
  match indexOf part s with
  | none => (s, [])
  | some i =>
    let rest := s.drop (i + part.length)
    (s.take i, rest.take ((indexOf part rest).getD rest.length))

theorem mem_occurrences {i : ℕ} :
    i ∈ occurrences part s ↔ ∃ l r, s = l ++ part ++ r ∧ l.length = i := by
  rw [occurrences, List.mem_filter, List.mem_range, List.isPrefixOf_iff_prefix]
  constructor
  · rintro ⟨hi, r, hr⟩
    refine ⟨s.take i, r, ?_, by rw [List.length_take]; omega⟩
    rw [List.append_assoc, hr, List.take_append_drop]
  · rintro ⟨l, r, rfl, rfl⟩
    refine ⟨by simp only [List.length_append]; omega, r, ?_⟩
    rw [List.append_assoc, List.drop_left]

omit [LawfulBEq α] in
theorem occurrences_sorted (part s : List α) : (occurrences part s).Pairwise (· < ·) :=
  List.pairwise_lt_range.filter _

theorem indexOf_eq_none_iff : indexOf part s = none ↔ ∀ l r, s ≠ l ++ part ++ r := by
  rw [indexOf, List.head?_eq_none_iff, List.eq_nil_iff_forall_not_mem]
  constructor
  · intro h l r hs
    exact h l.length (mem_occurrences.mpr ⟨l, r, hs, rfl⟩)
  · intro h i hi
    obtain ⟨l, r, hs, -⟩ := mem_occurrences.mp hi
    exact h l r hs

/-- `part` occurs in `s` at most once: two ways to write `s` around it are the same one. Occurrences
that overlap are different ones here. -/
def AtMostOnce (part s : List α) : Prop :=
  ∀ l r l' r', s = l ++ part ++ r → s = l' ++ part ++ r' → l = l'

/-- **The first occurrence is the last one** exactly if there is at most one. -/
theorem indexOf_eq_lastIndexOf_iff : indexOf part s = lastIndexOf part s ↔ AtMostOnce part s := by
  constructor
  · intro h l r l' r' hs hs'
    have hmem := mem_occurrences.mpr ⟨l, r, hs, rfl⟩
    have hmem' := mem_occurrences.mpr ⟨l', r', hs', rfl⟩
    -- In an ordered list whose ends agree there is one element.
    have hsingle : ∀ i ∈ occurrences part s, ∀ j ∈ occurrences part s, i = j := by
      have hsorted := occurrences_sorted part s
      rw [indexOf, lastIndexOf] at h
      generalize occurrences part s = ns at h hsorted
      cases ns with
      | nil => exact fun i hi => absurd hi List.not_mem_nil
      | cons n ns =>
        cases ns with
        | nil => simp
        | cons k ns =>
          rw [List.head?_cons, List.getLast?_cons_cons] at h
          have hlast := List.mem_of_getLast? h.symm
          exact absurd (List.rel_of_pairwise_cons hsorted hlast) (lt_irrefl n)
    have hlen := hsingle _ hmem _ hmem'
    exact (List.append_inj (by simpa [hs] using hs') hlen).1
  · intro h
    have hsingle : ∀ i ∈ occurrences part s, ∀ j ∈ occurrences part s, i = j := by
      intro i hi j hj
      obtain ⟨l, r, hs, rfl⟩ := mem_occurrences.mp hi
      obtain ⟨l', r', hs', rfl⟩ := mem_occurrences.mp hj
      rw [h l r l' r' hs hs']
    rw [indexOf, lastIndexOf]
    generalize occurrences part s = ns at hsingle
    cases ns with
    | nil => rfl
    | cons n ns =>
      have hn := List.getLast_mem (List.cons_ne_nil n ns)
      rw [List.head?_cons, List.getLast?_eq_some_getLast (List.cons_ne_nil n ns)]
      exact congrArg some (hsingle n (List.mem_cons_self ..) _ hn)

/-- **The last occurrence of one element** has nothing of it behind. -/
theorem lastIndexOf_append_cons {c : α} (h : c ∉ r) :
    lastIndexOf [c] (l ++ c :: r) = some l.length := by
  refine getLast?_eq_some_of_le (occurrences_sorted _ _)
    (mem_occurrences.mpr ⟨l, r, by simp, rfl⟩) fun i hi => ?_
  obtain ⟨l', r', hs, rfl⟩ := mem_occurrences.mp hi
  rw [List.append_assoc, List.singleton_append] at hs
  rcases List.append_eq_append_iff.mp hs with ⟨z, rfl, hz⟩ | ⟨z, rfl, -⟩
  · cases z with
    | nil => simp
    | cons b z =>
      rw [List.cons_append, List.cons.injEq] at hz
      exact absurd (hz.2 ▸ List.mem_append_right z (List.mem_cons_self ..)) h
  · simp

omit [BEq α] [LawfulBEq α] in
/-- What is in a list is there for the last time. -/
theorem exists_last_of_mem {c : α} (h : c ∈ s) : ∃ l r, s = l ++ c :: r ∧ c ∉ r := by
  induction s with
  | nil => exact absurd h List.not_mem_nil
  | cons b s ih =>
    by_cases hmem : c ∈ s
    · obtain ⟨l, r, rfl, hr⟩ := ih hmem
      exact ⟨b :: l, r, rfl, hr⟩
    · obtain rfl := (List.mem_cons.mp h).resolve_right hmem
      exact ⟨[], s, rfl, hmem⟩

theorem indexOf_of_unique (h : AtMostOnce part s) (hs : s = l ++ part ++ r) :
    indexOf part s = some l.length := by
  refine head?_eq_some_of_le (occurrences_sorted _ _) (mem_occurrences.mpr ⟨l, r, hs, rfl⟩)
    fun i hi => ?_
  obtain ⟨l', r', hs', rfl⟩ := mem_occurrences.mp hi
  rw [h l r l' r' hs hs']

/-- **A single occurrence** leaves the piece before it and the piece behind it, and there is no
third one. -/
theorem cut_of_unique (h : AtMostOnce part s) (hpart : part ≠ []) (hs : s = l ++ part ++ r) :
    cut part s = (l, r) := by
  have hnone : indexOf part r = none := by
    rw [indexOf_eq_none_iff]
    intro l' r' hr
    have heq := h l r (l ++ part ++ l') r' hs (by rw [hs, hr]; simp)
    simp [hpart] at heq
  have hdrop : s.drop (l.length + part.length) = r := by
    rw [hs, ← List.length_append, List.drop_left]
  have htake : s.take l.length = l := by
    rw [hs, List.append_assoc, List.take_left]
  rw [cut, indexOf_of_unique h hs]
  dsimp only
  rw [hdrop, htake, hnone, Option.getD_none, List.take_length]

omit [BEq α] [LawfulBEq α] in
/-- What occurs at most once in a list occurs at most once in a first part of it. -/
theorem AtMostOnce.of_append (h : AtMostOnce part (s ++ r)) : AtMostOnce part s := by
  intro l₁ r₁ l₂ r₂ h₁ h₂
  exact h l₁ (r₁ ++ r) l₂ (r₂ ++ r) (by rw [h₁]; simp) (by rw [h₂]; simp)

omit [BEq α] [LawfulBEq α] in
/-- Two equal elements occur once between lists that neither have them nor touch them: an element of
the same kind next to the pair would make a second occurrence that overlaps the first. -/
theorem atMostOnce_pair {c : α} (hl : ∀ x y, l ≠ x ++ [c, c] ++ y) (hlast : ∀ x, l ≠ x ++ [c])
    (hr : ∀ x y, r ≠ x ++ [c, c] ++ y) (hhead : ∀ x, r ≠ c :: x) :
    AtMostOnce [c, c] (l ++ [c, c] ++ r) := by
  have hsame : ∀ x y, l ++ [c, c] ++ r = x ++ [c, c] ++ y → x = l := by
    intro x y h
    rw [List.append_assoc, List.append_assoc] at h
    rcases List.append_eq_append_iff.mp h with ⟨z, rfl, hz⟩ | ⟨z, rfl, hz⟩
    · match z, hz with
      | [], _ => exact List.append_nil l
      | [b], hz =>
        have hrest : r = c :: y := (List.cons.inj (List.cons.inj hz).2).2
        exact absurd hrest (hhead y)
      | b :: b' :: z, hz =>
        have hrest : r = z ++ ([c, c] ++ y) := (List.cons.inj (List.cons.inj hz).2).2
        exact absurd (hrest.trans (List.append_assoc z [c, c] y).symm) (hr z y)
    · match z, hz with
      | [], _ => exact (List.append_nil x).symm
      | [b], hz =>
        have hb : b = c := (List.cons.inj hz).1.symm
        exact absurd (by rw [hb]) (hlast x)
      | b :: b' :: z, hz =>
        have hb : b = c := (List.cons.inj hz).1.symm
        have hb' : b' = c := (List.cons.inj (List.cons.inj hz).2).1.symm
        exact absurd (by simp [hb, hb']) (hl x z)
  intro x y x' y' h h'
  rw [hsame x y h, hsame x' y' h']

end Occurrences
