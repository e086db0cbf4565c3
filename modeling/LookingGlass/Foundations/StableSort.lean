import Mathlib.Data.List.Basic
import Mathlib.Data.List.Perm.Basic
import Mathlib.Tactic.Common

/-!
# What a stable sort by a key remembers

Sorting by a key puts elements with different keys in an order of their own, and leaves elements
with the same key in the order in which they came. So the result depends on the order of the input
exactly as far as it lets one tell apart elements that have the same key: if it does not, every
permutation of the input leads to the same result, and if it does, swapping two such elements shows.

What is seen of an element is its image under a function `content`.

## Both directions

That a sort by a key does not depend on the order of its input is often taken for granted, and is
true of sorts by the whole element. The two results below are the two directions of what is really
the case: elements with one key must look alike, or the order of the input can be seen. So a program
that sorts by a key and then numbers the elements has a condition under which its numbers mean
anything, and the condition is exact.

## Main results

* `List.filter_mergeSort_byKey` — elements with the same key keep their order
* `List.map_mergeSort_eq_of_perm`, `List.map_mergeSort_swap_ne` — when the order of the input
  matters
-/

namespace List

variable {α κ γ : Type*} [LE κ] [Std.IsLinearOrder κ] [DecidableLE κ]

/-- Compare by a key. -/
abbrev byKey (key : α → κ) (a b : α) : Bool := decide (key a ≤ key b)

variable {key : α → κ} {content : α → γ} {xs ys : List α}

theorem byKey_trans (a b c : α) (hab : byKey key a b = true) (hbc : byKey key b c = true) :
    byKey key a c = true :=
  decide_eq_true (Std.le_trans (of_decide_eq_true hab) (of_decide_eq_true hbc))

theorem byKey_total (a b : α) : (byKey key a b || byKey key b a) = true := by
  rw [Bool.or_eq_true]
  exact Std.le_total.imp decide_eq_true decide_eq_true

theorem pairwise_mergeSort_byKey (xs : List α) :
    (xs.mergeSort (byKey key)).Pairwise fun a b => key a ≤ key b :=
  (@pairwise_mergeSort α (byKey key) byKey_trans byKey_total xs).imp of_decide_eq_true

/-- **Stability**: elements with the same key keep their order. -/
theorem filter_mergeSort_byKey [DecidableEq κ] (k : κ) (xs : List α) :
    (xs.mergeSort (byKey key)).filter (key · = k) = xs.filter (key · = k) := by
  have htied : (xs.filter (key · = k)).Pairwise fun a b => byKey key a b = true := by
    refine pairwise_of_forall_mem_list fun a ha b hb => decide_eq_true ?_
    rw [of_decide_eq_true (mem_filter.mp ha).2, of_decide_eq_true (mem_filter.mp hb).2]
    exact Std.le_refl (a := k)
  have hsub := (sublist_mergeSort byKey_trans byKey_total htied filter_sublist).filter (key · = k)
  have hlength : ((xs.mergeSort (byKey key)).filter (key · = k)).length =
      (xs.filter (key · = k)).length :=
    ((mergeSort_perm xs _).filter _).length_eq
  rw [filter_filter] at hsub
  simp only [Bool.and_self] at hsub
  exact (hsub.eq_of_length hlength.symm).symm

/-- Which keys there are decides at which place each of them stands. -/
theorem map_mergeSort_byKey_eq_of_perm (h : xs.Perm ys) :
    (xs.mergeSort (byKey key)).map key = (ys.mergeSort (byKey key)).map key := by
  have hperm : ((xs.mergeSort (byKey key)).map key).Perm ((ys.mergeSort (byKey key)).map key) :=
    (((mergeSort_perm xs _).trans h).trans (mergeSort_perm ys _).symm).map key
  exact hperm.eq_of_pairwise (fun _ _ _ _ => Std.le_antisymm)
    (pairwise_map.mpr (pairwise_mergeSort_byKey xs))
    (pairwise_map.mpr (pairwise_mergeSort_byKey ys))

/-- Where elements with the same key look the same, the order of the input does not matter: the keys
decide the order, and the key decides the look. -/
theorem map_mergeSort_eq_of_perm
    (htied : ∀ a ∈ ys, ∀ b ∈ ys, key a = key b → content a = content b) (h : xs.Perm ys) :
    (xs.mergeSort (byKey key)).map content = (ys.mergeSort (byKey key)).map content := by
  have hkeys := @map_mergeSort_byKey_eq_of_perm _ _ _ _ _ key _ _ h
  have hmem : ∀ zs : List α, zs.Perm ys → ∀ a ∈ zs.mergeSort (byKey key), a ∈ ys :=
    fun zs hzs a ha => hzs.mem_iff.mp (mem_mergeSort.mp ha)
  refine ext_getElem (by simpa using h.length_eq) fun i hi hi' => ?_
  rw [length_map] at hi hi'
  rw [getElem_map, getElem_map]
  refine htied _ (hmem xs h _ (getElem_mem hi)) _ (hmem ys (.refl ys) _ (getElem_mem hi')) ?_
  have hat := congrArg (fun keys : List κ => keys[i]?) hkeys
  simpa only [getElem?_map, getElem?_eq_getElem hi, getElem?_eq_getElem hi', Option.map_some,
    Option.some.injEq] using hat

/-- Where two elements with the same key look different, swapping them shows, whatever else is in
the list. -/
theorem map_mergeSort_swap_ne {a b : α} (rest : List α) (hkey : key a = key b)
    (hcontent : content a ≠ content b) :
    ((a :: b :: rest).mergeSort (byKey key)).map content ≠
      ((b :: a :: rest).mergeSort (byKey key)).map content := by
  classical
  intro h
  have hkeys := @map_mergeSort_byKey_eq_of_perm _ _ _ _ _ key _ _ (Perm.swap b a rest)
  -- the same keys and the same contents, place by place, so the same pairs of both
  have hpairs : ((a :: b :: rest).mergeSort (byKey key)).map (fun x => (key x, content x)) =
      ((b :: a :: rest).mergeSort (byKey key)).map fun x => (key x, content x) := by
    have hzip := congrArg₂ zip hkeys h
    rwa [zip_map', zip_map'] at hzip
  have hfirst := congrArg (fun pairs : List (κ × γ) => (pairs.filter (·.1 = key b)).map Prod.snd)
    hpairs
  have hfilter : ∀ zs : List α,
      ((zs.map fun x => (key x, content x)).filter (·.1 = key b)).map Prod.snd =
        (zs.filter (key · = key b)).map content := by
    intro zs
    rw [filter_map, map_map]
    rfl
  simp only [hfilter, filter_mergeSort_byKey] at hfirst
  rw [filter_cons_of_pos (by simpa using hkey),
    filter_cons_of_pos (l := a :: rest) (by simp), map_cons,
    map_cons] at hfirst
  exact hcontent (cons.inj hfirst).1

end List
