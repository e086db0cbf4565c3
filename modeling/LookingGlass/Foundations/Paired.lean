import Mathlib.Data.List.Forall2
import Mathlib.Data.List.Nodup
import Mathlib.Data.Set.Operations

/-!
# Lists related element by element

What a computation on lists makes of two lists that agree element by element. The relation `R` may
leave a part of the elements free; as long as the functions involved do not look at that part, the
results are related again. For a stable sort this needs no order at all: it is enough that every
comparison comes out the same.

Association lists are read with `List.lookup`. Renaming their keys does not change what a lookup
finds, if the renaming is injective on the keys and on what is looked up.

## How it is used

To say that a result does not depend on part of the input, one takes two inputs that differ in that
part only, and relates them element by element. Every step of the computation is then a lemma of
this kind, and at the end the relation says that the results are equal, or that one is a renaming of
the other. Nothing has to be known about what the elements are.

## Main results

* `List.forall₂_mergeSort` — sorting related lists by comparisons that agree
* `List.forall₂_lookup` — looking up a renamed key
* `List.mapIdx_eq_of_forall₂` — numbering related lists
-/

namespace List

variable {α β γ κ : Type*} {R : α → β → Prop} {xs : List α} {ys : List β}

/-- The pairs behind two related lists. Both are images of one list then, and what is proved of maps
can be used for them. -/
theorem exists_pairs_of_forall₂ (h : Forall₂ R xs ys) :
    ∃ pairs : List (α × β), xs = pairs.map Prod.fst ∧ ys = pairs.map Prod.snd ∧
      ∀ pair ∈ pairs, R pair.1 pair.2 := by
  induction h with
  | nil => exact ⟨[], rfl, rfl, by simp⟩
  | cons hxy _ ih =>
    obtain ⟨pairs, rfl, rfl, hpairs⟩ := ih
    exact ⟨(_, _) :: pairs, rfl, rfl, forall_mem_cons.mpr ⟨hxy, hpairs⟩⟩

theorem forall₂_of_pairs {pairs : List (α × β)} (h : ∀ pair ∈ pairs, R pair.1 pair.2) :
    Forall₂ R (pairs.map Prod.fst) (pairs.map Prod.snd) := by
  rw [forall₂_map_left_iff, forall₂_map_right_iff, forall₂_same]
  exact h

/-- Where every comparison comes out the same, a stable sort moves related elements alike. -/
theorem forall₂_mergeSort {le : α → α → Bool} {le' : β → β → Bool} (h : Forall₂ R xs ys)
    (hle : ∀ a b a' b', R a b → R a' b' → le a a' = le' b b') :
    Forall₂ R (xs.mergeSort le) (ys.mergeSort le') := by
  obtain ⟨pairs, rfl, rfl, hpairs⟩ := exists_pairs_of_forall₂ h
  have hfst : (pairs.mergeSort fun p q => le p.1 q.1).map Prod.fst =
      (pairs.map Prod.fst).mergeSort le := map_mergeSort fun p _ q _ => rfl
  have hsnd : (pairs.mergeSort fun p q => le p.1 q.1).map Prod.snd =
      (pairs.map Prod.snd).mergeSort le' :=
    map_mergeSort fun p hp q hq => hle _ _ _ _ (hpairs p hp) (hpairs q hq)
  rw [← hfst, ← hsnd]
  exact forall₂_of_pairs fun pair hpair => hpairs pair (mem_mergeSort.mp hpair)

theorem mapIdx_eq_of_forall₂ {f : ℕ → α → γ} {g : ℕ → β → γ} (h : Forall₂ R xs ys)
    (hfg : ∀ i a b, R a b → f i a = g i b) : xs.mapIdx f = ys.mapIdx g := by
  induction h generalizing f g with
  | nil => rfl
  | cons hxy _ ih =>
    rw [mapIdx_cons, mapIdx_cons, hfg 0 _ _ hxy, ih fun i a b hab => hfg (i + 1) a b hab]

theorem forall₂_find? {p : α → Bool} {q : β → Bool} (h : Forall₂ R xs ys)
    (hpq : ∀ a b, R a b → p a = q b) : Option.Rel R (xs.find? p) (ys.find? q) := by
  induction h with
  | nil => exact .none
  | @cons a b _ _ hab _ ih =>
    rw [find?_cons, find?_cons, hpq a b hab]
    cases q b with
    | true => exact .some hab
    | false => exact ih

/-! ### Association lists

A lookup compares keys, so a renaming must not make two keys equal that were not, and this is asked
of the keys in use only. -/

section Lookup

variable {keys : Set κ} {rename : κ → κ} {es : List (κ × α)} {es' : List (κ × β)}

/-- The same entry under a renamed key, with a related value. -/
structure Renamed (keys : Set κ) (rename : κ → κ) (R : α → β → Prop) (e : κ × α) (e' : κ × β) :
    Prop where
  mem : e.1 ∈ keys
  key : e'.1 = rename e.1
  value : R e.2 e'.2

theorem keys_of_forall₂ (h : Forall₂ (Renamed keys rename R) es es') :
    (∀ key ∈ es.map Prod.fst, key ∈ keys) ∧
      es'.map Prod.fst = (es.map Prod.fst).map rename := by
  induction h with
  | nil => exact ⟨by simp, rfl⟩
  | cons he _ ih =>
    refine ⟨forall_mem_cons.mpr ⟨he.mem, ih.1⟩, ?_⟩
    rw [map_cons, map_cons, map_cons, he.key, ih.2]

/-- Renaming keys neither makes nor removes a duplicate. -/
theorem nodup_keys_iff (hrename : Set.InjOn rename keys)
    (h : Forall₂ (Renamed keys rename R) es es') :
    (es'.map Prod.fst).Nodup ↔ (es.map Prod.fst).Nodup := by
  obtain ⟨hmem, hkeys⟩ := keys_of_forall₂ h
  rw [hkeys]
  exact ⟨Nodup.of_map rename, Nodup.map_on fun a ha b hb hab =>
    hrename (hmem a ha) (hmem b hb) hab⟩

theorem forall₂_lookup [BEq κ] [LawfulBEq κ] (hrename : Set.InjOn rename keys) {key : κ}
    (hkey : key ∈ keys) (h : Forall₂ (Renamed keys rename R) es es') :
    Option.Rel R (es.lookup key) (es'.lookup (rename key)) := by
  induction h with
  | nil => exact .none
  | @cons e e' _ _ he _ ih =>
    by_cases heq : key = e.1
    · subst heq
      rw [lookup_cons, lookup_cons, he.key]
      simpa using he.value
    · have hne : rename key ≠ e'.1 := by
        rw [he.key]
        exact fun hrenamed => heq (hrename hkey he.mem hrenamed)
      rw [lookup_cons, lookup_cons, beq_false_of_ne heq, beq_false_of_ne hne]
      exact ih

end Lookup

end List
