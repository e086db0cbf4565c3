import LookingGlass.Api.TrafficService
import LookingGlass.Foundations.StableSort

/-!
# How the nodes are numbered

Prometheus does not promise an order of its series, and the numbers of the nodes should not depend
on it. They come from the order of `sortKey`, and a sort key is not the whole instance label: of a
label with a port only the address is left. Two exporters on one address have the same key, and then
the stable sort hands their numbers out in the order of the answer.

## The exact condition

If two instances with one key show different traffic, an answer in the other order numbers them the
other way round. If they show the same, nobody can tell which is which. These are the two directions
of `buildNodes_perm_iff`, and the facts on stable sorts that they rest on are general.

The condition is about the series in the answers: which instances there are with both directions,
their keys, their points and their capacities. It does not mention the order of the answers and
nothing that `buildNodes` computes.

Labels are assumed to be distinct within each of the answers, which is what a query that sums by
instance returns; a label that occurs twice is an exception in the code.

## Main results

* `TrafficService.buildNodes_perm_iff` — the order of the answers does not matter exactly if
  instances with the same sort key look the same
-/

namespace LookingGlass

open Utf16

namespace TrafficService

/-- No instance label occurs twice. -/
def Distinct (series : List PromSeries) : Prop := (series.filterMap (·.instanceLabel)).Nodup

instance (series : List PromSeries) : Decidable (Distinct series) :=
  inferInstanceAs (Decidable (series.filterMap (·.instanceLabel)).Nodup)

/-- The capacity on the node of an instance. -/
def capacityOf (capacity : List PromSeries) (instanceLabel : Str) : Option Double :=
  let speed := (capacity.find? (·.instanceLabel = some instanceLabel)).bind fun c => latest c.points
  if speed.any Double.isPositive then speed else none

/-- Two instances with a received and a transmitted series that have the same sort key show the same
traffic and the same capacity. Their numbers then make no difference, as either may have either. -/
def TiesAlike (rt : Runtime) (rx tx capacity : List PromSeries) : Prop :=
  ∀ s ∈ rx, ∀ t ∈ tx, ∀ s' ∈ rx, ∀ t' ∈ tx, ∀ i i',
    s.instanceLabel = some i → t.instanceLabel = some i →
    s'.instanceLabel = some i' → t'.instanceLabel = some i' → sortKey rt i = sortKey rt i' →
    s.points = s'.points ∧ t.points = t'.points ∧ capacityOf capacity i = capacityOf capacity i'

variable {rt : Runtime} {rx tx capacity xs xs' : List PromSeries} {s t : PromSeries} {i : Str}

/-! ### Dictionaries

With distinct labels the dictionary is the list, and a lookup does not depend on its order. -/

def entries (series : List PromSeries) : List (Str × PromSeries) :=
  series.filterMap fun s => s.instanceLabel.map fun i => (i, s)

theorem map_fst_entries (series : List PromSeries) :
    (entries series).map Prod.fst = series.filterMap (·.instanceLabel) := by
  rw [entries, List.map_filterMap]
  refine List.filterMap_congr fun s _ => ?_
  cases s.instanceLabel <;> rfl

theorem byInstance_of_distinct (h : Distinct xs) : byInstance xs = .ok (entries xs) := by
  rw [Distinct, ← map_fst_entries] at h
  exact if_pos h

theorem lookup_entries (series : List PromSeries) (i : Str) :
    (entries series).lookup i = series.find? (·.instanceLabel = some i) := by
  induction series with
  | nil => rfl
  | cons s series ih =>
    rw [entries] at ih
    rw [List.find?_cons, entries, List.filterMap_cons]
    cases hs : s.instanceLabel with
    | none => simpa using ih
    | some j =>
      by_cases hij : i = j
      · simp [hij]
      · have hji : ¬ j = i := fun h => hij h.symm
        simpa [List.lookup_cons, beq_false_of_ne hij, hji] using ih

/-- Where labels are distinct, a lookup finds the one series that has the label. -/
theorem find?_eq_some_iff (h : Distinct xs) :
    xs.find? (·.instanceLabel = some i) = some s ↔ s ∈ xs ∧ s.instanceLabel = some i := by
  constructor
  · exact fun hfind => ⟨List.mem_of_find?_eq_some hfind, by simpa using List.find?_some hfind⟩
  · rintro ⟨hmem, hlabel⟩
    induction xs with
    | nil => exact absurd hmem List.not_mem_nil
    | cons x xs ih =>
      rw [List.find?_cons]
      rcases List.mem_cons.mp hmem with rfl | hmem
      · simp [hlabel]
      · cases hx : x.instanceLabel with
        | none => simpa using ih (by simpa [Distinct, hx] using h) hmem
        | some j =>
          have hcons : (j :: xs.filterMap (·.instanceLabel)).Nodup := by
            simpa [Distinct, hx] using h
          have hne : ¬ j = i := by
            rintro rfl
            exact (List.nodup_cons.mp hcons).1 (List.mem_filterMap.mpr ⟨s, hmem, hlabel⟩)
          simpa [hne] using ih (List.nodup_cons.mp hcons).2 hmem

theorem Distinct.perm (h : Distinct xs) (hperm : xs'.Perm xs) : Distinct xs' :=
  (hperm.filterMap _).nodup_iff.mpr h

/-- Looking up does not depend on the order. -/
theorem find?_eq_of_perm (h : Distinct xs) (hperm : xs'.Perm xs) (i : Str) :
    xs'.find? (·.instanceLabel = some i) = xs.find? (·.instanceLabel = some i) := by
  refine Option.ext fun s => ?_
  rw [find?_eq_some_iff h, find?_eq_some_iff (h.perm hperm), hperm.mem_iff]

/-! ### Nodes

A node without its number is a join. The list of nodes is the list of joins in the order of their
keys. -/

/-- Numbers apart, nodes are the same exactly if their traffic and their capacities are. -/
theorem nodeTraffic_eq_iff {index : ℕ} {m m' : Joined} :
    nodeTraffic (entries capacity) index m = nodeTraffic (entries capacity) index m' ↔
      m.rx.points = m'.rx.points ∧ m.tx.points = m'.tx.points ∧
        capacityOf capacity m.instanceLabel = capacityOf capacity m'.instanceLabel := by
  simp only [nodeTraffic, lookup_entries, NodeTraffic.mk.injEq, true_and]
  exact and_comm.trans and_assoc

/-- A list of nodes is known by what the nodes would be with the same number. -/
theorem mapIdx_nodeTraffic_eq_iff {dict : List (Str × PromSeries)} {ms ms' : List Joined} :
    ms.mapIdx (nodeTraffic dict) = ms'.mapIdx (nodeTraffic dict) ↔
      ms.map (nodeTraffic dict 0) = ms'.map (nodeTraffic dict 0) := by
  have hforget : ∀ ms : List Joined, (ms.mapIdx (nodeTraffic dict)).map
      (fun node => { node with label := ofString "Node " ++ AddressText.decimal 1 }) =
        ms.map (nodeTraffic dict 0) := by
    intro ms
    refine List.ext_getElem (by simp) fun i _ _ => ?_
    simp [nodeTraffic]
  have hnumber : ∀ ms : List Joined, (ms.map (nodeTraffic dict 0)).mapIdx
      (fun index node =>
        { node with label := ofString "Node " ++ AddressText.decimal (index + 1) }) =
        ms.mapIdx (nodeTraffic dict) := by
    intro ms
    refine List.ext_getElem (by simp) fun i _ _ => ?_
    simp [nodeTraffic]
  constructor
  · intro h
    rw [← hforget, h, hforget]
  · intro h
    rw [← hnumber, h, hnumber]

theorem join_eq_some_iff (h : Distinct tx) {m : Joined} :
    join (entries tx) s = some m ↔ m.rx = s ∧ s.instanceLabel = some m.instanceLabel ∧
      m.tx ∈ tx ∧ m.tx.instanceLabel = some m.instanceLabel := by
  rw [join]
  cases hs : s.instanceLabel with
  | none => simp
  | some i =>
    show ((entries tx).lookup i).bind _ = some m ↔ _
    rw [lookup_entries, Option.bind_eq_some_iff]
    constructor
    · rintro ⟨t, hfind, hm⟩
      obtain rfl := Option.some.inj hm
      exact ⟨rfl, rfl, (find?_eq_some_iff h).mp hfind⟩
    · rintro ⟨rfl, hi, htx⟩
      obtain rfl := Option.some.inj hi
      exact ⟨m.tx, (find?_eq_some_iff h).mpr htx, rfl⟩

/-- What is joined with what does not depend on the order of the dictionary. -/
theorem join_eq_of_perm (h : Distinct xs) (hperm : xs'.Perm xs) :
    join (entries xs') = join (entries xs) := by
  funext s
  simp only [join, lookup_entries, find?_eq_of_perm h hperm]

theorem nodeTraffic_eq_of_perm (h : Distinct xs) (hperm : xs'.Perm xs) :
    nodeTraffic (entries xs') = nodeTraffic (entries xs) := by
  funext index m
  simp only [nodeTraffic, lookup_entries, find?_eq_of_perm h hperm]

/-- The joins in the order of their sort keys. -/
abbrev sorted (rt : Runtime) (ms : List Joined) : List Joined :=
  ms.mergeSort (List.byKey fun m => sortKey rt m.instanceLabel)

theorem buildNodes_eq_ok (htx : Distinct tx) (hcapacity : Distinct capacity) :
    buildNodes rt rx tx capacity =
      .ok ((sorted rt (rx.filterMap (join (entries tx)))).mapIdx
        (nodeTraffic (entries capacity))) := by
  rw [buildNodes, byInstance_of_distinct htx, byInstance_of_distinct hcapacity]
  rfl

/-- Instances that tie show the same, as joins. -/
theorem tiesAlike_iff (htx : Distinct tx) :
    TiesAlike rt rx tx capacity ↔
      ∀ m ∈ rx.filterMap (join (entries tx)), ∀ m' ∈ rx.filterMap (join (entries tx)),
        sortKey rt m.instanceLabel = sortKey rt m'.instanceLabel →
          nodeTraffic (entries capacity) 0 m = nodeTraffic (entries capacity) 0 m' := by
  constructor
  · intro h m hm m' hm' hkey
    obtain ⟨s, hs, hjoin⟩ := List.mem_filterMap.mp hm
    obtain ⟨s', hs', hjoin'⟩ := List.mem_filterMap.mp hm'
    obtain ⟨rfl, hi, ht, hti⟩ := (join_eq_some_iff htx).mp hjoin
    obtain ⟨rfl, hi', ht', hti'⟩ := (join_eq_some_iff htx).mp hjoin'
    exact nodeTraffic_eq_iff.mpr (h _ hs _ ht _ hs' _ ht' _ _ hi hti hi' hti' hkey)
  · intro h s hs t ht s' hs' t' ht' i i' hi hti hi' hti' hkey
    have hm : (⟨i, s, t⟩ : Joined) ∈ rx.filterMap (join (entries tx)) :=
      List.mem_filterMap.mpr ⟨s, hs, (join_eq_some_iff htx).mpr ⟨rfl, hi, ht, hti⟩⟩
    have hm' : (⟨i', s', t'⟩ : Joined) ∈ rx.filterMap (join (entries tx)) :=
      List.mem_filterMap.mpr ⟨s', hs', (join_eq_some_iff htx).mpr ⟨rfl, hi', ht', hti'⟩⟩
    exact nodeTraffic_eq_iff.mp (h _ hm _ hm' hkey)

/-- Two series whose joins tie and show different traffic: swapping them changes the nodes. -/
theorem buildNodes_swap_ne (htx : Distinct tx) (hcapacity : Distinct capacity)
    {s s' : PromSeries} {m m' : Joined} (rest : List PromSeries)
    (hjoin : join (entries tx) s = some m) (hjoin' : join (entries tx) s' = some m')
    (hkey : sortKey rt m.instanceLabel = sortKey rt m'.instanceLabel)
    (hne : nodeTraffic (entries capacity) 0 m ≠ nodeTraffic (entries capacity) 0 m') :
    buildNodes rt (s :: s' :: rest) tx capacity ≠ buildNodes rt (s' :: s :: rest) tx capacity := by
  intro h
  rw [buildNodes_eq_ok htx hcapacity, buildNodes_eq_ok htx hcapacity] at h
  have hnodes := mapIdx_nodeTraffic_eq_iff.mp (Except.ok.inj h)
  simp only [List.filterMap_cons, hjoin, hjoin'] at hnodes
  have hswap := @List.map_mergeSort_swap_ne _ _ _ _ _ _
    (fun m : Joined => sortKey rt m.instanceLabel)
    _ m m' (rest.filterMap (join (entries tx))) hkey hne
  exact hswap hnodes

theorem exists_perm_ne (htx : Distinct tx) (hcapacity : Distinct capacity) {m m' : Joined}
    (hm : m ∈ rx.filterMap (join (entries tx))) (hm' : m' ∈ rx.filterMap (join (entries tx)))
    (hkey : sortKey rt m.instanceLabel = sortKey rt m'.instanceLabel)
    (hne : nodeTraffic (entries capacity) 0 m ≠ nodeTraffic (entries capacity) 0 m') :
    ∃ rx₁ rx₂ : List PromSeries, rx₁.Perm rx ∧ rx₂.Perm rx ∧
      buildNodes rt rx₁ tx capacity ≠ buildNodes rt rx₂ tx capacity := by
  obtain ⟨s, hs, hjoin⟩ := List.mem_filterMap.mp hm
  obtain ⟨s', hs', hjoin'⟩ := List.mem_filterMap.mp hm'
  have hss' : s' ≠ s := by
    rintro rfl
    exact hne (congrArg _ (Option.some.inj (hjoin.symm.trans hjoin')))
  have hs'rest := (List.mem_erase_of_ne hss').mpr hs'
  have hperm : rx.Perm (s :: s' :: (rx.erase s).erase s') :=
    (List.perm_cons_erase hs).trans (.cons s (List.perm_cons_erase hs'rest))
  exact ⟨_, _, hperm.symm, (List.Perm.swap s s' _).trans hperm.symm,
    buildNodes_swap_ne htx hcapacity _ hjoin hjoin' hkey hne⟩

/-- **When the numbering is stable.** The order of the three answers does not matter exactly if
instances with the same sort key show the same. -/
theorem buildNodes_perm_iff (htx : Distinct tx) (hcapacity : Distinct capacity) :
    (∀ rx' tx' capacity', rx'.Perm rx → tx'.Perm tx → capacity'.Perm capacity →
      buildNodes rt rx' tx' capacity' = buildNodes rt rx tx capacity) ↔
    TiesAlike rt rx tx capacity := by
  rw [tiesAlike_iff htx]
  constructor
  · intro h m hm m' hm' hkey
    by_contra hne
    obtain ⟨rx₁, rx₂, h₁, h₂, hdiffer⟩ := exists_perm_ne htx hcapacity hm hm' hkey hne
    exact hdiffer ((h rx₁ tx capacity h₁ (.refl _) (.refl _)).trans
      (h rx₂ tx capacity h₂ (.refl _) (.refl _)).symm)
  · intro h rx' tx' capacity' hrx' htx' hcapacity'
    rw [buildNodes_eq_ok (htx.perm htx') (hcapacity.perm hcapacity'),
      buildNodes_eq_ok htx hcapacity, join_eq_of_perm htx htx',
      nodeTraffic_eq_of_perm hcapacity hcapacity']
    exact congrArg Except.ok (mapIdx_nodeTraffic_eq_iff.mpr
      (List.map_mergeSort_eq_of_perm h (hrx'.filterMap _)))

/-- A series with one point. -/
def exampleSeries (instanceLabel : Str) (value : ℚ) : PromSeries :=
  ⟨[("instance", instanceLabel)], [⟨0, some (.finite value)⟩]⟩

theorem buildNodes_perm_of_hosts :
    (∀ rx' tx' capacity',
      rx'.Perm [exampleSeries "10.0.0.2:9100" 1, exampleSeries "10.0.0.1:9100" 2] →
      tx'.Perm [exampleSeries "10.0.0.2:9100" 3, exampleSeries "10.0.0.1:9100" 4] →
      capacity'.Perm [] →
      buildNodes .reference rx' tx' capacity' = buildNodes .reference
        [exampleSeries "10.0.0.2:9100" 1, exampleSeries "10.0.0.1:9100" 2]
        [exampleSeries "10.0.0.2:9100" 3, exampleSeries "10.0.0.1:9100" 4] []) ↔
    TiesAlike .reference [exampleSeries "10.0.0.2:9100" 1, exampleSeries "10.0.0.1:9100" 2]
        [exampleSeries "10.0.0.2:9100" 3, exampleSeries "10.0.0.1:9100" 4] [] :=
  buildNodes_perm_iff (by decide +kernel) (by decide +kernel)

/-- Two exporters on one address change places. -/
theorem buildNodes_ne_of_ports :
    Distinct [exampleSeries "10.0.0.1:9100" 1, exampleSeries "10.0.0.1:9101" 2] ∧
      [exampleSeries "10.0.0.1:9101" 2, exampleSeries "10.0.0.1:9100" 1].Perm
        [exampleSeries "10.0.0.1:9100" 1, exampleSeries "10.0.0.1:9101" 2] ∧
      buildNodes .reference [exampleSeries "10.0.0.1:9101" 2, exampleSeries "10.0.0.1:9100" 1]
          [exampleSeries "10.0.0.1:9100" 1, exampleSeries "10.0.0.1:9101" 2] [] ≠
        buildNodes .reference [exampleSeries "10.0.0.1:9100" 1, exampleSeries "10.0.0.1:9101" 2]
          [exampleSeries "10.0.0.1:9100" 1, exampleSeries "10.0.0.1:9101" 2] [] := by
  refine ⟨by decide +kernel, List.Perm.swap .., ?_⟩
  exact buildNodes_swap_ne (by decide +kernel) (by decide +kernel) []
    (show _ = some ⟨"10.0.0.1:9101", _, _⟩ from rfl)
    (show _ = some ⟨"10.0.0.1:9100", _, _⟩ from rfl)
    (by decide +kernel) (by decide +kernel)

end TrafficService

end LookingGlass
