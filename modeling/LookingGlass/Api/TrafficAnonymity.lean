import LookingGlass.Api.TrafficService
import LookingGlass.Foundations.Paired
import LookingGlass.Foundations.TwoRuns

/-!
# What the traffic response says about the nodes

Instance labels name hosts and ports. They decide which series belong together, in which order the
nodes are listed and how many there are, and so the response depends on them; but only on their
order. Two runs whose answers differ in a renaming of the instances that keeps the order of
`sortKey` end alike, and labels other than the instance have no part in it at all.

The proof is by related runs: `Relabelled` series in, and at every step of `buildAsync` the two
sides hold the same values or relabelled series.

## Why order is left over

The response contains no label, but the nodes in it are numbered, and the numbers are handed out in
the order of the instances. So the order is visible, and whether two series belong to one instance
is, too. The result says that nothing else is: a renaming that keeps the order and keeps apart what
was apart cannot be seen.

Renamings are restricted to the instances that occur in the run. What a renaming would do to others
is of no consequence, and asking for it to be injective everywhere would exclude the renamings that
one has in mind, from real names to made up ones.

## Main results

* `TrafficService.response_of_relabelled` — relabelled answers lead to the same response
-/

namespace LookingGlass

open Utf16 Interaction

namespace TrafficService

/-- The instances that occur in the answers of a run. -/
def occurring (es : List (Event Prometheus)) : List Str :=
  es.flatMap fun
    | ⟨.queryRange _ _ _ _, .ok series⟩ => series.filterMap (·.instanceLabel)
    | _ => []

/-- The same points under a renamed instance. Nothing is said about the other labels. -/
structure Relabelled (rename : Str → Str) (s s' : PromSeries) : Prop where
  points : s'.points = s.points
  instanceLabel : s'.instanceLabel = s.instanceLabel.map rename

/-- The same time, and the same failure or series that are related one by one. -/
def AnswerRelated (P : PromSeries → PromSeries → Prop) :
    ∀ op, Prometheus.Ret op → Prometheus.Ret op → Prop
  | .getUtcNow, now, now' => now = now'
  | .queryRange _ _ _ _, answer, answer' => Agree (List.Forall₂ P) answer answer'

/-- No two of the instances become one, and their order by `sortKey` stays what it is, ties
included. Without this the numbering may change, and with it what is shown, although no label is. -/
structure OrderPreserving (rt : Runtime) (instances : List Str) (rename : Str → Str) : Prop where
  injOn : Set.InjOn rename {i | i ∈ instances}
  ordinalLe_sortKey : ∀ i ∈ instances, ∀ j ∈ instances,
    ordinalLe (sortKey rt (rename i)) (sortKey rt (rename j)) =
      ordinalLe (sortKey rt i) (sortKey rt j)

variable {rt : Runtime} {settings : TrafficOptions} {range : Str} {rename : Str → Str}
  {instances : List Str}

/-! ### Nodes

The join, the sort and the numbering, each on related lists. -/

/-- Relabelled, from one of the given instances. -/
structure Within (instances : List Str) (rename : Str → Str) (s s' : PromSeries) : Prop
    extends Relabelled rename s s' where
  mem : ∀ i, s.instanceLabel = some i → i ∈ instances

/-- The same join, under a renamed instance. The points of the two series are equal, and not just
alike, so all that is computed from them is equal as well. -/
structure SameNode (instances : List Str) (rename : Str → Str) (m m' : Joined) : Prop where
  mem : m.instanceLabel ∈ instances
  instanceLabel : m'.instanceLabel = rename m.instanceLabel
  rx : m'.rx.points = m.rx.points
  tx : m'.tx.points = m.tx.points

variable {xs xs' rx rx' tx tx' capacity capacity' : List PromSeries}

/-- Entries of a dictionary with the same points. -/
abbrev SameEntry (instances : List Str) (rename : Str → Str) :
    Str × PromSeries → Str × PromSeries → Prop :=
  List.Renamed {i | i ∈ instances} rename fun s s' => s'.points = s.points

theorem first_eq (h : List.Forall₂ (Within instances rename) xs xs') : first xs' = first xs := by
  cases h with
  | nil => rfl
  | cons hs _ => exact hs.points

theorem byInstance_agree (hrename : OrderPreserving rt instances rename)
    (h : List.Forall₂ (Within instances rename) xs xs') :
    Agree (List.Forall₂ (SameEntry instances rename)) (byInstance xs) (byInstance xs') := by
  have hentries : List.Forall₂ (SameEntry instances rename)
      (xs.filterMap fun s => s.instanceLabel.map fun i => (i, s))
      (xs'.filterMap fun s => s.instanceLabel.map fun i => (i, s)) := by
    refine List.rel_filterMap (fun s s' hs => ?_) h
    rw [hs.instanceLabel]
    cases hlabel : s.instanceLabel with
    | none => exact .none
    | some i => exact .some ⟨hs.mem i hlabel, rfl, hs.points⟩
  simp only [byInstance, List.nodup_keys_iff hrename.injOn hentries]
  split
  · exact .ok hentries
  · exact .error _

theorem join_rel (hrename : OrderPreserving rt instances rename)
    {dict dict' : List (Str × PromSeries)}
    (hdict : List.Forall₂ (SameEntry instances rename) dict dict') {s s' : PromSeries}
    (hs : Within instances rename s s') :
    Option.Rel (SameNode instances rename) (join dict s) (join dict' s') := by
  rw [join, join, hs.instanceLabel]
  cases hlabel : s.instanceLabel with
  | none => exact .none
  | some i =>
    have hlookup := List.forall₂_lookup hrename.injOn (hs.mem i hlabel) hdict
    show Option.Rel _ ((dict.lookup i).bind _) ((dict'.lookup (rename i)).bind _)
    generalize dict.lookup i = found, dict'.lookup (rename i) = found' at hlookup ⊢
    cases hlookup with
    | none => exact .none
    | some htx => exact .some ⟨hs.mem i hlabel, rfl, hs.points, htx⟩

theorem nodeTraffic_eq (hrename : OrderPreserving rt instances rename)
    {dict dict' : List (Str × PromSeries)}
    (hdict : List.Forall₂ (SameEntry instances rename) dict dict') (index : ℕ) {m m' : Joined}
    (hm : SameNode instances rename m m') :
    nodeTraffic dict index m = nodeTraffic dict' index m' := by
  have hspeed : (dict'.lookup m'.instanceLabel).bind (fun c => latest c.points) =
      (dict.lookup m.instanceLabel).bind fun c => latest c.points := by
    have hlookup := List.forall₂_lookup hrename.injOn hm.mem hdict
    rw [hm.instanceLabel]
    generalize dict.lookup m.instanceLabel = found, dict'.lookup (rename m.instanceLabel) = found'
      at hlookup ⊢
    cases hlookup with
    | none => rfl
    | some hc => exact congrArg latest hc
  simp only [nodeTraffic, hspeed, hm.rx, hm.tx]

/-- The nodes do not change: the joins, the order and the capacities are what they were. -/
theorem buildNodes_eq (hrename : OrderPreserving rt instances rename)
    (hrx : List.Forall₂ (Within instances rename) rx rx')
    (htx : List.Forall₂ (Within instances rename) tx tx')
    (hcapacity : List.Forall₂ (Within instances rename) capacity capacity') :
    buildNodes rt rx' tx' capacity' = buildNodes rt rx tx capacity := by
  have hdict := byInstance_agree hrename htx
  have hdict' := byInstance_agree hrename hcapacity
  rw [buildNodes, buildNodes]
  generalize byInstance tx = x, byInstance tx' = x' at hdict ⊢
  generalize byInstance capacity = y, byInstance capacity' = y' at hdict' ⊢
  cases hdict with
  | error e => rfl
  | ok htx =>
    cases hdict' with
    | error e => rfl
    | ok hcapacity =>
      have hjoined := List.rel_filterMap (fun _ _ hs => join_rel hrename htx hs) hrx
      have hsorted := List.forall₂_mergeSort hjoined fun m m' n n' hm hn =>
        show ordinalLe (sortKey rt m.instanceLabel) (sortKey rt n.instanceLabel) =
            ordinalLe (sortKey rt m'.instanceLabel) (sortKey rt n'.instanceLabel) by
          rw [hm.instanceLabel, hn.instanceLabel,
            hrename.ordinalLe_sortKey _ hm.mem _ hn.mem]
      exact congrArg Except.ok (List.mapIdx_eq_of_forall₂ hsorted fun index _ _ hm =>
        nodeTraffic_eq hrename hcapacity index hm).symm

/-! ### The whole response

The questions are the same on both sides, since they are asked before anything is answered. -/

/-- Two tasks that stay in step and end with the same failure or relabelled series. -/
abbrev InStep (instances : List Str) (rename : Str → Str)
    (t t' : Task Prometheus Exn (List PromSeries)) : Prop :=
  Task.Related (AnswerRelated (Within instances rename)) (List.Forall₂ (Within instances rename))
    t t'

theorem related_getUtcNow {P : PromSeries → PromSeries → Prop} :
    Task.Related (AnswerRelated P) Eq Prometheus.getUtcNow Prometheus.getUtcNow :=
  Task.related_call fun _ _ h => .ok h

theorem inStep_queryRangeAsync (query : Str) (start stop : DateTimeOffset) (step : ℤ) :
    InStep instances rename (Prometheus.queryRangeAsync query start stop step)
      (Prometheus.queryRangeAsync query start stop step) :=
  Task.related_call fun _ _ h => h

theorem inStep_optionalAsync {t t' : Task Prometheus Exn (List PromSeries)}
    (h : InStep instances rename t t') :
    InStep instances rename (optionalAsync t) (optionalAsync t') := by
  refine Task.related_tryCatch h fun e => ?_
  cases e with
  | lookingGlass ex => exact Task.related_pure .nil
  | _ => exact Task.related_throw _

/-- A failure among the outcomes is the same one on both sides. -/
theorem gather_agree {α β : Type} {P : α → β → Prop} {outcomes : List (Except Exn α)}
    {outcomes' : List (Except Exn β)} (h : List.Forall₂ (Agree P) outcomes outcomes') :
    Agree (List.Forall₂ P) (gather outcomes) (gather outcomes') := by
  have hall : Agree (List.Forall₂ P) (outcomes.mapM id) (outcomes'.mapM id) := by
    induction h with
    | nil => exact .ok .nil
    | @cons x y xs ys hx _ ih =>
      rw [List.mapM_cons, List.mapM_cons]
      cases hx with
      | error e => exact .error e
      | ok hab =>
        generalize xs.mapM id = rest, ys.mapM id = rest' at ih ⊢
        cases ih with
        | error e => exact .error e
        | ok hrest => exact .ok (.cons hab hrest)
  rw [gather, gather]
  generalize hfind : List.find? _ outcomes = found
  generalize hfind' : List.find? _ outcomes' = found'
  have hfound : Option.Rel (Agree P) found found' := by
    rw [← hfind, ← hfind']
    refine List.forall₂_find? h fun x y hxy => ?_
    cases hxy with
    | ok _ => rfl
    | error e => cases e <;> rfl
  cases hfound with
  | none => exact hall
  | some hxy =>
    cases hxy with
    | ok _ => exact hall
    | error e => exact .error e

theorem respond_eq (hrename : OrderPreserving rt instances rename) (step : ℤ)
    (stop : DateTimeOffset)
    {nodeRx nodeTx capacity clusterRx clusterTx webIn webOut wanRx wanTx
      nodeRx' nodeTx' capacity' clusterRx' clusterTx' webIn' webOut' wanRx' wanTx' :
        List PromSeries}
    (hnodeRx : List.Forall₂ (Within instances rename) nodeRx nodeRx')
    (hnodeTx : List.Forall₂ (Within instances rename) nodeTx nodeTx')
    (hcapacity : List.Forall₂ (Within instances rename) capacity capacity')
    (hclusterRx : List.Forall₂ (Within instances rename) clusterRx clusterRx')
    (hclusterTx : List.Forall₂ (Within instances rename) clusterTx clusterTx')
    (hwebIn : List.Forall₂ (Within instances rename) webIn webIn')
    (hwebOut : List.Forall₂ (Within instances rename) webOut webOut')
    (hwanRx : List.Forall₂ (Within instances rename) wanRx wanRx')
    (hwanTx : List.Forall₂ (Within instances rename) wanTx wanTx') :
    respond rt range step stop nodeRx' nodeTx' capacity' clusterRx' clusterTx' webIn' webOut'
        wanRx' wanTx' =
      respond rt range step stop nodeRx nodeTx capacity clusterRx clusterTx webIn webOut
        wanRx wanTx := by
  rw [respond, respond, buildNodes_eq hrename hnodeRx hnodeTx hcapacity, first_eq hclusterRx,
    first_eq hclusterTx, first_eq hwebIn, first_eq hwebOut, first_eq hwanRx, first_eq hwanTx,
    hwebIn.length_eq, hwebOut.length_eq, hwanRx.length_eq, hwanTx.length_eq]

/-- Both sides ask the same questions, and end with the same response or failure. -/
theorem related_buildAsync (hrename : OrderPreserving rt instances rename) :
    Task.Related (AnswerRelated (Within instances rename)) Eq (buildAsync rt settings range)
      (buildAsync rt settings range) := by
  have hquery : ∀ query start stop step, InStep instances rename
      (Prometheus.queryRangeAsync query start stop step)
      (Prometheus.queryRangeAsync query start stop step) := inStep_queryRangeAsync
  have hwan : ∀ query start stop step, InStep instances rename
      (if settings.wanDevice.getD [] = [] then pure []
        else optionalAsync (Prometheus.queryRangeAsync query start stop step))
      (if settings.wanDevice.getD [] = [] then pure []
        else optionalAsync (Prometheus.queryRangeAsync query start stop step)) := by
    intro query start stop step
    split
    · exact Task.related_pure .nil
    · exact inStep_optionalAsync (hquery ..)
  rw [buildAsync]
  refine Task.related_bind (Task.related_ofExcept (.refl (rangeOf range))) ?_
  rintro ⟨window, step⟩ _ rfl
  refine Task.related_bind related_getUtcNow ?_
  rintro stop _ rfl
  dsimp only
  refine Task.related_bind (Task.related_attempt (hquery ..)) fun _ _ hnodeRx => ?_
  refine Task.related_bind (Task.related_attempt (hquery ..)) fun _ _ hnodeTx => ?_
  refine Task.related_bind (Task.related_attempt (hquery ..)) fun _ _ hcapacity => ?_
  refine Task.related_bind (Task.related_attempt (hquery ..)) fun _ _ hclusterRx => ?_
  refine Task.related_bind (Task.related_attempt (hquery ..)) fun _ _ hclusterTx => ?_
  refine Task.related_bind (Task.related_attempt (inStep_optionalAsync (hquery ..)))
    fun _ _ hwebIn => ?_
  refine Task.related_bind (Task.related_attempt (inStep_optionalAsync (hquery ..)))
    fun _ _ hwebOut => ?_
  refine Task.related_bind (Task.related_attempt (hwan ..)) fun _ _ hwanRx => ?_
  refine Task.related_bind (Task.related_attempt (hwan ..)) fun _ _ hwanTx => ?_
  -- every answer is there: wait for all of them, then take the results one by one
  refine Task.related_bind (Task.related_ofExcept (gather_agree (.cons hnodeRx (.cons hnodeTx
    (.cons hcapacity (.cons hclusterRx (.cons hclusterTx (.cons hwebIn (.cons hwebOut
    (.cons hwanRx (.cons hwanTx .nil))))))))))) fun _ _ _ => ?_
  refine Task.related_bind (Task.related_ofExcept hnodeRx) fun _ _ hnodeRx => ?_
  refine Task.related_bind (Task.related_ofExcept hnodeTx) fun _ _ hnodeTx => ?_
  refine Task.related_bind (Task.related_ofExcept hcapacity) fun _ _ hcapacity => ?_
  refine Task.related_bind (Task.related_ofExcept hclusterRx) fun _ _ hclusterRx => ?_
  refine Task.related_bind (Task.related_ofExcept hclusterTx) fun _ _ hclusterTx => ?_
  refine Task.related_bind (Task.related_ofExcept hwebIn) fun _ _ hwebIn => ?_
  refine Task.related_bind (Task.related_ofExcept hwebOut) fun _ _ hwebOut => ?_
  refine Task.related_bind (Task.related_ofExcept hwanRx) fun _ _ hwanRx => ?_
  refine Task.related_bind (Task.related_ofExcept hwanTx) fun _ _ hwanTx => ?_
  rw [respond_eq hrename step stop hnodeRx hnodeTx hcapacity hclusterRx hclusterTx hwebIn hwebOut
    hwanRx hwanTx]
  exact Task.related_ofExcept (.refl _)

/-- Relabelled answers are relabelled within the instances that occur in them. -/
theorem related_within {es es' : List (Event Prometheus)}
    (h : List.Forall₂ (Event.Related (AnswerRelated (Relabelled rename))) es es') :
    List.Forall₂ (Event.Related (AnswerRelated (Within (occurring es) rename))) es es' := by
  have hall : ∀ e ∈ es, ∀ i ∈ occurring [e], i ∈ occurring es := by
    intro e he i hi
    rw [occurring, List.flatMap_singleton] at hi
    exact List.mem_flatMap.mpr ⟨e, he, hi⟩
  refine ((List.forall₂_and_left es es').mpr ⟨hall, h⟩).imp fun e e' hevent => ?_
  obtain ⟨hmem, @⟨op, x, y, hxy⟩⟩ := hevent
  cases op with
  | getUtcNow => exact .intro hxy
  | queryRange query start stop step =>
    refine .intro (show Agree _ x y from ?_)
    cases show Agree _ x y from hxy with
    | error e => exact .error e
    | @ok series series' hseries =>
      have hlabels : ∀ s ∈ series, ∀ i, s.instanceLabel = some i → i ∈ occurring es := by
        intro s hs i hi
        refine hmem i (List.mem_flatMap.mpr ⟨_, List.mem_singleton_self _, ?_⟩)
        exact List.mem_filterMap.mpr ⟨s, hs, hi⟩
      exact .ok (((List.forall₂_and_left series series').mpr ⟨hlabels, hseries⟩).imp
        fun s s' hs => ⟨hs.2, hs.1⟩)

/-- **Identities stay inside.** Replace the instance labels in the answers of a run by others in the
same order, and every other label by anything: the run with these answers ends with the response
of the first one, or with its failure. -/
theorem response_of_relabelled {es es' : List (Event Prometheus)} {r : Except Exn TrafficResponse}
    (h : Task.Runs (buildAsync rt settings range) es r)
    (hanswers : List.Forall₂ (Event.Related (AnswerRelated (Relabelled rename))) es es')
    (hrename : OrderPreserving rt (occurring es) rename) (r' : Except Exn TrafficResponse) :
    Task.Runs (buildAsync rt settings range) es' r' ↔ r' = r :=
  Task.Related.runs_iff (related_buildAsync hrename) h (related_within hanswers) r'

/-- A run in which every question is answered with two series. -/
def runWith (fst snd : Str) : List (Event Prometheus) × Except Exn TrafficResponse :=
  Prog.simulate (answer fst snd) (buildAsync .reference {} "1h").run
where
  answer (fst snd : Str) : ∀ op, Prometheus.Ret op
    | .getUtcNow => (0 : ℤ)
    | .queryRange _ _ _ _ =>
      .ok [⟨[("instance", fst)], [⟨0, some 1⟩]⟩, ⟨[("instance", snd)], [⟨0, some 2⟩]⟩]

/-- The two series under other names. -/
theorem relabelled_runWith {fst snd fst' snd' : Str} (hfst : fst' = rename fst)
    (hsnd : snd' = rename snd) :
    List.Forall₂ (Event.Related (AnswerRelated (Relabelled rename))) (runWith fst snd).1
      (runWith fst' snd').1 := by
  have hseries : ∀ query start stop step, Event.Related (AnswerRelated (Relabelled rename))
      ⟨.queryRange query start stop step, runWith.answer fst snd _⟩
      ⟨.queryRange query start stop step, runWith.answer fst' snd' _⟩ :=
    fun _ _ _ _ => .intro (.ok (.cons ⟨rfl, congrArg some hfst⟩
      (.cons ⟨rfl, congrArg some hsnd⟩ .nil)))
  exact .cons (.intro rfl) (.cons (hseries ..) (.cons (hseries ..) (.cons (hseries ..)
    (.cons (hseries ..) (.cons (hseries ..) (.cons (hseries ..) (.cons (hseries ..) .nil)))))))

theorem response_of_relabelled_names :
    (runWith "node-a:9100" "node-b:9100").2 = (runWith "10.0.0.1:9100" "10.0.0.2:9100").2 := by
  let rename : Str → Str := fun i => if i = "10.0.0.1:9100" then "node-a:9100" else "node-b:9100"
  have hanswers : List.Forall₂ (Event.Related (AnswerRelated (Relabelled rename)))
      (runWith "10.0.0.1:9100" "10.0.0.2:9100").1 (runWith "node-a:9100" "node-b:9100").1 :=
    relabelled_runWith (by decide) (by decide)
  have horder : OrderPreserving .reference (occurring (runWith "10.0.0.1:9100" "10.0.0.2:9100").1)
      rename := by
    refine ⟨?_, ?_⟩
    · show ∀ i ∈ occurring _, ∀ j ∈ occurring _, _
      decide +kernel
    · decide +kernel
  exact (response_of_relabelled (Prog.run_simulate _ _) hanswers horder _).mp
    (Prog.run_simulate _ _)

end TrafficService

end LookingGlass
