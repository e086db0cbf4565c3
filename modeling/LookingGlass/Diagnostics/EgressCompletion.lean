import LookingGlass.Diagnostics.EgressInterleaving

/-!
# Everybody gets through the egress service

The only call that may have to wait is the one for the gate. If every call that is left waits for
it, nobody is behind it, and it is free. This holds of any value that expires; what is added here is
that the requests can always be answered, and that a caller for which nothing fails returns
addresses.

A request need not be answered in time, or at all: the client gives up after some seconds, which is
one of its answers. So the end that is shown to exist is one in which the web answers with an empty
text, and nothing depends on that, since every text is as good.

## Main results

* `EgressService.exists_served` — the service is never stuck
* `EgressService.answered_of_reachable` — everybody gets through, and returns addresses
-/

namespace LookingGlass

open Utf16 Interaction Expiring

namespace EgressService

variable {rt : Runtime} {options : EgressOptions} {c : State}

/-- Nothing happens for which a caller fails: it is let through the gate, and no request ends in a
way that is not caught. A request that fails is no reason to fail if it is caught. -/
def Served (e : Event Egress) : Prop := ¬ Failing e

theorem exists_served (h : (system rt options).Reachable c) (hdone : ¬ c.Done) :
    ∃ c', (system rt options).Continues Served c c' := by
  refine exists_continues obeys (fun s d op _ => ?_) (fun op answer hop hfailing => ?_)
    (fun hfailing => nomatch hfailing) h hdone
  · cases op with
    | getString family url => exact ⟨(), (), trivial, id⟩
    | awaitString family => exact ⟨.ok [], (), trivial, id⟩
    | isCancellationRequested => exact ⟨false, (), trivial, fun hfailing => nomatch hfailing⟩
  · cases op with
    | awaitGate => exact hop rfl
    | _ => exact hfailing

/-- How a caller ends if nothing happens any more for which it fails: with addresses, unless it was
to fail before. -/
def GetsThrough (rt : Runtime) (options : EgressOptions) (t t' : Caller) : Prop :=
  ∃ es, t'.past = t.past ++ es ∧ (∀ e ∈ es, Served e) ∧
    ((∀ e ∈ t.past, Served e) →
      ∃ addresses, Task.Runs (getAsync rt options) t'.past (.ok addresses))

theorem getsThrough_of_extends {c' : State} (hreach : (system rt options).Reachable c')
    (hdone : c'.Done) {t t' : Caller} (ht' : t' ∈ c'.threads) (h : System.Extends Served t t') :
    GetsThrough rt options t t' := by
  obtain ⟨-, es, hpast, hserved⟩ := h
  refine ⟨es, hpast, hserved, fun hbefore => ?_⟩
  have hsteps := System.steps_of_reachable hreach t' ht'
  rw [hdone t' ht'] at hsteps
  obtain ⟨fst, r, snd, hfst, hrun, hsnd⟩ := Prog.run_bind.mp hsteps.run
  obtain ⟨rfl, -⟩ := Prog.run_done.mp hsnd
  rw [List.append_nil] at hfst
  subst hfst
  cases r with
  | ok addresses => exact ⟨addresses, hrun⟩
  | error ex =>
    obtain ⟨-, e, he, hfailing⟩ := (delivered_of_runs hreach ht' hrun).failed ex rfl
    rw [hpast] at he
    exact absurd hfailing ((List.mem_append.mp he).elim (hbefore e) (hserved e))

/-- **Everybody gets through**, whatever has happened before: the callers can all be brought to
their ends without a failure, the gate is free then, and who was not to fail before has addresses.
However else they go on, they come to an end. -/
theorem answered_of_reachable (h : (system rt options).Reachable c) :
    (∃ c', (system rt options).Progresses Served c c' ∧ c'.Done ∧ c'.shared.free = true ∧
      List.Forall₂ (GetsThrough rt options) c.threads c'.threads) ∧
    Acc (fun d' d => (system rt options).Continues (fun _ => True) d d') c := by
  obtain ⟨c', hprogress, hdone⟩ :=
    System.exists_done (fun _ hd hundone => exists_served hd hundone) h
  have hreachable := hprogress.reachable h
  refine ⟨⟨c', hprogress, hdone, ?_, ?_⟩, System.wellFounded_continues.apply c⟩
  · refine free_of_all_waiting obeys hreachable fun t ht op next hrest => ?_
    exact nomatch (hdone t ht).symm.trans hrest
  · obtain ⟨hlength, hzip⟩ := List.forall₂_iff_zip.mp hprogress.exists_past
    refine List.forall₂_iff_zip.mpr ⟨hlength, fun {t t'} hmem => ?_⟩
    exact getsThrough_of_extends hreachable hdone (List.of_mem_zip hmem).2 (hzip hmem)

/-- One caller asks, and another one that waits gets addresses as well. -/
theorem answered_of_two_callers :
    ∃ c : State, c.shared.free = false ∧
      (∃ t ∈ c.threads, isAsking t.past = true) ∧
      (∃ t ∈ c.threads, ∃ next, t.rest = .call (.inl .awaitGate) next) ∧
      (∃ c', (system .reference {}).Progresses Served c c' ∧ c'.Done ∧ c'.shared.free = true ∧
        List.Forall₂ (GetsThrough .reference {}) c.threads c'.threads) ∧
      Acc (fun d' d => (system .reference {}).Continues (fun _ => True) d d') c := by
  let program := (system .reference {}).program ()
  let asks : List (Event Egress) :=
    [⟨.inl .readValue, (none : Option EgressAddresses)⟩, ⟨.inl .awaitGate, true⟩,
      ⟨.inl .readValue, (none : Option EgressAddresses)⟩,
      ⟨.inr (.getString .interNetwork "https://api.ipify.org"), ()⟩,
      ⟨.inr (.getString .interNetworkV6 "https://api6.ipify.org"), ()⟩]
  let waits : List (Event Egress) := [⟨.inl .readValue, (none : Option EgressAddresses)⟩]
  obtain ⟨p, hp⟩ : ∃ p, program.Steps asks p :=
    ⟨_, .call _ (.call _ (.call _ (.call _ (.call _ (.refl _)))))⟩
  obtain ⟨next, hnext⟩ : ∃ next, program.Steps waits (.call (.inl .awaitGate) next) :=
    ⟨_, .call _ (.refl _)⟩
  let asked : Shared EgressAddresses Unit := { free := false, rest := () }
  have hrequest : ∀ {s : Shared EgressAddresses Unit} {op : EgressOp} {answer : EgressOp.Ret op},
      (system .reference {}).effect s ⟨.inr op, answer⟩ s := ⟨(), trivial, rfl⟩
  have hasks : (system .reference {}).Effects { rest := () } asks asked :=
    .cons ⟨rfl, rfl⟩ (.cons ⟨rfl, rfl⟩ (.cons ⟨rfl, rfl⟩ (.cons hrequest
      (.cons hrequest (.nil _)))))
  have hwaits : (system .reference {}).Effects asked waits asked := .cons ⟨rfl, rfl⟩ (.nil _)
  have hspawned : (system .reference {}).Reachable
      ⟨{ rest := () }, [] ++ ⟨(), [], program⟩ :: [⟨(), [], program⟩]⟩ :=
    (Relation.ReflTransGen.refl.tail (.spawn _ ())).tail (.spawn _ ())
  have hfirst : (system .reference {}).Reachable
      ⟨asked, [⟨(), [] ++ asks, p⟩] ++ ⟨(), [], program⟩ :: []⟩ := hspawned.steps hp hasks
  exact ⟨_, rfl, ⟨_, List.mem_cons_self .., rfl⟩,
    ⟨_, List.mem_cons_of_mem _ (List.mem_cons_self ..), next, rfl⟩,
    answered_of_reachable (hfirst.steps hnext hwaits)⟩

end EgressService

end LookingGlass
