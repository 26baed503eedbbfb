import ControlPlane.Proofs.Discovery.Deployments

/-! # Passes in a running deployment

Whatever was written, served and asked for before, and whatever passes are open, one that is made now
with nothing in between does all that a pass is for (`Deployment.accomplished_of_run`).  When it is
made again, nothing new is written, published or served, and the third time nothing changes at all,
whatever the clocks say (`Deployment.fixed_of_run`).  Such passes are runs of the deployment
themselves (`Deployment.run_afterPass`). -/

namespace ControlPlane

open Time (Timestamp)

namespace Reconcilers

/-- A pass with nothing in between is a run: it begins and, if it is open then, goes on at once. -/
theorem run_afterPass [NewerMessages] (r : Reconcilers) (key : ObjectKey) (now : Timestamp) :
    ∃ moves, r.run moves = some ⟨r.stores.afterPass key now, r.passes⟩ := by
  have hpass := Reconcile.reconcile_eq key now r.stores
  cases hstart : Reconcile.start key now r.stores with
  | mk t progress =>
      cases progress with
      | ended result =>
          refine ⟨[.start key now none], ?_⟩
          rw [Stores.afterPass_of_ended hstart]
          simp [run, step, Reconcile.attempt, hstart, Reconcile.Progress.judged?]
      | judged pass =>
          refine ⟨[.start key now none, .finish 0 none], ?_⟩
          rw [hstart] at hpass
          rw [Stores.afterPass, hpass]
          simp [run, step, Reconcile.attempt, hstart, Reconcile.Progress.judged?,
            Reconcile.complete]

end Reconcilers

namespace Discovery.Deployment

theorem run_map_reconcile [NewerMessages] (d : Deployment) (moves : List Reconcilers.Move) :
    d.run (moves.map .reconcile) =
      (d.reconcilers.run moves).map fun r => { d with reconcilers := r } := by
  induction moves generalizing d with
  | nil => rfl
  | cons m rest ih =>
      rw [List.map_cons, run, List.foldlM_cons, Reconcilers.run, List.foldlM_cons]
      simp only [step]
      cases d.reconcilers.step m with
      | none => rfl
      | some r => exact ih { d with reconcilers := r }

/-- The stores after a pass that is made now are those of a run. -/
theorem run_afterPass [NewerMessages] (d : Deployment) (key : ObjectKey) (now : Timestamp) :
    ∃ moves, d.run moves = some { d with
      reconcilers := ⟨d.reconcilers.stores.afterPass key now, d.reconcilers.passes⟩ } := by
  obtain ⟨moves, hmoves⟩ := d.reconcilers.run_afterPass key now
  refine ⟨moves.map .reconcile, ?_⟩
  rw [run_map_reconcile, hmoves, Option.map_some]

section runs
variable {d : Deployment} {moves : List Move}

theorem stores_sound_of_run [NewerMessages] (hrun : (opening .empty).run moves = some d) :
    d.reconcilers.stores.Sound :=
  ((opening_kept ObjectStore.empty_sound).run hrun).reconcilers.stores

/-- A pass that nothing disturbs comes to its end and does all that a pass is for. -/
theorem accomplished_of_run [NewerMessages] (hrun : (opening .empty).run moves = some d)
    (key : ObjectKey) (now : Timestamp) :
    (reconcile key now d.reconcilers.stores.objects d.reconcilers.stores.resources).2.2 =
        .ok .done ∧
      d.reconcilers.stores.Accomplished (d.reconcilers.stores.afterPass key now) key now := by
  have hs := stores_sound_of_run hrun
  obtain ⟨hend, hpassed⟩ := hs.reconcile_cases key now
  exact ⟨hend, hs.accomplished hpassed⟩

/-- A cluster was accepted, and then its payload was replaced by one without a name. -/
def afterUpdate : Deployment :=
  ((opening .empty).run ((Reconcilers.raceMoves.take 4).map .reconcile)).get (by decide +kernel)

/-- The pass that comes then rejects the payload, and the resource that was accepted stays. -/
theorem accomplished_after_update :
    (opening .empty).run ((Reconcilers.raceMoves.take 4).map .reconcile) = some afterUpdate ∧
      ∃ o o' v t, afterUpdate.reconcilers.stores.afterPass (Reconcilers.cluster []).key ⟨9, 0⟩ = t ∧
        afterUpdate.reconcilers.stores.objects.objects.get? (Reconcilers.cluster []).key = some o ∧
        t.objects.objects.get? (Reconcilers.cluster []).key = some o' ∧
        o.Reviewed o' (Reconcilers.cluster []).key ⟨9, 0⟩ v ∧
        o.status.accepted?.map (·.accepted) = some true ∧ v.accepted = false ∧
        t.resources = afterUpdate.reconcilers.stores.resources := by
  have hrun : (opening .empty).run ((Reconcilers.raceMoves.take 4).map .reconcile) =
      some afterUpdate := (Option.some_get _).symm
  obtain ⟨-, haccomplished⟩ := accomplished_of_run hrun (Reconcilers.cluster []).key ⟨9, 0⟩
  have hobject : (afterUpdate.reconcilers.stores.objects.objects.get?
      (Reconcilers.cluster []).key).map (fun o => (o.spec, o.status.accepted?.map (·.accepted))) =
        some ((Reconcilers.cluster []).spec, some true) := by decide +kernel
  obtain ⟨o, ho, hfields⟩ := Option.map_eq_some_iff.mp hobject
  obtain ⟨hspec, hbefore⟩ := Prod.mk.inj hfields
  obtain ⟨o', v, ho', hreviewed⟩ := haccomplished.reviewed o ho
  have hrejected : (validate .cluster (Reconcilers.cluster []).spec).isOk = false := by
    decide +kernel
  cases hv : validate (Reconcilers.cluster []).key.kind o.spec with
  | ok r =>
      rw [← hspec, show Kind.cluster = (Reconcilers.cluster []).key.kind from rfl, hv] at hrejected
      cases hrejected
  | error e =>
      have htells := hreviewed.tells
      rw [hv] at htells
      exact ⟨hrun, o, o', v, _, rfl, ho, ho', hreviewed, hbefore, htells.1,
        haccomplished.rejected o e ho hv⟩

/-- Of three passes in a row the second ends without writing a status and brings nothing new to
anybody, and the third leaves the stores exactly as they are. -/
theorem fixed_of_run [NewerMessages] (hrun : (opening .empty).run moves = some d) (key : ObjectKey)
    (first second third : Timestamp) :
    ∃ s t, d.reconcilers.stores.afterPass key first = s ∧
      Reconcile.start key second s = (t, .ended (.ok .done)) ∧ s.afterPass key second = t ∧
      s.Quiet t ∧ t.afterPass key third = t := by
  have hs := stores_sound_of_run hrun
  obtain ⟨-, hpassed⟩ := hs.reconcile_cases key first
  have hsecond := hpassed.sound hs
  obtain ⟨t, hstart, hquiet, hsettled⟩ := (hs.recorded hpassed).quiet hsecond second
  have ht := Stores.afterPass_of_ended hstart
  have hthird : t.Sound := ht ▸ (hsecond.reconcile_cases key second).2.sound hsecond
  exact ⟨_, t, rfl, hstart, ht, hquiet, hsettled.afterPass hthird third⟩

/-- A cluster was created, and no pass has been made for it. -/
def afterCreate : Deployment :=
  ((opening .empty).run ((Reconcilers.raceMoves.take 1).map .reconcile)).get (by decide +kernel)

/-- The first pass stores the cluster and, by writing its status, gives it another version, which
the second pass takes over. -/
theorem fixed_after_create :
    (opening .empty).run ((Reconcilers.raceMoves.take 1).map .reconcile) = some afterCreate ∧
      ∃ s t, afterCreate.reconcilers.stores.afterPass (Reconcilers.cluster []).key ⟨1, 0⟩ = s ∧
        s.afterPass (Reconcilers.cluster []).key ⟨2, 0⟩ = t ∧ s.Quiet t ∧
        t.afterPass (Reconcilers.cluster []).key ⟨3, 0⟩ = t ∧
        (s.resources.resources.get? (Reconcilers.cluster []).key.resourceName).map (·.version) =
          some ⟨"first", "1"⟩ ∧
        (t.resources.resources.get? (Reconcilers.cluster []).key.resourceName).map (·.version) =
          some ⟨"first", "2"⟩ := by
  have hrun : (opening .empty).run ((Reconcilers.raceMoves.take 1).map .reconcile) =
      some afterCreate := (Option.some_get _).symm
  obtain ⟨s, t, rfl, -, rfl, hquiet, hstill⟩ :=
    fixed_of_run hrun (Reconcilers.cluster []).key ⟨1, 0⟩ ⟨2, 0⟩ ⟨3, 0⟩
  refine ⟨hrun, _, _, rfl, rfl, hquiet, hstill, ?_, ?_⟩
  · decide +kernel
  · decide +kernel

end runs
end Discovery.Deployment
end ControlPlane
