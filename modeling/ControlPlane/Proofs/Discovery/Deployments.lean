import ControlPlane.Proofs.Controller.Admission
import ControlPlane.Proofs.Discovery.Authenticity
import ControlPlane.Proofs.Discovery.FirstAnswer

/-! # The stores of a deployment

Passes, streams and single requests share the resource store.  The streams and requests change only
who listens and what is published, so the stores stay in order for the passes; and the passes publish
what they change, so a publication without a mark shows what is stored, whoever did what
(`Deployment.Kept.run`). -/

namespace ControlPlane

open Time (Timestamp)

namespace Reconcile

section current
variable {s : ResourceStore} {p : Protocol}

theorem begin_current [NewerMessages] (h : s.Current p) (key : ObjectKey) (now : Timestamp)
    (answer : Except StoreError Object) : (begin key now answer s).1.Current p := by
  unfold begin
  cases answer with
  | error e =>
      dsimp only
      split
      · exact h.delete _
      · exact h
  | ok o =>
      dsimp only
      split
      · exact publish_current h _ _ _
      · exact h

theorem finish_current (h : s.Current p) (pass : Judged) (answer : Except StoreError Unit) :
    (finish pass answer s).1.Current p := by
  unfold finish
  cases answer with
  | ok done => exact publish_current h _ _ _
  | error e =>
      dsimp only
      split
      · exact h
      · split
        · exact h.delete _
        · exact h

end current
end Reconcile

namespace Reconcilers

theorem step_current [NewerMessages] {r q : Reconcilers} {m : Move} {p : Protocol}
    (h : r.stores.resources.Current p) (hm : r.step m = some q) :
    q.stores.resources.Current p := by
  cases m with
  | client w =>
      obtain rfl := Option.some.inj hm
      exact h
  | start key now failure =>
      obtain rfl := Option.some.inj hm
      cases failure with
      | none => exact Reconcile.begin_current h key now _
      | some e => exact Reconcile.begin_current h key now (.error e)
  | finish index failure =>
      obtain ⟨pass, -, -, rfl⟩ := step_finish hm
      cases failure with
      | some e => exact Reconcile.finish_current h pass (.error e)
      | none =>
          dsimp only [Reconcile.complete, Reconcile.conclude]
          split
          · exact Reconcile.finish_current h pass _
          · exact Reconcile.finish_current h pass _

end Reconcilers

namespace Discovery

/-- A stream that moves of its own accord does nothing to the store but stop listening. -/
theorem Exchange.step_hall {e f : Exchange} {m : Move} (hown : m.isOwn = true)
    (hm : e.step m = some f) : f.hall = e.hall ∨ ∃ r, f.hall = e.hall.step (.leave r) := by
  have hnext : ∀ stream cause, (e.next stream cause).hall = e.hall ∨
      ∃ r, (e.next stream cause).hall = e.hall.step (.leave r) := by
    intro stream cause
    unfold next
    split
    · exact Or.inl rfl
    · exact Or.inr ⟨_, rfl⟩
  cases m with
  | hall m => cases hown
  | send input =>
      obtain rfl := Option.some.inj hm
      exact Or.inl rfl
  | hangUp =>
      obtain rfl := Option.some.inj hm
      exact Or.inl rfl
  | takeInput =>
      simp only [Exchange.step] at hm
      split at hm
      · obtain rfl := Option.some.inj hm
        exact hnext _ _
      · cases hm
  | takeSnapshot =>
      simp only [Exchange.step] at hm
      split at hm
      · obtain rfl := Option.some.inj hm
        exact hnext _ _
      · cases hm
  | cancel =>
      simp only [Exchange.step] at hm
      split at hm
      · obtain rfl := Option.some.inj hm
        exact hnext _ _
      · cases hm

namespace Deployment

/-! ### What everybody keeps true of the stores -/

/-- The stores are in order for the passes, and publications without a mark show what is stored. -/
structure Kept [NewerMessages] (d : Deployment) : Prop where
  reconcilers : d.reconcilers.Sound
  current : d.hall.Current

section kept
variable [NewerMessages] {d f : Deployment}

theorem opening_kept {objects : ObjectStore} (h : objects.Sound) : (opening objects).Kept where
  reconcilers := Reconcilers.opening_sound h
  current := ResourceStore.empty_current

/-- What is true of the stores does not depend on who listens. -/
theorem Kept.quiet (h : d.Kept) {m : Hall.Move} (hquiet : m.writes = false) :
    (d.withHall (d.hall.step m)).Kept where
  reconcilers := by
    obtain ⟨hresources, -⟩ := Hall.step_stored (h := d.hall) hquiet
    have hstores := h.reconcilers.stores
    refine ⟨⟨hstores.objects, ?_, ?_, ?_⟩, ?_⟩
    · intro name stored hstored
      exact hstores.rooted name stored (hresources ▸ hstored)
    · intro name stored hstored
      exact hstores.numbered name stored (hresources ▸ hstored)
    · intro key stored o hvalid hstored
      exact hstores.notOlder key stored o hvalid (hresources ▸ hstored)
    · intro pass hpass
      have hmoved : d.reconcilers.stores.Moved
          ⟨d.reconcilers.stores.objects, (d.hall.step m).store⟩ pass.key :=
        ⟨Or.inl rfl, fun name _ => congrArg (·.get? name) hresources⟩
      exact (h.reconcilers.passes pass hpass).moved hmoved
  current := h.current.step m

theorem Kept.step (h : d.Kept) {m : Move} (hm : d.step m = some f) : f.Kept := by
  cases m with
  | reconcile m =>
      obtain ⟨r, hr, rfl⟩ := Option.map_eq_some_iff.mp hm
      exact ⟨h.reconcilers.step hr, fun p => Reconcilers.step_current (h.current p) hr⟩
  | connect method protocol scope serial =>
      obtain rfl := Option.some.inj hm
      have hjoined : (d.withHall (d.hall.step (.join protocol))).Kept := h.quiet rfl
      exact ⟨hjoined.reconcilers, hjoined.current⟩
  | line index m =>
      simp only [Deployment.step] at hm
      split at hm
      · rename_i hown
        obtain ⟨l, hl, hm⟩ := Option.bind_eq_some_iff.mp hm
        obtain ⟨e, he, hm⟩ := Option.bind_eq_some_iff.mp hm
        obtain rfl := Option.some.inj hm
        rcases Exchange.step_hall hown he with hsame | ⟨r, hleft⟩
        · rw [hsame]
          exact ⟨h.reconcilers, h.current⟩
        · rw [hleft]
          have hkept : (d.withHall (d.hall.step (.leave r))).Kept := h.quiet rfl
          exact ⟨hkept.reconcilers, hkept.current⟩
      · cases hm
  | fetch protocol scope request nonce =>
      have hkept : (d.withHall
          ⟨(Discovery.fetch d.hall.store protocol scope request nonce).1, d.listeners⟩).Kept := by
        unfold Discovery.fetch
        split
        · exact ⟨h.reconcilers, h.current⟩
        · exact h.quiet (m := .read protocol) rfl
      obtain rfl := Option.some.inj hm
      exact ⟨hkept.reconcilers, hkept.current⟩

theorem Kept.run (h : d.Kept) {moves : List Move} (hrun : d.run moves = some f) : f.Kept :=
  run_keeps h (fun _ _ _ _ hd hm => hd.step hm) hrun

end kept

end Deployment
end Discovery
end ControlPlane
