import ControlPlane.Proofs.Controller.Undisturbed

/-! # A new object and its first pass

An object that is created under a free key is judged by its payload alone: it bears no verdict, so
the pass that follows writes one, and nobody has changed the object in between (`Sound.submit`).  If it
is accepted it is stored whatever was stored under its name before, since a resource that is left of
an earlier object does not count as newer.  The next snapshots then show it, for the protocol of its
payload and for no other (`Admitted.shown`). -/

namespace ControlPlane

open Time (Timestamp)

namespace ResourceStore

/-! ### Entries of a snapshot -/

section entries
variable {s : ResourceStore} {p : Protocol} {shown : Snapshot}

/-- What is stored for a protocol is shown. -/
theorem Shows.exists_entry (h : s.Shows p shown) {name : ResourceName} {stored : StoredResource}
    (hstored : s.resources.get? name = some stored) (hp : stored.resource.protocol = p) :
    ∃ e ∈ shown.entries, e.name = name ∧ e.kind = stored.resource.kind ∧
      e.body = stored.resource.payload := by
  have hoffered : (name, stored.resource.envoyName, stored.resource.payload) ∈
      s.offered p stored.resource.kind := by
    refine List.mem_map.mpr ⟨(name, stored), ?_, rfl⟩
    exact List.mem_filter.mpr ⟨Catalog.mem_entries_iff.mpr hstored, decide_eq_true ⟨rfl, hp⟩⟩
  rw [← h.entries] at hoffered
  obtain ⟨e, he, hserved⟩ := List.mem_map.mp hoffered
  obtain ⟨hentry, hkind⟩ := List.mem_filter.mp he
  obtain ⟨hname, -, hbody⟩ : e.name = name ∧ e.envoyName = stored.resource.envoyName ∧
      e.body = stored.resource.payload := by
    simpa [Entry.served] using hserved
  exact ⟨e, hentry, hname, of_decide_eq_true hkind, hbody⟩

/-- What is shown is stored for the protocol. -/
theorem Shows.protocol_of_mem (h : s.Shows p shown) {e : Entry} (he : e ∈ shown.entries)
    {stored : StoredResource} (hstored : s.resources.get? e.name = some stored) :
    stored.resource.protocol = p := by
  have hserved : e.served ∈ (shown.resources e.kind).map Entry.served :=
    List.mem_map_of_mem (List.mem_filter.mpr ⟨he, decide_eq_true rfl⟩)
  rw [h.entries] at hserved
  obtain ⟨found, hfound, hsame⟩ := List.mem_map.mp hserved
  obtain ⟨hentry, hpick⟩ := List.mem_filter.mp hfound
  have hname : found.1 = e.name := congrArg Prod.fst hsame
  have hget : s.resources.get? e.name = some found.2 := by
    rw [← hname]
    exact Catalog.mem_entries_iff.mp hentry
  obtain rfl := Option.some.inj (hstored.symm.trans hget)
  exact (of_decide_eq_true hpick).2

end entries
end ResourceStore

namespace ObjectStore

/-! ### Creation under a free key -/

section creation
variable {s : ObjectStore} {o : Object}

theorem create_of_invalid (h : o.key.isValid = false) (stamp : Stamp) :
    s.create stamp o = .error (.invalid o.key.invalidText) := by
  rw [create, h]
  rfl

theorem create_of_free (hvalid : o.key.isValid = true) (hfree : s.objects.get? o.key = none)
    (stamp : Stamp) :
    s.create stamp o = .ok (s.admitted stamp o, s.commit .added (s.admitted stamp o)) := by
  rw [create, hvalid, Catalog.contains_eq_false_iff.mpr hfree]
  rfl

end creation

/-- The verdict on the object under a key. -/
def verdict? (s : ObjectStore) (key : ObjectKey) : Option Acceptance :=
  (s.objects.get? key).bind fun o => o.status.accepted?

end ObjectStore

namespace Reconcile

open Stores

/-! ### A pass with nothing in between -/

section undisturbed
variable {s : Stores} {key : ObjectKey} {o : Object}

/-- Taking over a resource leaves no publication behind. -/
theorem publish_current {s : ResourceStore} {p : Protocol} (h : s.Current p) (key : ObjectKey)
    (o : Object) (resource : Option Resource) : (publish key o resource s).Current p := by
  cases resource with
  | none => exact h
  | some r => exact h.update _ _ r

/-- A pass comes to its end with the verdict on the object, and takes its resource over. -/
theorem reconcile_undisturbed [NewerMessages] (hs : s.Sound)
    (ho : s.objects.objects.get? key = some o) (now : Timestamp) :
    ∃ objects, reconcile key now s.objects s.resources =
        (objects, publish key o (judge key o now).2 s.resources, .ok .done) ∧
      objects.verdict? key = some (pass key o now).verdict := by
  obtain ⟨hend, hpassed⟩ := hs.reconcile_cases key now
  obtain ⟨hresources, o', ho', hreviewed⟩ := hpassed.of_some hs ho
  refine ⟨(s.afterPass key now).objects, Prod.ext rfl (Prod.ext hresources hend), ?_⟩
  rw [ObjectStore.verdict?, ho', Option.bind_some]
  exact hreviewed.said

end undisturbed
end Reconcile

namespace Stores

/-! ### Creation and the pass after it -/

/-- An object is created, and one pass is made for its key. -/
def submit [NewerMessages] (s : Stores) (stamp : Stamp) (o : Object) (now : Timestamp) :
    Except StoreError (Stores × PassResult) :=
  (s.objects.create stamp o).map fun created =>
    let after := reconcile o.key now created.2 s.resources
    (⟨after.1, after.2.1⟩, after.2.2)

/-- What the stores have come to: the verdict on the new object, and the resource if there is one. -/
structure Admitted [NewerMessages] (s : Stores) (o : Object) (now : Timestamp) (t : Stores) :
    Prop where
  accepted : ∀ r, validate o.key.kind o.spec = .ok r →
    t.objects.verdict? o.key = some (.accept 1 now) ∧
      ∃ version, t.resources.resources.get? o.key.resourceName = some ⟨version, r⟩
  rejected : ∀ e, validate o.key.kind o.spec = .error e →
    t.objects.verdict? o.key = some (.reject e.reason e.message 1 now)
  current : ∀ p, s.resources.Current p → t.resources.Current p

section admission
variable [NewerMessages] {s t : Stores} {o : Object} {now : Timestamp}

theorem Sound.submit (hs : s.Sound) (hvalid : o.key.isValid = true)
    (hfree : s.objects.objects.get? o.key = none) (stamp : Stamp) (now : Timestamp) :
    ∃ t, s.submit stamp o now = .ok (t, .ok .done) ∧ s.Admitted o now t := by
  have hcreate := ObjectStore.create_of_free hvalid hfree stamp
  have hcreated : Sound ⟨s.objects.commit .added (s.objects.admitted stamp o), s.resources⟩ :=
    hs.touched (ObjectStore.create_touched hcreate).1
  have hget : (s.objects.commit .added (s.objects.admitted stamp o)).objects.get? o.key =
      some (s.objects.admitted stamp o) := ObjectStore.commit_get? .added
  obtain ⟨objects, hreconcile, hverdict⟩ := Reconcile.reconcile_undisturbed hcreated hget now
  refine ⟨⟨objects, Reconcile.publish o.key (s.objects.admitted stamp o)
    (Reconcile.judge o.key (s.objects.admitted stamp o) now).2 s.resources⟩, ?_, ?_⟩
  · rw [Stores.submit, hcreate, Except.map]
    dsimp only
    rw [hreconcile]
  · have hpublished := publish_get?_self hcreated hvalid hget now
    have hspec : (s.objects.admitted stamp o).spec = o.spec := rfl
    constructor
    · intro r hr
      rw [Reconcile.pass, Reconcile.judge_ok (by rw [hspec, hr])] at hverdict
      rw [hspec, hr] at hpublished
      exact ⟨hverdict, _, hpublished⟩
    · intro e he
      rw [Reconcile.pass, Reconcile.judge_error (by rw [hspec, he])] at hverdict
      exact hverdict
    · intro p hp
      exact Reconcile.publish_current hp _ _ _

/-- A resource that was accepted is shown under the key's name, and only for its protocol. -/
theorem Admitted.shown (h : s.Admitted o now t) (hcurrent : ∀ p, s.resources.Current p)
    {r : Resource} (hr : validate o.key.kind o.spec = .ok r) :
    (∃ e ∈ (t.resources.snapshot r.protocol).2.entries, e.name = o.key.resourceName ∧
      e.kind = o.key.kind ∧ e.body = r.payload) ∧
    ∀ p, p ≠ r.protocol → ∀ e ∈ (t.resources.snapshot p).2.entries,
      e.name ≠ o.key.resourceName := by
  obtain ⟨-, version, hstored⟩ := h.accepted r hr
  have hshows : ∀ p, t.resources.Shows p (t.resources.snapshot p).2 := fun p =>
    (h.current p (hcurrent p)).snapshot
  constructor
  · obtain ⟨e, he, hname, hkind, hbody⟩ := (hshows r.protocol).exists_entry hstored rfl
    exact ⟨e, he, hname, hkind.trans (validate_kind hr), hbody⟩
  · intro p hp e he hname
    rw [← hname] at hstored
    exact hp ((hshows p).protocol_of_mem he hstored).symm

end admission
end Stores
end ControlPlane
