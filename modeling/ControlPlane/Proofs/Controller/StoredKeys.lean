import ControlPlane.Proofs.Controller.Provenance
import ControlPlane.Proofs.Pipeline.Coverage

/-! # Keys of stored resources

When events of the object store were missed, a controller finds the resources that may have to go by
their names alone, so a name has to lead back to its object.  It does (`Sound.map_storedKeys`): the
keys that are read back have exactly the names that are stored, in the same order, and the key of a
resource is the key of the object that it was accepted for (`names_recovered`). -/

namespace ControlPlane

namespace Stores

section keys
variable [NewerMessages] {s : Stores} {kind : Kind} {name : ResourceName} {stored : StoredResource}

/-- What is stored has the name of a valid key of its kind. -/
theorem Sound.exists_key (h : s.Sound) (hstored : s.resources.resources.get? name = some stored) :
    ∃ key : ObjectKey, key.isValid = true ∧ key.kind = stored.resource.kind ∧
      key.resourceName = name := by
  obtain ⟨key, hvalid, hname, payload, hok⟩ := h.rooted name stored hstored
  exact ⟨key, hvalid, (validate_kind hok).symm, hname⟩

/-- No stored resource is passed over, and none is taken for another. -/
theorem Sound.map_storedKeys (h : s.Sound) (kind : Kind) :
    (Controller.storedKeys kind s.resources).map ObjectKey.resourceName
      = s.resources.names kind := by
  have hback : ∀ name ∈ s.resources.names kind,
      (ObjectKey.ofResourceName? name).map ObjectKey.resourceName = some name := by
    intro name hname
    obtain ⟨stored, hstored, -⟩ := (ResourceStore.mem_names_iff _).mp hname
    obtain ⟨key, hvalid, -, rfl⟩ := h.exists_key hstored
    rw [ObjectKey.ofResourceName?_resourceName hvalid, Option.map_some]
  calc (Controller.storedKeys kind s.resources).map ObjectKey.resourceName
      = (s.resources.names kind).filterMap fun name =>
          (ObjectKey.ofResourceName? name).map ObjectKey.resourceName := List.map_filterMap
    _ = (s.resources.names kind).filterMap some := List.filterMap_congr hback
    _ = s.resources.names kind := List.filterMap_some

end keys
end Stores

namespace Reconcilers

/-- Names are valid, unique and reversible, and so the keys behind all that a run of clients and
passes has left in the resource store can be told from it: they have the stored names, and each
stored resource was accepted for the object under its key. -/
theorem names_recovered [NewerMessages] :
    (∀ key : ObjectKey, key.isValid = true ↔
      ObjectKey.IsPart key.space ∧ ObjectKey.IsPart key.name) ∧
    {key : ObjectKey | key.isValid = true}.InjOn ObjectKey.resourceName ∧
    (∀ key : ObjectKey, key.isValid = true →
      key.resourceName.parts? = some (key.space, key.kind, key.name)) ∧
    (∀ space kind name, '/' ∉ space.toList → (ResourceName.of space kind name).parts?
      = some (space.map Char.toLower, kind, name.map Char.toLower)) ∧
    ∀ objects : ObjectStore, objects.Reachable → ∀ moves r,
      (opening objects).run moves = some r →
      (∀ kind, (Controller.storedKeys kind r.stores.resources).map ObjectKey.resourceName
        = r.stores.resources.names kind) ∧
      ∀ name stored, r.stores.resources.resources.get? name = some stored →
        ∃ key ∈ Controller.storedKeys stored.resource.kind r.stores.resources,
          key.resourceName = name ∧ ∃ before after q o, moves = before ++ after ∧
            (opening objects).run before = some q ∧ q.stores.Accepted key o stored := by
  refine ⟨fun key => ObjectKey.isValid_iff, ?_, fun key => ObjectKey.parts?_resourceName,
    fun space kind name h => ObjectKey.parts?_of h kind name, ?_⟩
  · intro a ha b hb hname
    exact ObjectKey.resourceName_injective ha hb hname
  · intro objects hobjects moves r hrun
    have hopening : (opening objects).Sound := opening_sound hobjects.sound
    have hr : r.Sound := hopening.run hrun
    refine ⟨hr.stores.map_storedKeys, ?_⟩
    intro name stored hstored
    rcases hopening.run_vouches hrun hstored with hnone | hvouched
    · cases hnone
    · obtain ⟨before, after, q, hmoves, hbefore, key, o, rfl, haccepted⟩ := hvouched
      have hq : q.Sound := hopening.run hbefore
      have hvalid : key.isValid = true := hq.stores.objects.valid key o haccepted.present
      have hkind : key.kind = stored.resource.kind := (validate_kind haccepted.decoded).symm
      have hmem : key ∈ Controller.storedKeys stored.resource.kind r.stores.resources :=
        hr.stores.mem_storedKeys_iff.mpr ⟨hvalid, hkind, stored, hstored⟩
      exact ⟨key, hmem, rfl, before, after, q, o, hmoves, hbefore, haccepted⟩

/-- In the race the one stored resource leads back to the cluster. -/
theorem names_recovered_in_race :
    (Controller.storedKeys .cluster (inRace 6).stores.resources).map ObjectKey.resourceName
        = (inRace 6).stores.resources.names .cluster ∧
      Controller.storedKeys .cluster (inRace 6).stores.resources = [(cluster []).key] := by
  obtain ⟨-, -, -, -, hruns⟩ := names_recovered
  obtain ⟨hnames, -⟩ := hruns .empty ObjectStore.empty_reachable _ _ (run_raceMoves 6)
  exact ⟨hnames .cluster, by decide +kernel⟩

end Reconcilers
end ControlPlane
