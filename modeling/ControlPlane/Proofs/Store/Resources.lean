import ControlPlane.Proofs.Catalog
import ControlPlane.Store.Resources

/-! # Writes to the resource store

What the two writes do to the stored resources: `update` puts the resource under its name unless
it is an older state of the object stored there, `delete` takes it away, and neither touches any
other name.  What is published plays no part in it (`publish_resources`). -/

namespace ControlPlane.ResourceStore

/-! ### Publications do not touch what is stored -/

variable (s : ResourceStore)

@[simp] theorem setPublication_resources (p : Protocol) (x : Publication) :
    (s.setPublication p x).resources = s.resources := by
  cases p <;> rfl

@[simp] theorem setPublication_version (p : Protocol) (x : Publication) :
    (s.setPublication p x).version = s.version := by
  cases p <;> rfl

@[simp] theorem refresh_resources (p : Protocol) : (s.refresh p).resources = s.resources :=
  setPublication_resources _ _ _

@[simp] theorem refresh_version (p : Protocol) : (s.refresh p).version = s.version :=
  setPublication_version _ _ _

@[simp] theorem announce_resources (p : Protocol) : (s.announce p).resources = s.resources := by
  unfold announce
  dsimp only
  split <;> simp

@[simp] theorem announce_version (p : Protocol) : (s.announce p).version = s.version := by
  unfold announce
  dsimp only
  split <;> simp

@[simp] theorem publish_resources : s.publish.resources = s.resources := by
  simp [publish]

@[simp] theorem publish_version : s.publish.version = s.version + 1 := by
  simp [publish]

@[simp] theorem freshen_resources (p : Protocol) : (s.freshen p).resources = s.resources := by
  unfold freshen
  split <;> simp

@[simp] theorem freshen_version (p : Protocol) : (s.freshen p).version = s.version := by
  unfold freshen
  split <;> simp

/-! ### The version of the store -/

/-- A write that changes a resource takes the next version, and no other does. -/
theorem update_version (name : ResourceName) (version : ResourceVersion) (resource : Resource) :
    (s.update name version resource).1.version =
      s.version + if (s.update name version resource).2 = .stored then 1 else 0 := by
  unfold update
  cases s.outcome name version resource <;> simp [put]

/-- A removal takes the next version if there is something to remove. -/
theorem delete_version (name : ResourceName) :
    (s.delete name).1.version = s.version + if (s.delete name).2 = true then 1 else 0 := by
  unfold delete
  split <;> simp [drop]

@[simp] theorem subscribe_version (p : Protocol) : (s.subscribe p).1.version = s.version := by
  simp [subscribe]

@[simp] theorem unsubscribe_version (r : Receiver) : (s.unsubscribe r).version = s.version := by
  simp [unsubscribe]

/-! ### The stored resources after a write -/

theorem update_resources_of_outcome (name : ResourceName) (version : ResourceVersion)
    (resource : Resource) :
    (s.update name version resource).1.resources =
      if s.outcome name version resource = .stale then s.resources
      else s.resources.insert name ⟨version, resource⟩ := by
  unfold update
  cases s.outcome name version resource <;> simp [put]

theorem outcome_eq_stale_iff (name : ResourceName) (version : ResourceVersion)
    (resource : Resource) :
    s.outcome name version resource = .stale ↔ ∃ stored, s.resources.get? name = some stored ∧
      version.isOlderThan stored.version = true := by
  unfold outcome
  split
  · rename_i h
    simp [h]
  · rename_i stored h
    split
    · rename_i hold
      simp [h, hold]
    · rename_i hold
      simp only [h, Option.some.injEq, exists_eq_left', hold]
      split <;> simp

/-- A resource that is stored already, under a version that is not newer, is not stored anew. -/
theorem outcome_of_same {name : ResourceName} {old version : ResourceVersion} {resource : Resource}
    (h : s.resources.get? name = some ⟨old, resource⟩) (hold : version.isOlderThan old = false) :
    s.outcome name version resource = .unchanged := by
  simp [outcome, h, hold]

/-- To put what is stored is to change nothing. -/
theorem put_of_stored {name : ResourceName} {version : ResourceVersion} {resource : Resource}
    (h : s.resources.get? name = some ⟨version, resource⟩) : s.put name version resource = s := by
  rw [put, Catalog.insert_of_get? h]

/-- A write that is not out of date is what is stored afterwards. -/
theorem update_get?_self {name : ResourceName} {version : ResourceVersion} (resource : Resource)
    (h : ∀ stored, s.resources.get? name = some stored →
      version.isOlderThan stored.version = false) :
    (s.update name version resource).1.resources.get? name = some ⟨version, resource⟩ := by
  rw [update_resources_of_outcome, if_neg, Catalog.get?_insert_self]
  rw [outcome_eq_stale_iff]
  rintro ⟨stored, hstored, hold⟩
  rw [h stored hstored] at hold
  cases hold

theorem update_get?_of_ne {name name' : ResourceName} (version : ResourceVersion)
    (resource : Resource) (h : name' ≠ name) :
    (s.update name version resource).1.resources.get? name' = s.resources.get? name' := by
  rw [update_resources_of_outcome]
  split
  · rfl
  · rw [Catalog.get?_insert_of_ne _ _ h]

theorem delete_resources (name : ResourceName) :
    (s.delete name).1.resources =
      if s.resources.contains name then s.resources.erase name else s.resources := by
  unfold delete
  split <;> simp [drop]

theorem delete_of_absent {name : ResourceName} (h : s.resources.get? name = none) :
    (s.delete name).1 = s := by
  unfold delete
  rw [Catalog.contains_eq_false_iff.mpr h]
  rfl

@[simp] theorem delete_get?_self (name : ResourceName) :
    (s.delete name).1.resources.get? name = none := by
  rw [delete_resources]
  split
  · exact Catalog.get?_erase_self _ _
  · rename_i h
    exact Catalog.contains_eq_false_iff.mp (Bool.eq_false_iff.mpr h)

theorem delete_get?_of_ne {name name' : ResourceName} (h : name' ≠ name) :
    (s.delete name).1.resources.get? name' = s.resources.get? name' := by
  rw [delete_resources]
  split
  · exact Catalog.get?_erase_of_ne _ h
  · rfl

/-- What is left after a removal was there before. -/
theorem get?_of_delete {name name' : ResourceName} {stored : StoredResource}
    (h : (s.delete name).1.resources.get? name' = some stored) :
    s.resources.get? name' = some stored := by
  by_cases hname : name' = name
  · rw [hname, delete_get?_self] at h
    cases h
  · rwa [delete_get?_of_ne _ hname] at h

/-- The names of a kind are those under which a resource of the kind is stored. -/
theorem mem_names_iff {kind : Kind} {name : ResourceName} :
    name ∈ s.names kind ↔
      ∃ stored, s.resources.get? name = some stored ∧ stored.resource.kind = kind := by
  unfold names
  simp only [List.mem_map, List.mem_filter, decide_eq_true_eq]
  constructor
  · rintro ⟨⟨name', stored⟩, ⟨hmem, hkind⟩, rfl⟩
    exact ⟨stored, Catalog.mem_entries_iff.mp hmem, hkind⟩
  · rintro ⟨stored, hget, hkind⟩
    exact ⟨(name, stored), ⟨Catalog.mem_entries_iff.mpr hget, hkind⟩, rfl⟩

end ControlPlane.ResourceStore
