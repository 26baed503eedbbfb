import ControlPlane.Proofs.Store.Objects

/-! # How objects come about

An object that stands in the store after a write stood there before, or the write created it, or it
replaces the payload or the status of the object that stood there before (`Write.run_came`). -/

namespace ControlPlane.ObjectStore

/-- How the object that has a key after a write came about. -/
inductive Came (s : ObjectStore) (w : Write) (key : ObjectKey) : Object → Prop
  | kept (o : Object) : s.objects.get? key = some o → Came s w key o
  | created (stamp : Stamp) (incoming : Object) : w = .create stamp incoming →
      incoming.key = key → Came s w key (s.admitted stamp incoming)
  | respecified (o incoming : Object) : w = .update incoming → s.objects.get? key = some o →
      Came s w key (s.respecified o incoming.spec)
  | restated (o incoming : Object) : w = .updateStatus incoming → s.objects.get? key = some o →
      Came s w key (s.restated o incoming.status)

section writes
variable {s t : ObjectStore} {key : ObjectKey} {o stored incoming : Object}

/-- After a commit the object stands under its key, and every other key has what it had. -/
theorem commit_cases {change : Change}
    (h : (s.commit change stored).objects.get? key = some o) :
    key = stored.key ∧ o = stored ∨ s.objects.get? key = some o := by
  have hget : (s.commit change stored).objects.get? key =
      if key = stored.key then some stored else s.objects.get? key :=
    Catalog.get?_insert _ _ _ _
  rw [hget] at h
  split at h
  · rename_i hkey
    exact Or.inl ⟨hkey, (Option.some.inj h).symm⟩
  · exact Or.inr h

theorem Write.run_came (hs : Sound s) {w : Write} (h : (w.run s).objects.get? key = some o) :
    Came s w key o := by
  cases w with
  | create stamp incoming =>
      simp only [Write.run] at h
      split at h
      · rename_i created t hcreate
        obtain ⟨-, -, rfl, rfl⟩ := create_ok hcreate
        rcases commit_cases h with ⟨hkey, rfl⟩ | hold
        · exact .created stamp incoming rfl hkey.symm
        · exact .kept o hold
      · exact .kept o h
  | update incoming =>
      simp only [Write.run] at h
      split at h
      · rename_i updated t hupdate
        obtain ⟨stored, hc, ⟨-, rfl⟩ | ⟨rfl, rfl⟩⟩ := update_ok hupdate
        · exact .kept o h
        · have hget := (current_ok hc).1
          have hkeyed : stored.key = incoming.key := hs.keyed _ _ hget
          rcases commit_cases h with ⟨hkey, rfl⟩ | hold
          · have hstored : key = incoming.key := hkey.trans hkeyed
            exact .respecified stored incoming rfl (hstored ▸ hget)
          · exact .kept o hold
      · exact .kept o h
  | updateStatus incoming =>
      simp only [Write.run] at h
      split at h
      · rename_i updated t hupdate
        obtain ⟨stored, hc, ⟨-, rfl⟩ | ⟨rfl, rfl⟩⟩ := updateStatus_ok hupdate
        · exact .kept o h
        · have hget := (current_ok hc).1
          have hkeyed : stored.key = incoming.key := hs.keyed _ _ hget
          rcases commit_cases h with ⟨hkey, rfl⟩ | hold
          · have hstored : key = incoming.key := hkey.trans hkeyed
            exact .restated stored incoming rfl (hstored ▸ hget)
          · exact .kept o hold
      · exact .kept o h
  | delete k =>
      simp only [Write.run] at h
      split at h
      · rename_i t hdelete
        obtain ⟨ht, hgone⟩ := delete_touched hdelete
        by_cases hk : key = k
        · rw [hk, hgone] at h
          cases h
        · rw [ht.others key hk] at h
          exact .kept o h
      · exact .kept o h

end writes
end ControlPlane.ObjectStore
