import ControlPlane.Proofs.Catalog
import ControlPlane.Proofs.Naming
import ControlPlane.Store.Objects

/-! # Writes to the object store

What a write can do to the object store, said once for all writes: it fails or changes nothing, or
it touches the object of one key (`Touched`), which then carries the revision of the write, and
appends one event to the history.  Everything else about the store follows from that: which keys
and tokens occur in it (`Sound`), and that an object which was read once is either still stored
unchanged or no longer the one its token names (`Known`), which is what lets a conditional write
notice that it comes too late (`updateStatus_cases`). -/

namespace ControlPlane.ObjectStore

/-! ### Writes and what they touch -/

/-- A write to the store, as a client or the reconciler makes it. -/
inductive Write where
  | create (stamp : Stamp) (object : Object)
  | update (object : Object)
  | updateStatus (object : Object)
  | delete (key : ObjectKey)
deriving DecidableEq, Repr

namespace Write

/-- The key of the object that a write is about. -/
def key : Write → ObjectKey
  | create _ o | update o | updateStatus o => o.key
  | delete k => k

/-- The store after a write; one that fails leaves it as it was. -/
def run (s : ObjectStore) : Write → ObjectStore
  | create stamp o => match s.create stamp o with
    | .ok (_, t) => t
    | .error _ => s
  | update o => match s.update o with
    | .ok (_, t) => t
    | .error _ => s
  | updateStatus o => match s.updateStatus o with
    | .ok (_, t) => t
    | .error _ => s
  | delete k => match s.delete k with
    | .ok t => t
    | .error _ => s

end Write

/-- The stores that writes lead to from an empty one. -/
def Reachable (s : ObjectStore) : Prop := ∃ writes : List Write, writes.foldl Write.run empty = s

theorem empty_reachable : Reachable empty := ⟨[], rfl⟩

/-- A write went through: only the object of `key` is another one, and the history tells of it. -/
structure Touched (s t : ObjectStore) (key : ObjectKey) : Prop where
  others : ∀ k, k ≠ key → t.objects.get? k = s.objects.get? k
  told : ∃ change, t.history = s.history.push ⟨change, key⟩
  revision_le : s.revision ≤ t.revision
  /-- What is stored under the key afterwards carries the revision of the write. -/
  fresh : ∀ o, t.objects.get? key = some o →
    o.key = key ∧ s.revision < t.revision ∧ o.metadata.resourceVersion = toString t.revision
  known : key.isValid = true ∨ ∃ o, s.objects.get? key = some o

section operations
variable {s t : ObjectStore} {o incoming : Object}

theorem commit_touched (change : Change) (hv : o.metadata.resourceVersion = s.nextVersion)
    (hk : o.key.isValid = true ∨ ∃ o', s.objects.get? o.key = some o') :
    Touched s (s.commit change o) o.key where
  others k hne := Catalog.get?_insert_of_ne _ _ hne
  told := ⟨change, rfl⟩
  revision_le := Nat.le_succ _
  fresh o' ho' := by
    obtain rfl : o = o' := Option.some.inj ((Catalog.get?_insert_self _ _ _).symm.trans ho')
    exact ⟨rfl, Nat.lt_succ_self _, hv⟩
  known := hk

theorem commit_get? (change : Change) : (s.commit change o).objects.get? o.key = some o :=
  Catalog.get?_insert_self _ _ _

/-- An object is created under a valid key that is free. -/
theorem create_ok {stamp : Stamp} (h : s.create stamp incoming = .ok (o, t)) :
    incoming.key.isValid = true ∧ s.objects.get? incoming.key = none ∧
      o = s.admitted stamp incoming ∧ t = s.commit .added o := by
  unfold create at h
  split at h
  · cases h
  · rename_i hvalid
    split at h
    · cases h
    · rename_i hfree
      obtain ⟨rfl, rfl⟩ := Prod.mk.inj (Except.ok.inj h)
      rw [Bool.not_eq_true', Bool.not_eq_false] at hvalid
      exact ⟨hvalid, Catalog.contains_eq_false_iff.mp (Bool.eq_false_iff.mpr hfree), rfl, rfl⟩

theorem create_touched {stamp : Stamp} (h : s.create stamp incoming = .ok (o, t)) :
    Touched s t incoming.key ∧ s.objects.get? incoming.key = none := by
  obtain ⟨hvalid, hfree, rfl, rfl⟩ := create_ok h
  exact ⟨commit_touched .added (o := s.admitted stamp incoming) rfl (Or.inl hvalid), hfree⟩

/-- The stored object that a write is about, if the write may go on. -/
theorem current_ok (h : s.current incoming = .ok o) :
    s.objects.get? incoming.key = some o ∧ (incoming.metadata.resourceVersion = "" ∨
      incoming.metadata.resourceVersion = o.metadata.resourceVersion) := by
  unfold current at h
  split at h
  · cases h
  · rename_i stored hstored
    split at h
    · cases h
    · rename_i hcond
      obtain rfl := Except.ok.inj h
      exact ⟨hstored, by tauto⟩

/-- An object with another payload, as the next revision of the store. -/
def respecified (s : ObjectStore) (o : Object) (spec : Payload) : Object :=
  { o with
    spec := spec
    metadata :=
      { o.metadata with
        generation := o.metadata.generation + 1
        resourceVersion := s.nextVersion } }

/-- A payload that is written replaces the stored one, unless the two are equal. -/
theorem update_ok (h : s.update incoming = .ok (o, t)) :
    ∃ stored, s.current incoming = .ok stored ∧
      ((stored.spec = incoming.spec ∧ t = s) ∨
        (o = s.respecified stored incoming.spec ∧ t = s.commit .modified o)) := by
  unfold update at h
  cases hc : s.current incoming with
  | error e => rw [hc] at h; cases h
  | ok stored =>
      rw [hc] at h
      dsimp only [bind, Except.bind, pure, Except.pure] at h
      refine ⟨stored, rfl, ?_⟩
      split at h
      · rename_i heq
        exact Or.inl ⟨heq, (Prod.mk.inj (Except.ok.inj h)).2.symm⟩
      · obtain ⟨rfl, rfl⟩ := Prod.mk.inj (Except.ok.inj h)
        exact Or.inr ⟨rfl, rfl⟩

theorem update_cases (h : s.update incoming = .ok (o, t)) :
    t = s ∨ ∃ stored, s.objects.get? incoming.key = some stored ∧
      o.metadata = { stored.metadata with
        generation := stored.metadata.generation + 1
        resourceVersion := s.nextVersion } ∧
      o.key = stored.key ∧ t = s.commit .modified o := by
  obtain ⟨stored, hc, ⟨-, rfl⟩ | ⟨rfl, rfl⟩⟩ := update_ok h
  · exact Or.inl rfl
  · exact Or.inr ⟨stored, (current_ok hc).1, rfl, rfl, rfl⟩

/-- An object with another status, as the next revision of the store. -/
def restated (s : ObjectStore) (o : Object) (status : Status) : Object :=
  { o with
    status := status
    metadata := { o.metadata with resourceVersion := s.nextVersion } }

theorem restated_touched (status : Status) (h : s.objects.get? o.key = some o) :
    Touched s (s.commit .modified (s.restated o status)) o.key :=
  commit_touched .modified (o := s.restated o status) rfl (Or.inr ⟨o, h⟩)

/-- A status that is written replaces the stored one, unless the two are equal. -/
theorem updateStatus_ok (h : s.updateStatus incoming = .ok (o, t)) :
    ∃ stored, s.current incoming = .ok stored ∧
      ((stored.status = incoming.status ∧ t = s) ∨
        (o = s.restated stored incoming.status ∧ t = s.commit .modified o)) := by
  unfold updateStatus at h
  cases hc : s.current incoming with
  | error e => rw [hc] at h; cases h
  | ok stored =>
      rw [hc] at h
      dsimp only [bind, Except.bind, pure, Except.pure] at h
      refine ⟨stored, rfl, ?_⟩
      split at h
      · rename_i heq
        exact Or.inl ⟨heq, (Prod.mk.inj (Except.ok.inj h)).2.symm⟩
      · obtain ⟨rfl, rfl⟩ := Prod.mk.inj (Except.ok.inj h)
        exact Or.inr ⟨rfl, rfl⟩

theorem delete_touched {key : ObjectKey} (h : s.delete key = .ok t) :
    Touched s t key ∧ t.objects.get? key = none := by
  unfold delete at h
  split at h
  · rename_i hthere
    obtain rfl := Except.ok.inj h
    refine ⟨?_, Catalog.get?_erase_self _ _⟩
    exact {
      others := fun k hne => Catalog.get?_erase_of_ne _ hne
      told := ⟨.deleted, rfl⟩
      revision_le := le_refl _
      fresh := fun o ho => by
        rw [Catalog.get?_erase_self] at ho
        cases ho
      known := Or.inr (Catalog.contains_iff.mp hthere) }
  · cases h

end operations

/-! ### What holds of every store -/

/-- The state of a store that only writes have changed. -/
structure Sound (s : ObjectStore) : Prop where
  keyed : ∀ k o, s.objects.get? k = some o → o.key = k
  valid : ∀ k o, s.objects.get? k = some o → k.isValid = true
  /-- Every token is a revision that was given out. -/
  numbered : ∀ k o, s.objects.get? k = some o →
    ∃ n ≤ s.revision, o.metadata.resourceVersion = toString n
  told : ∀ e ∈ s.history, e.key.isValid = true

theorem empty_sound : Sound empty where
  keyed k o h := by cases h
  valid k o h := by cases h
  numbered k o h := by cases h
  told e h := absurd h (by simp [empty])

section stored
variable {s t : ObjectStore} {key : ObjectKey} {o : Object}

theorem Touched.valid (hs : Sound s) (h : Touched s t key) : key.isValid = true := by
  rcases h.known with hv | ⟨o, ho⟩
  · exact hv
  · exact hs.valid _ _ ho

theorem Touched.sound (hs : Sound s) (h : Touched s t key) : Sound t where
  keyed k o ho := by
    by_cases hk : k = key
    · subst hk
      exact (h.fresh o ho).1
    · rw [h.others k hk] at ho
      exact hs.keyed k o ho
  valid k o ho := by
    by_cases hk : k = key
    · subst hk
      exact h.valid hs
    · rw [h.others k hk] at ho
      exact hs.valid k o ho
  numbered k o ho := by
    by_cases hk : k = key
    · subst hk
      exact ⟨_, le_refl _, (h.fresh o ho).2.2⟩
    · rw [h.others k hk] at ho
      obtain ⟨n, hn, hv⟩ := hs.numbered k o ho
      exact ⟨n, hn.trans h.revision_le, hv⟩
  told e he := by
    obtain ⟨change, hh⟩ := h.told
    rw [hh, Array.mem_push] at he
    rcases he with he | rfl
    · exact hs.told e he
    · exact h.valid hs

theorem update_touched (hs : Sound s) {incoming : Object} (h : s.update incoming = .ok (o, t)) :
    t = s ∨ Touched s t incoming.key := by
  refine (update_cases h).imp_right ?_
  rintro ⟨stored, hget, hmeta, hkey, rfl⟩
  rw [hs.keyed _ _ hget] at hkey
  rw [← hkey] at hget ⊢
  exact commit_touched .modified (by rw [hmeta]) (Or.inr ⟨stored, hget⟩)

theorem updateStatus_touched (hs : Sound s) {incoming : Object}
    (h : s.updateStatus incoming = .ok (o, t)) : t = s ∨ Touched s t incoming.key := by
  obtain ⟨stored, hc, ⟨-, rfl⟩ | ⟨rfl, rfl⟩⟩ := updateStatus_ok h
  · exact Or.inl rfl
  · have hget := (current_ok hc).1
    have hkey := hs.keyed _ _ hget
    rw [← hkey] at hget ⊢
    exact Or.inr (restated_touched _ hget)

/-- A write fails, changes nothing, or touches the object of its key. -/
theorem Write.run_cases (hs : Sound s) (w : Write) :
    w.run s = s ∨ Touched s (w.run s) w.key := by
  cases w with
  | create stamp o =>
      simp only [Write.run, Write.key]
      split
      · rename_i h
        exact Or.inr (create_touched h).1
      · exact Or.inl rfl
  | update o =>
      simp only [Write.run, Write.key]
      split
      · rename_i h
        exact update_touched hs h
      · exact Or.inl rfl
  | updateStatus o =>
      simp only [Write.run, Write.key]
      split
      · rename_i h
        exact updateStatus_touched hs h
      · exact Or.inl rfl
  | delete k =>
      simp only [Write.run, Write.key]
      split
      · rename_i h
        exact Or.inr (delete_touched h).1
      · exact Or.inl rfl

/-- Only a removal takes an object's identity away from its key. -/
theorem Write.run_uid (hs : Sound s) {w : Write} (hw : w ≠ .delete key)
    (h : s.objects.get? key = some o) :
    ∃ o', (w.run s).objects.get? key = some o' ∧ o'.metadata.uid = o.metadata.uid := by
  rcases w.run_cases hs with heq | ht
  · exact ⟨o, by rwa [heq], rfl⟩
  by_cases hk : key = w.key
  swap
  · exact ⟨o, by rwa [ht.others key hk], rfl⟩
  subst hk
  cases w with
  | create stamp incoming =>
      simp only [Write.run] at ht ⊢
      split
      · rename_i hcreate
        have hfree := (create_touched hcreate).2
        rw [show incoming.key = (Write.create stamp incoming).key from rfl, h] at hfree
        cases hfree
      · exact ⟨o, h, rfl⟩
  | update incoming =>
      simp only [Write.run, Write.key] at h ⊢
      split
      · rename_i o' t hupdate
        obtain rfl | ⟨stored, hget, hmeta, hkey, rfl⟩ := update_cases hupdate
        · exact ⟨o, h, rfl⟩
        · obtain rfl : stored = o := Option.some.inj (hget.symm.trans h)
          rw [hs.keyed _ _ hget] at hkey
          exact ⟨o', hkey ▸ commit_get? _, by rw [hmeta]⟩
      · exact ⟨o, h, rfl⟩
  | updateStatus incoming =>
      simp only [Write.run, Write.key] at h ⊢
      split
      · rename_i o' t hupdate
        obtain ⟨stored, hc, ⟨-, rfl⟩ | ⟨rfl, rfl⟩⟩ := updateStatus_ok hupdate
        · exact ⟨o, h, rfl⟩
        · obtain rfl : stored = o := Option.some.inj ((current_ok hc).1.symm.trans h)
          have hkey : stored.key = incoming.key := hs.keyed _ _ h
          refine ⟨s.restated stored incoming.status, ?_, rfl⟩
          rw [← hkey]
          exact commit_get? .modified
      · exact ⟨o, h, rfl⟩
  | delete k => exact absurd rfl hw

theorem Write.run_sound (hs : Sound s) (w : Write) : Sound (w.run s) := by
  rcases w.run_cases hs with heq | ht
  · rwa [heq]
  · exact ht.sound hs

theorem Reachable.sound (h : Reachable s) : Sound s := by
  obtain ⟨writes, rfl⟩ := h
  have hrun : ∀ s, Sound s → Sound (writes.foldl Write.run s) := by
    induction writes with
    | nil => exact fun _ hs => hs
    | cons w rest ih => exact fun s hs => ih _ (Write.run_sound hs w)
  exact hrun _ empty_sound

/-! ### Objects that were read before -/

/-- An object as it was read from the store at some time: if the stored object still carries the
same token, it is the same in every respect. -/
structure Known (s : ObjectStore) (o : Object) : Prop where
  numbered : ∃ n ≤ s.revision, o.metadata.resourceVersion = toString n
  same : ∀ o', s.objects.get? o.key = some o' →
    o'.metadata.resourceVersion = o.metadata.resourceVersion → o' = o

theorem known_of_get? (hs : Sound s) (h : s.objects.get? key = some o) : Known s o where
  numbered := hs.numbered _ _ h
  same o' ho' _ := by
    rw [hs.keyed _ _ h, h] at ho'
    exact (Option.some.inj ho').symm

theorem Known.touched (h : Known s o) (ht : Touched s t key) : Known t o := by
  obtain ⟨n, hn, hv⟩ := h.numbered
  refine ⟨⟨n, hn.trans ht.revision_le, hv⟩, fun o' ho' htoken => ?_⟩
  by_cases hk : o.key = key
  · rw [hk] at ho'
    obtain ⟨-, hlt, hv'⟩ := ht.fresh o' ho'
    have : t.revision = n := Text.Integer.toString_injective (by rw [← hv', htoken, hv])
    omega
  · rw [ht.others _ hk] at ho'
    exact h.same o' ho' htoken

/-- What becomes of a status that is written back to an object as it was read. -/
inductive StatusWrite (s : ObjectStore) (o : Object) (status : Status) :
    Except StoreError (Object × ObjectStore) → Prop
  | gone : s.objects.get? o.key = none →
      StatusWrite s o status (.error (.notFound o.key.display))
  /-- The object is another one than was read. -/
  | late (key : String) (o' : Object) : s.objects.get? o.key = some o' → o' ≠ o →
      StatusWrite s o status (.error (.conflict key))
  | same : s.objects.get? o.key = some o → o.status = status →
      StatusWrite s o status (.ok (o, s))
  | written : s.objects.get? o.key = some o → o.status ≠ status →
      StatusWrite s o status
        (.ok (s.restated o status, s.commit .modified (s.restated o status)))

theorem updateStatus_cases (hk : Known s o) (status : Status) :
    StatusWrite s o status (s.updateStatus { o with status := status }) := by
  obtain ⟨n, -, hv⟩ := hk.numbered
  have hne : o.metadata.resourceVersion ≠ "" := by
    rw [hv, Nat.toString_eq_repr]
    exact Nat.repr_ne_empty
  have hkey : ({ o with status := status } : Object).key = o.key := rfl
  unfold updateStatus
  cases hget : s.objects.get? o.key with
  | none =>
      have hc : s.current { o with status := status } = .error (.notFound o.key.display) := by
        unfold current
        rw [hkey, hget]
      rw [hc]
      exact .gone hget
  | some o' =>
      by_cases htoken : o'.metadata.resourceVersion = o.metadata.resourceVersion
      · obtain rfl := hk.same o' hget htoken
        have hc : s.current { o' with status := status } = .ok o' := by
          unfold current
          rw [hkey, hget]
          exact if_neg fun h => h.2 rfl
        rw [hc]
        dsimp only [bind, Except.bind, pure, Except.pure]
        split
        · rename_i hstatus
          exact .same hget hstatus
        · rename_i hstatus
          exact .written hget hstatus
      · have hc : s.current { o with status := status } = .error (.conflict o'.key.display) := by
          unfold current
          rw [hkey, hget]
          exact if_pos ⟨hne, fun h => htoken h.symm⟩
        rw [hc]
        exact .late _ o' hget fun h => htoken (h ▸ rfl)

end stored

end ControlPlane.ObjectStore
