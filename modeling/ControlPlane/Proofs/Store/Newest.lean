import ControlPlane.Proofs.Store.Snapshots

/-! # The newest version wins

Among writes of one object that are numbered differently, a write that comes late finds a greater
number stored and is ignored, and any other takes the place of what is stored, or at least its
version.  So whatever has come so far, what is stored is the write with the greatest number of them
(`StoredResource.Newest.update`), and in the end it is the greatest of all, in whatever order the
writes come and whatever else is asked of the store between them
(`Audience.newest_in_any_order`). -/

namespace ControlPlane

/-! ### Numbers of versions -/

namespace ResourceVersion

/-- The number that a version stands for, if it stands for one. -/
def number? (v : ResourceVersion) : Option ℕ := (Text.Integer.parse64 v.version).toOption

/-- The number that a version stands for, or zero. -/
def number (v : ResourceVersion) : ℕ := v.number?.getD 0

theorem parse64_of_numbered {v : ResourceVersion} (h : v.number?.isSome = true) :
    Text.Integer.parse64 v.version = .ok v.number := by
  unfold number number? at *
  cases hparse : Text.Integer.parse64 v.version with
  | error e =>
      rw [hparse] at h
      cases h
  | ok n => rfl

/-- Numbered versions of one object are ordered by their numbers. -/
theorem isOlderThan_iff {a b : ResourceVersion} (hidentity : a.identity = b.identity)
    (ha : a.number?.isSome = true) (hb : b.number?.isSome = true) :
    a.isOlderThan b = true ↔ a.number < b.number := by
  unfold isOlderThan
  rw [parse64_of_numbered ha, parse64_of_numbered hb]
  simp [hidentity]

end ResourceVersion

/-! ### Writes under one name -/

namespace StoredResource

/-- Writes of one object that are numbered differently. -/
structure Rivals (writes : List StoredResource) : Prop where
  identity : ∀ a ∈ writes, ∀ b ∈ writes, a.version.identity = b.version.identity
  numbered : ∀ a ∈ writes, a.version.number?.isSome = true
  distinct : writes.Pairwise fun a b => a.version.number? ≠ b.version.number?

/-- What is stored after these writes is the one with the greatest number, if there are any. -/
inductive Newest (writes : List StoredResource) : Option StoredResource → Prop
  | nothing : writes = [] → Newest writes none
  | write (w : StoredResource) : w ∈ writes →
      (∀ a ∈ writes, a.version.number ≤ w.version.number) → Newest writes (some w)

section rivals
variable {writes more : List StoredResource} {stored : Option StoredResource} {w : StoredResource}

theorem Rivals.sublist (h : Rivals writes) (hsub : more.Sublist writes) : Rivals more where
  identity a ha b hb := h.identity a (hsub.subset ha) b (hsub.subset hb)
  numbered a ha := h.numbered a (hsub.subset ha)
  distinct := h.distinct.sublist hsub

theorem Rivals.perm (h : Rivals writes) (hperm : more.Perm writes) : Rivals more where
  identity a ha b hb := h.identity a (hperm.subset ha) b (hperm.subset hb)
  numbered a ha := h.numbered a (hperm.subset ha)
  distinct := (hperm.pairwise_iff fun hne => hne.symm).mpr h.distinct

theorem Newest.exists_of_mem (h : Newest writes stored) (hw : w ∈ writes) :
    ∃ newest, stored = some newest ∧ newest ∈ writes ∧
      ∀ a ∈ writes, a.version.number ≤ newest.version.number := by
  cases h with
  | nothing hnone => exact absurd (hnone ▸ hw) List.not_mem_nil
  | write newest hmem hgreatest => exact ⟨newest, rfl, hmem, hgreatest⟩

theorem Newest.mem (h : Newest writes (some w)) : w ∈ writes := by
  cases h with
  | write _ hmem _ => exact hmem

/-- One more write: if it is stale a greater number is stored, and else it is stored itself. -/
theorem Newest.update {s : ResourceStore} {name : ResourceName}
    (h : Newest writes (s.resources.get? name)) (hrivals : Rivals (writes ++ [w])) :
    Newest (writes ++ [w]) ((s.update name w.version w.resource).1.resources.get? name) := by
  have hlast : w ∈ writes ++ [w] := List.mem_append_right _ (List.mem_singleton_self w)
  cases hstored : s.resources.get? name with
  | none =>
      rw [hstored] at h
      cases h with
      | nothing hnone =>
          rw [s.update_get?_self w.resource fun stored hsome => absurd (hstored ▸ hsome) (by simp)]
          refine .write w hlast fun a ha => ?_
          rw [hnone, List.nil_append, List.mem_singleton] at ha
          rw [ha]
  | some old =>
      rw [hstored] at h
      cases h with
      | write _ hold hgreatest =>
          have holder := ResourceVersion.isOlderThan_iff
            (hrivals.identity w hlast old (List.mem_append_left _ hold))
            (hrivals.numbered w hlast) (hrivals.numbered old (List.mem_append_left _ hold))
          cases hstale : w.version.isOlderThan old.version with
          | true =>
              have houtcome : s.outcome name w.version w.resource = .stale :=
                (s.outcome_eq_stale_iff name w.version w.resource).mpr ⟨old, hstored, hstale⟩
              rw [s.update_resources_of_outcome, if_pos houtcome, hstored]
              refine .write old (List.mem_append_left _ hold) fun a ha => ?_
              rcases List.mem_append.mp ha with hbefore | hw
              · exact hgreatest a hbefore
              · rw [List.mem_singleton.mp hw]
                exact (holder.mp hstale).le
          | false =>
              have hle : old.version.number ≤ w.version.number :=
                not_lt.mp fun hlt => Bool.false_ne_true (hstale ▸ holder.mpr hlt)
              rw [s.update_get?_self w.resource]
              · refine .write w hlast fun a ha => ?_
                rcases List.mem_append.mp ha with hbefore | hw
                · exact (hgreatest a hbefore).trans hle
                · rw [List.mem_singleton.mp hw]
              · intro stored hsome
                rw [hstored] at hsome
                obtain rfl := Option.some.inj hsome
                exact hstale

end rivals
end StoredResource

/-! ### Writes among other requests -/

namespace Audience

open StoredResource (Rivals Newest)

/-- The name that a request writes to, and what it writes. -/
def Request.write? : Request → Option (ResourceName × StoredResource)
  | update name version resource => some (name, ⟨version, resource⟩)
  | delete _ | snapshot _ | subscribe _ | drop _ => none

/-- What is written under a name, in order. -/
def under (name : ResourceName) (writes : List (ResourceName × StoredResource)) :
    List StoredResource :=
  (writes.filter fun w => w.1 = name).map (·.2)

/-- What is stored under a name after these requests. -/
def storedAfter (a : Audience) (requests : List Request) (name : ResourceName) :
    Option StoredResource :=
  (a.run requests).1.store.resources.get? name

section requests
variable {a : Audience} {name : ResourceName} {requests : List Request}
  {writes : List (ResourceName × StoredResource)} {w : ResourceName × StoredResource}

theorem mem_under {w : StoredResource} : w ∈ under name writes ↔ (name, w) ∈ writes := by
  unfold under
  simp only [List.mem_map, List.mem_filter, decide_eq_true_eq]
  constructor
  · rintro ⟨⟨_, w⟩, ⟨hmem, rfl⟩, rfl⟩
    exact hmem
  · exact fun hmem => ⟨(name, w), ⟨hmem, rfl⟩, rfl⟩

theorem under_append (more : List (ResourceName × StoredResource)) :
    under name (writes ++ more) = under name writes ++ under name more := by
  unfold under
  rw [List.filter_append, List.map_append]

theorem under_perm {more : List (ResourceName × StoredResource)} (h : more.Perm writes)
    (name : ResourceName) : (under name more).Perm (under name writes) :=
  (h.filter _).map _

theorem run_concat (a : Audience) (requests : List Request) (r : Request) :
    (a.run (requests ++ [r])).1 = ((a.run requests).1.step r).1 := by
  induction requests generalizing a with
  | nil => rfl
  | cons first rest ih => exact ih (a.step first).1

/-- A request that neither writes under a name nor deletes what is there leaves it alone. -/
theorem step_get?_of_other {r : Request} (hwrite : ∀ w, r.write? = some w → w.1 ≠ name)
    (hdelete : r ≠ .delete name) :
    (a.step r).1.store.resources.get? name = a.store.resources.get? name := by
  cases r with
  | update name' version resource =>
      exact a.store.update_get?_of_ne version resource (Ne.symm (hwrite _ rfl))
  | delete name' =>
      exact a.store.delete_get?_of_ne fun h => hdelete (congrArg Request.delete h.symm)
  | snapshot p => simp [step, ResourceStore.snapshot]
  | subscribe p => simp [step, ResourceStore.subscribe]
  | drop r =>
      simp only [step]
      split
      · simp [ResourceStore.unsubscribe]
      · rfl

/-- After any requests that do not delete it, the newest of the writes is stored. -/
theorem newest_of_run (habsent : a.store.resources.get? name = none)
    (hkept : Request.delete name ∉ requests)
    (hrivals : Rivals (under name (requests.filterMap Request.write?))) :
    Newest (under name (requests.filterMap Request.write?)) (a.storedAfter requests name) := by
  unfold storedAfter
  induction requests using List.reverseRecOn with
  | nil => exact habsent ▸ .nothing rfl
  | append_singleton rest r ih =>
      have hrest : Request.delete name ∉ rest := fun h => hkept (List.mem_append_left _ h)
      rw [List.filterMap_append, under_append] at hrivals ⊢
      have hnewest := ih hrest (hrivals.sublist (List.sublist_append_left _ _))
      rw [run_concat]
      by_cases hwrites : ∃ w, r.write? = some (name, w)
      · obtain ⟨w, hw⟩ := hwrites
        have hr : r = .update name w.version w.resource := by
          cases r with
          | update name' version resource =>
              obtain ⟨rfl, rfl⟩ := Prod.mk.inj (Option.some.inj hw)
              rfl
          | delete _ | snapshot _ | subscribe _ | drop _ => cases hw
        have hone : under name ([r].filterMap Request.write?) = [w] := by simp [under, hw]
        rw [hone] at hrivals ⊢
        rw [hr]
        exact hnewest.update hrivals
      · have hnone : under name ([r].filterMap Request.write?) = [] := by
          rw [List.eq_nil_iff_forall_not_mem]
          intro w hw
          rw [mem_under, List.mem_filterMap] at hw
          obtain ⟨r', hr', heq⟩ := hw
          exact hwrites ⟨w, List.mem_singleton.mp hr' ▸ heq⟩
        rw [hnone, List.append_nil, step_get?_of_other]
        · exact hnewest
        · rintro ⟨name', w⟩ hw rfl
          exact hwrites ⟨w, hw⟩
        · exact fun h => hkept (h ▸ List.mem_append_right _ (List.mem_singleton_self _))

/-- What is stored never goes back to a smaller number, and once there is something it stays. -/
theorem number_le_of_run {before middle : List Request} {old : StoredResource}
    (habsent : a.store.resources.get? name = none) (hkept : Request.delete name ∉ before ++ middle)
    (hrivals : Rivals (under name ((before ++ middle).filterMap Request.write?)))
    (hold : a.storedAfter before name = some old) :
    ∃ new, a.storedAfter (before ++ middle) name = some new ∧
      old.version.number ≤ new.version.number := by
  have hafter := newest_of_run habsent hkept hrivals
  rw [List.filterMap_append, under_append] at hrivals hafter
  have hbefore := newest_of_run habsent (fun h => hkept (List.mem_append_left _ h))
    (hrivals.sublist (List.sublist_append_left _ _))
  rw [hold] at hbefore
  have hmem := List.mem_append_left (under name (middle.filterMap Request.write?)) hbefore.mem
  obtain ⟨new, hnew, -, hgreatest⟩ := hafter.exists_of_mem hmem
  exact ⟨new, hnew, hgreatest old hmem⟩

end requests

/-- A collection of writes comes in any order, among any other requests.  Those under one name are
of one object and numbered differently; the names are absent at first and not deleted.  Then what is
stored under each name in the end is the write with the greatest number, and the number of what is
stored under it never decreases. -/
theorem newest_in_any_order {a : Audience} {writes : List (ResourceName × StoredResource)}
    {requests : List Request} (horder : (requests.filterMap Request.write?).Perm writes)
    (habsent : ∀ w ∈ writes, a.store.resources.get? w.1 = none)
    (hkept : ∀ w ∈ writes, Request.delete w.1 ∉ requests)
    (hrivals : ∀ w ∈ writes, Rivals (under w.1 writes)) :
    ∀ w ∈ writes,
      (∃ newest ∈ writes, newest.1 = w.1 ∧
        (∀ v ∈ writes, v.1 = w.1 → v.2.version.number ≤ newest.2.version.number) ∧
        a.storedAfter requests w.1 = some newest.2) ∧
      ∀ before middle later, requests = before ++ middle ++ later →
        ∀ old, a.storedAfter before w.1 = some old →
          ∃ new, a.storedAfter (before ++ middle) w.1 = some new ∧
            old.version.number ≤ new.version.number := by
  rintro ⟨name, w⟩ hw
  have hmine : Rivals (under name (requests.filterMap Request.write?)) :=
    (hrivals _ hw).perm (under_perm horder name)
  constructor
  · have hnewest := newest_of_run (habsent _ hw) (hkept _ hw) hmine
    obtain ⟨newest, hstored, hmem, hgreatest⟩ :=
      hnewest.exists_of_mem (mem_under.mpr (horder.mem_iff.mpr hw))
    refine ⟨(name, newest), horder.mem_iff.mp (mem_under.mp hmem), rfl, ?_, hstored⟩
    rintro ⟨_, v⟩ hv rfl
    exact hgreatest v (mem_under.mpr (horder.mem_iff.mpr hv))
  · rintro before middle later rfl old hold
    refine number_le_of_run (habsent _ hw) (fun h => hkept _ hw (List.mem_append_left _ h)) ?_ hold
    rw [List.filterMap_append, under_append] at hmine
    exact hmine.sublist (List.sublist_append_left _ _)

/-! ### Late writes -/

/-- The writes of two objects. The tokens of the first stand for nine, ten and twelve, and its
greatest number comes with the same resource as its least. -/
def rivalWrites : List (ResourceName × StoredResource) :=
  [(⟨"default/foo"⟩, ⟨⟨"uid", "9"⟩, listener .v2⟩),
    (⟨"default/foo"⟩, ⟨⟨"uid", "010"⟩, listener .v3⟩),
    (⟨"default/foo"⟩, ⟨⟨"uid", "+12"⟩, listener .v2⟩),
    (⟨"default/bar"⟩, ⟨⟨"other", "1"⟩, listener .v3⟩),
    (⟨"default/bar"⟩, ⟨⟨"other", "2"⟩, listener .v2⟩)]

/-- They come out of order, while somebody listens and something else is deleted. -/
def lateWrites : List Request :=
  [.update ⟨"default/foo"⟩ ⟨"uid", "9"⟩ (listener .v2), .subscribe .v3,
    .update ⟨"default/bar"⟩ ⟨"other", "2"⟩ (listener .v2),
    .update ⟨"default/foo"⟩ ⟨"uid", "+12"⟩ (listener .v2), .delete ⟨"default/baz"⟩,
    .update ⟨"default/bar"⟩ ⟨"other", "1"⟩ (listener .v3),
    .update ⟨"default/foo"⟩ ⟨"uid", "010"⟩ (listener .v3), .snapshot .v2]

theorem newest_after_late_writes :
    (lateWrites.filterMap Request.write?).Perm rivalWrites ∧
      empty.storedAfter lateWrites ⟨"default/foo"⟩ = some ⟨⟨"uid", "+12"⟩, listener .v2⟩ := by
  have horder : (lateWrites.filterMap Request.write?).Perm rivalWrites := by decide +kernel
  have hidentity : ∀ w ∈ rivalWrites, ∀ a ∈ under w.1 rivalWrites, ∀ b ∈ under w.1 rivalWrites,
      a.version.identity = b.version.identity := by decide +kernel
  have hnumbered : ∀ w ∈ rivalWrites, ∀ a ∈ under w.1 rivalWrites,
      a.version.number?.isSome = true := by decide +kernel
  have hdistinct : ∀ w ∈ rivalWrites, (under w.1 rivalWrites).Pairwise
      fun a b => a.version.number? ≠ b.version.number? := by decide +kernel
  obtain ⟨⟨newest, hmem, hname, hgreatest, hstored⟩, -⟩ :=
    newest_in_any_order (a := empty) horder (fun _ _ => rfl) (by decide +kernel)
      (fun w hw => ⟨hidentity w hw, hnumbered w hw, hdistinct w hw⟩)
      (⟨"default/foo"⟩, ⟨⟨"uid", "9"⟩, listener .v2⟩) (by decide +kernel)
  have hlast : ∀ newest ∈ rivalWrites, newest.1 = ⟨"default/foo"⟩ →
      (∀ v ∈ rivalWrites, v.1 = ⟨"default/foo"⟩ →
        v.2.version.number ≤ newest.2.version.number) →
      newest.2 = ⟨⟨"uid", "+12"⟩, listener .v2⟩ := by decide +kernel
  refine ⟨horder, ?_⟩
  rw [← hlast newest hmem hname hgreatest]
  exact hstored

end Audience
end ControlPlane
