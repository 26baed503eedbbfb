import ControlPlane.Proofs.Controller.Pass

/-! # What a pass leaves behind

A key is settled when its object, its stored resource and its verdict say the same (`Settled`).  A
first half that ends its pass settles the key (`Started.settles`).  A second half settles it as
well, unless the pass is to be run again or has itself changed the object, which the history then
tells of (`Concluded.settles`).  Nothing that happens to another key unsettles it
(`Settled.moved`).

Along the way a resource stays with its object: once it carries the identity of the object that
has the key, it does so until the object is removed (`Owned`). -/

namespace ControlPlane

open Time (Timestamp)

namespace Stores

/-! ### Settled keys -/

/-- There is nothing left to do for a key. -/
structure Settled [NewerMessages] (s : Stores) (key : ObjectKey) : Prop where
  gone : s.objects.objects.get? key = none → s.resources.resources.get? key.resourceName = none
  served : ∀ o r, s.objects.objects.get? key = some o → validate key.kind o.spec = .ok r →
    s.resources.resources.get? key.resourceName = some ⟨o.resourceVersion, r⟩
  judged : ∀ o, s.objects.objects.get? key = some o →
    ∃ time, o.status.accepted? = some (Reconcile.judge key o time).1

section settled
variable [NewerMessages] {s t : Stores} {key k : ObjectKey} {o : Object}

theorem Settled.moved (h : s.Settled k) (hm : s.Moved t key) (hvalid : key.isValid = true)
    (hv : k.isValid = true) (hk : k ≠ key) : t.Settled k where
  gone ho := by
    rw [hm.get?_of_ne hk] at ho
    rw [hm.resource_of_ne hvalid hv hk]
    exact h.gone ho
  served o r ho hr := by
    rw [hm.get?_of_ne hk] at ho
    rw [hm.resource_of_ne hvalid hv hk]
    exact h.served o r ho hr
  judged o ho := by
    rw [hm.get?_of_ne hk] at ho
    exact h.judged o ho

theorem delete_settled (ho : s.objects.objects.get? key = none) :
    Settled ⟨s.objects, (s.resources.delete key.resourceName).1⟩ key where
  gone _ := ResourceStore.delete_get?_self _ _
  served o r ho' _ := by
    rw [ho] at ho'
    cases ho'
  judged o ho' := by
    rw [ho] at ho'
    cases ho'

theorem publish_settled (hs : Sound s) (hvalid : key.isValid = true)
    (ho : s.objects.objects.get? key = some o) (now : Timestamp) {time : Timestamp}
    (hverdict : o.status.accepted? = some (Reconcile.judge key o time).1) :
    Settled ⟨s.objects,
      Reconcile.publish key o (Reconcile.judge key o now).2 s.resources⟩ key where
  gone ho' := by
    rw [ho] at ho'
    cases ho'
  served o' r ho' hr := by
    obtain rfl : o = o' := Option.some.inj (ho.symm.trans ho')
    rw [publish_get?_self hs hvalid ho now, hr]
  judged o' ho' := by
    obtain rfl : o = o' := Option.some.inj (ho.symm.trans ho')
    exact ⟨time, hverdict⟩

end settled

/-! ### Resources that stay with their object -/

/-- The resource stored under the name of the key came from the object that has the key. -/
def Owned (s : Stores) (key : ObjectKey) : Prop :=
  ∃ o stored, s.objects.objects.get? key = some o ∧
    s.resources.resources.get? key.resourceName = some stored ∧
    stored.version.identity = o.metadata.uid

section owned
variable {s t : Stores} {key k : ObjectKey} {o : Object}

theorem Owned.moved (h : s.Owned k) (hm : s.Moved t key) (hvalid : key.isValid = true)
    (hv : k.isValid = true) (hk : k ≠ key) : t.Owned k := by
  obtain ⟨o, stored, ho, hs, hid⟩ := h
  exact ⟨o, stored, by rwa [hm.get?_of_ne hk], by rwa [hm.resource_of_ne hvalid hv hk], hid⟩

theorem Owned.write (h : s.Owned key) (hs : s.objects.Sound) {w : ObjectStore.Write}
    (hw : w ≠ .delete key) : Owned ⟨w.run s.objects, s.resources⟩ key := by
  obtain ⟨o, stored, ho, hstored, hid⟩ := h
  obtain ⟨o', ho', huid⟩ := ObjectStore.Write.run_uid hs hw ho
  exact ⟨o', stored, ho', hstored, hid.trans huid.symm⟩

theorem Owned.publish [NewerMessages] (h : s.Owned key) (hs : Sound s) (hvalid : key.isValid = true)
    (ho : s.objects.objects.get? key = some o) (now : Timestamp) :
    Owned ⟨s.objects,
      Reconcile.publish key o (Reconcile.judge key o now).2 s.resources⟩ key := by
  obtain ⟨o', stored, ho', hstored, hid⟩ := h
  obtain rfl : o = o' := Option.some.inj (ho.symm.trans ho')
  have hself := publish_get?_self hs hvalid ho now
  cases hv : validate key.kind o.spec with
  | ok r =>
      rw [hv] at hself
      exact ⟨o, _, ho, hself, rfl⟩
  | error e =>
      rw [hv] at hself
      exact ⟨o, stored, ho, hself.trans hstored, hid⟩

/-- What is stored after a pass has taken over a resource was stored before, or came from the
object that has the key. -/
theorem stored_of_publish [NewerMessages] (hs : Sound s) (hvalid : key.isValid = true)
    (ho : s.objects.objects.get? key = some o) (now : Timestamp) {stored : StoredResource}
    (h : (Reconcile.publish key o (Reconcile.judge key o now).2 s.resources).resources.get?
      key.resourceName = some stored) :
    s.resources.resources.get? key.resourceName = some stored ∨
      stored.version = o.resourceVersion := by
  rcases publish_cases hs hvalid ho now h with hold | ⟨-, r, -, rfl⟩
  · exact Or.inl hold
  · exact Or.inr rfl

end owned
end Stores

namespace Reconcile

open Stores

/-! ### First halves -/

section start
variable [NewerMessages] {s : Stores} {key : ObjectKey} {now : Timestamp} {x : Stores × Progress}

theorem Started.sound (h : Started key now s x) (hs : s.Sound) : x.1.Sound := by
  cases h with
  | gone => exact hs.delete key
  | recorded o ho => exact hs.publish (hs.objects.valid key o ho) ho now
  | judged => exact hs

theorem Started.moved (h : Started key now s x) : s.Moved x.1 key := by
  cases h with
  | gone => exact delete_moved s key
  | recorded o => exact ⟨Or.inl rfl, fun _ => publish_get?_of_ne key o _ _⟩
  | judged => exact ⟨Or.inl rfl, fun _ _ => rfl⟩

theorem Started.objects (h : Started key now s x) : x.1.objects = s.objects := by
  cases h <;> rfl

theorem Started.settles (h : Started key now s x) (hs : s.Sound) (hvalid : key.isValid = true)
    {result : PassResult} (hend : x.2 = .ended result) :
    result = .ok .done ∧ x.1.Settled key := by
  cases h with
  | gone ho =>
      cases hend
      exact ⟨rfl, delete_settled ho⟩
  | recorded o ho hverdict =>
      cases hend
      obtain ⟨time, htime⟩ := judge_settle key o now o.status.accepted?
      exact ⟨rfl, publish_settled hs hvalid ho now (hverdict.trans (congrArg some htime))⟩
  | judged => cases hend

theorem Started.owned (h : Started key now s x) (hs : s.Sound) (hvalid : key.isValid = true)
    (howned : s.Owned key) : x.1.Owned key := by
  cases h with
  | gone ho =>
      obtain ⟨o, stored, ho', -⟩ := howned
      rw [ho] at ho'
      cases ho'
  | recorded o ho => exact howned.publish hs hvalid ho now
  | judged => exact howned

theorem Started.stored (h : Started key now s x) (hs : s.Sound) (hvalid : key.isValid = true)
    {stored : StoredResource}
    (hx : x.1.resources.resources.get? key.resourceName = some stored) :
    s.resources.resources.get? key.resourceName = some stored ∨
      ∃ o, s.objects.objects.get? key = some o ∧ stored.version = o.resourceVersion := by
  cases h with
  | gone =>
      rw [ResourceStore.delete_get?_self] at hx
      cases hx
  | recorded o ho =>
      exact (stored_of_publish hs hvalid ho now hx).imp_right fun hversion => ⟨o, ho, hversion⟩
  | judged => exact Or.inl hx

end start

/-! ### Second halves -/

/-- A pass that a first half left open, seen from the stores as they are now. -/
structure Faithful [NewerMessages] (s : Stores) (p : Judged) : Prop where
  valid : p.key.isValid = true
  keyed : p.object.key = p.key
  known : s.objects.Known p.object
  judged : ∃ now, p = pass p.key p.object now

section conclude
variable [NewerMessages] {s t : Stores} {p : Judged} {x : Stores × PassResult}

theorem Started.faithful {key : ObjectKey} {now : Timestamp} {x : Stores × Progress}
    (h : Started key now s x) (hs : s.Sound) (hopen : x.2 = .judged p) :
    p.key = key ∧ Faithful x.1 p := by
  cases h with
  | gone => cases hopen
  | recorded => cases hopen
  | judged o ho =>
      obtain rfl : pass key o now = p := Progress.judged.inj hopen
      exact ⟨rfl, {
        valid := hs.objects.valid key o ho
        keyed := hs.objects.keyed _ _ ho
        known := ObjectStore.known_of_get? hs.objects ho
        judged := ⟨now, rfl⟩ }⟩

theorem Faithful.moved (h : Faithful s p) {key : ObjectKey} (hm : s.Moved t key) :
    Faithful t p where
  valid := h.valid
  keyed := h.keyed
  known := by
    rcases hm.objects with heq | ht
    · rw [heq]
      exact h.known
    · exact h.known.touched ht
  judged := h.judged

theorem Faithful.concluded (h : Faithful s p) : Concluded p s (conclude p s) :=
  conclude_cases h.known h.keyed

theorem Faithful.resource (h : Faithful s p) :
    ∃ now, p.resource = (judge p.key p.object now).2 := by
  obtain ⟨now, hpass⟩ := h.judged
  exact ⟨now, congrArg Judged.resource hpass⟩

/-- The verdict of a pass, up to its time. -/
theorem Faithful.verdict (h : Faithful s p) :
    ∃ time, p.verdict = (judge p.key p.object time).1 := by
  obtain ⟨now, hpass⟩ := h.judged
  obtain ⟨time, htime⟩ := judge_settle p.key p.object now p.object.status.accepted?
  exact ⟨time, (congrArg Judged.verdict hpass).trans htime⟩

theorem Concluded.sound (h : Concluded p s x) (hs : s.Sound) (hp : Faithful s p) :
    x.1.Sound := by
  obtain ⟨now, hres⟩ := hp.resource
  cases h with
  | gone => exact hs.delete p.key
  | late => exact hs
  | same ho =>
      rw [hres]
      exact hs.publish hp.valid ho now
  | written ho =>
      rw [hres]
      have hpub := hs.publish hp.valid ho now
      rw [← hp.keyed] at ho
      exact hpub.touched (ObjectStore.restated_touched p.updated.status ho)

theorem Concluded.moved (h : Concluded p s x) (hp : Faithful s p) : s.Moved x.1 p.key := by
  cases h with
  | gone => exact delete_moved s p.key
  | late => exact ⟨Or.inl rfl, fun _ _ => rfl⟩
  | same => exact ⟨Or.inl rfl, fun _ => publish_get?_of_ne p.key p.object _ _⟩
  | written ho =>
      refine ⟨Or.inr ?_, fun _ => publish_get?_of_ne p.key p.object _ _⟩
      rw [← hp.keyed] at ho ⊢
      exact ObjectStore.restated_touched _ ho

theorem Concluded.settles (h : Concluded p s x) (hs : s.Sound) (hp : Faithful s p) :
    x.2 = .ok .requeue ∨ (x.2 = .ok .done ∧
      (x.1.Settled p.key ∨ s.objects.Touched x.1.objects p.key)) := by
  obtain ⟨now, hres⟩ := hp.resource
  cases h with
  | gone ho => exact Or.inr ⟨rfl, Or.inl (delete_settled ho)⟩
  | late => exact Or.inl rfl
  | same ho hstatus =>
      obtain ⟨time, htime⟩ := hp.verdict
      have hverdict : p.object.status.accepted? = some (judge p.key p.object time).1 := by
        rw [hstatus, Judged.updated, Status.accepted?_setAccepted, htime]
      rw [hres]
      exact Or.inr ⟨rfl, Or.inl (publish_settled hs hp.valid ho now hverdict)⟩
  | written ho =>
      refine Or.inr ⟨rfl, Or.inr ?_⟩
      rw [← hp.keyed] at ho ⊢
      exact ObjectStore.restated_touched _ ho

theorem Concluded.owned (h : Concluded p s x) (hs : s.Sound) (hp : Faithful s p)
    (howned : s.Owned p.key) : x.1.Owned p.key := by
  obtain ⟨now, hres⟩ := hp.resource
  cases h with
  | gone ho =>
      obtain ⟨o, stored, ho', -⟩ := howned
      rw [ho] at ho'
      cases ho'
  | late => exact howned
  | same ho =>
      rw [hres]
      exact howned.publish hs hp.valid ho now
  | written ho =>
      rw [hres]
      obtain ⟨o, stored, ho', hstored, hid⟩ := howned.publish hs hp.valid ho now
      obtain rfl : o = p.object := Option.some.inj (ho'.symm.trans ho)
      refine ⟨s.objects.restated p.object p.updated.status, stored, ?_, hstored, hid⟩
      rw [← hp.keyed]
      exact ObjectStore.commit_get? .modified

theorem Concluded.stored (h : Concluded p s x) (hs : s.Sound) (hp : Faithful s p)
    {stored : StoredResource}
    (hx : x.1.resources.resources.get? p.key.resourceName = some stored) :
    s.resources.resources.get? p.key.resourceName = some stored ∨
      ∃ o, s.objects.objects.get? p.key = some o ∧ stored.version = o.resourceVersion := by
  obtain ⟨now, hres⟩ := hp.resource
  cases h with
  | gone =>
      rw [ResourceStore.delete_get?_self] at hx
      cases hx
  | late => exact Or.inl hx
  | same ho =>
      rw [hres] at hx
      exact (stored_of_publish hs hp.valid ho now hx).imp_right fun hversion => ⟨_, ho, hversion⟩
  | written ho =>
      rw [hres] at hx
      exact (stored_of_publish hs hp.valid ho now hx).imp_right fun hversion => ⟨_, ho, hversion⟩

omit [NewerMessages] in
/-- To the object store a second half is the writing of a status. -/
theorem conclude_objects (p : Judged) (s : Stores) :
    (conclude p s).1.objects = (ObjectStore.Write.updateStatus p.updated).run s.objects := by
  unfold conclude
  rw [ObjectStore.Write.run]
  cases s.objects.updateStatus p.updated <;> rfl

end conclude
end Reconcile

namespace Stores

/-! ### One move of a worker -/

/-- What the workers of a controller do to the stores, one move at a time. -/
inductive Worked [NewerMessages] (kind : Kind) (s : Stores) : Stores → Prop
  | idle : Worked kind s s
  | start (key : ObjectKey) (now : Timestamp) : key.isValid = true → key.kind = kind →
      Worked kind s (Reconcile.start key now s).1
  | conclude (p : Reconcile.Judged) : Reconcile.Faithful s p → p.key.kind = kind →
      Worked kind s (Reconcile.conclude p s).1

section worked
variable [NewerMessages] {s t : Stores} {kind : Kind} {key : ObjectKey} {o : Object}

theorem Worked.sound (h : Worked kind s t) (hs : s.Sound) : t.Sound := by
  cases h with
  | idle => exact hs
  | start key now => exact (Reconcile.start_cases key now s).sound hs
  | conclude p hp => exact hp.concluded.sound hs hp

theorem Worked.moved (h : Worked kind s t) :
    t = s ∨ ∃ key, key.isValid = true ∧ key.kind = kind ∧ s.Moved t key := by
  cases h with
  | idle => exact Or.inl rfl
  | start key now hvalid hkind =>
      exact Or.inr ⟨key, hvalid, hkind, (Reconcile.start_cases key now s).moved⟩
  | conclude p hp hkind => exact Or.inr ⟨p.key, hp.valid, hkind, hp.concluded.moved hp⟩

/-- A key has its object after the move if it had it before. -/
theorem Worked.uid (h : Worked kind s t) (hs : s.Sound) (ho : s.objects.objects.get? key = some o) :
    ∃ o', t.objects.objects.get? key = some o' ∧ o'.metadata.uid = o.metadata.uid := by
  cases h with
  | idle => exact ⟨o, ho, rfl⟩
  | start k now =>
      rw [(Reconcile.start_cases k now s).objects]
      exact ⟨o, ho, rfl⟩
  | conclude p hp =>
      rw [Reconcile.conclude_objects]
      exact ObjectStore.Write.run_uid hs.objects (by simp) ho

theorem Worked.owned (h : Worked kind s t) (hs : s.Sound) (hv : key.isValid = true)
    (howned : s.Owned key) : t.Owned key := by
  cases h with
  | idle => exact howned
  | start k now hvalid =>
      have hstart := Reconcile.start_cases k now s
      by_cases hk : key = k
      · subst hk
        exact hstart.owned hs hvalid howned
      · exact howned.moved hstart.moved hvalid hv hk
  | conclude p hp =>
      have hconclude := hp.concluded
      by_cases hk : key = p.key
      · subst hk
        exact hconclude.owned hs hp howned
      · exact howned.moved (hconclude.moved hp) hp.valid hv hk

/-- What is stored after the move was stored before, or came from the object that has the key. -/
theorem Worked.stored (h : Worked kind s t) (hs : s.Sound) (hv : key.isValid = true)
    {stored : StoredResource}
    (ht : t.resources.resources.get? key.resourceName = some stored) :
    s.resources.resources.get? key.resourceName = some stored ∨
      ∃ o, s.objects.objects.get? key = some o ∧ stored.version = o.resourceVersion := by
  cases h with
  | idle => exact Or.inl ht
  | start k now hvalid =>
      have hstart := Reconcile.start_cases k now s
      by_cases hk : key = k
      · subst hk
        exact hstart.stored hs hvalid ht
      · rw [hstart.moved.resource_of_ne hvalid hv hk] at ht
        exact Or.inl ht
  | conclude p hp =>
      have hconclude := hp.concluded
      by_cases hk : key = p.key
      · subst hk
        exact hconclude.stored hs hp ht
      · rw [(hconclude.moved hp).resource_of_ne hp.valid hv hk] at ht
        exact Or.inl ht

end worked
end Stores

end ControlPlane
