import ControlPlane.Controller.Reconcile
import ControlPlane.Proofs.Object.Condition
import ControlPlane.Proofs.Store.Objects
import ControlPlane.Proofs.Store.Resources

/-! # One pass and the two stores

A pass is two calls to the object store with whatever happens in between.  Each half is described
by its cases (`Started`, `Concluded`), over the two stores together (`Stores`).  From the cases
follow the facts that all arguments about passes rest on: what a pass keeps true of the stores
(`Stores.Sound`), and that it moves nothing but the object and the resource of its own key
(`Stores.Moved`). -/

namespace ControlPlane

open Time (Timestamp)

/-- The two stores that a reconciler keeps in line. -/
structure Stores where
  objects : ObjectStore
  resources : ResourceStore

namespace Reconcile

/-- The second half of a pass with its call: the verdict is written, then the resource store is
brought in line. -/
def conclude (pass : Judged) (s : Stores) : Stores × PassResult :=
  match s.objects.updateStatus pass.updated with
  | .error e =>
    let (resources, result) := finish pass (.error e) s.resources
    (⟨s.objects, resources⟩, result)
  | .ok (_, objects) =>
    let (resources, result) := finish pass (.ok ()) s.resources
    (⟨objects, resources⟩, result)

/-- The first half of a pass with its call. -/
def start [NewerMessages] (key : ObjectKey) (now : Timestamp) (s : Stores) : Stores × Progress :=
  let (resources, progress) := begin key now (s.objects.get key) s.resources
  (⟨s.objects, resources⟩, progress)

/-- A pass with nothing in between is its two halves one after the other. -/
theorem reconcile_eq [NewerMessages] (key : ObjectKey) (now : Timestamp) (s : Stores) :
    reconcile key now s.objects s.resources =
      match start key now s with
      | (t, .ended result) => (t.objects, t.resources, result)
      | (t, .judged pass) =>
        ((conclude pass t).1.objects, (conclude pass t).1.resources, (conclude pass t).2) := by
  unfold reconcile start
  cases h : begin key now (s.objects.get key) s.resources with
  | mk resources progress =>
      cases progress with
      | ended result => rfl
      | judged pass =>
          dsimp only [conclude]
          cases s.objects.updateStatus pass.updated with
          | error e => rfl
          | ok answer => rfl

/-! ### Verdicts -/

section verdicts
variable [NewerMessages] {key : ObjectKey} {o : Object} {now : Timestamp}

theorem judge_ok {r : Resource} (h : validate key.kind o.spec = .ok r) (now : Timestamp) :
    judge key o now = (.accept o.metadata.generation now, some r) := by
  unfold judge
  rw [h]

theorem judge_error {e : Validation.Rejection} (h : validate key.kind o.spec = .error e)
    (now : Timestamp) :
    judge key o now = (.reject e.reason e.message o.metadata.generation now, none) := by
  unfold judge
  rw [h]

/-- Settling a verdict changes its time at most. -/
theorem judge_settle (key : ObjectKey) (o : Object) (now : Timestamp)
    (previous : Option Acceptance) :
    ∃ time, (judge key o now).1.settle previous = (judge key o time).1 := by
  have htime : ∀ time, (judge key o time).1 = { (judge key o now).1 with transitionTime := time } :=
    fun time => by unfold judge; cases validate key.kind o.spec <;> rfl
  unfold Acceptance.settle
  split
  · exact ⟨now, rfl⟩
  · rename_i p
    split
    · exact ⟨p.transitionTime, (htime _).symm⟩
    · exact ⟨now, rfl⟩

end verdicts

/-! ### The two halves by cases -/

/-- The pass that a first half leaves open. -/
def pass [NewerMessages] (key : ObjectKey) (o : Object) (now : Timestamp) : Judged :=
  ⟨key, o, (judge key o now).1.settle o.status.accepted?, (judge key o now).2⟩

/-- How a first half goes on from the stores it meets. -/
inductive Started [NewerMessages] (key : ObjectKey) (now : Timestamp) (s : Stores) :
    Stores × Progress → Prop
  | gone : s.objects.objects.get? key = none →
      Started key now s (⟨s.objects, (s.resources.delete key.resourceName).1⟩, .ended (.ok .done))
  /-- The status says already what is to be said. -/
  | recorded (o : Object) : s.objects.objects.get? key = some o →
      o.status.accepted? = some (pass key o now).verdict →
      Started key now s
        (⟨s.objects, publish key o (judge key o now).2 s.resources⟩, .ended (.ok .done))
  | judged (o : Object) : s.objects.objects.get? key = some o →
      Started key now s (s, .judged (pass key o now))

theorem start_cases [NewerMessages] (key : ObjectKey) (now : Timestamp) (s : Stores) :
    Started key now s (start key now s) := by
  unfold start begin ObjectStore.get
  cases hget : s.objects.objects.get? key with
  | none => exact .gone hget
  | some o =>
      dsimp only
      split
      · rename_i hrecorded
        exact .recorded o hget hrecorded
      · exact .judged o hget

/-- How a second half goes on, for a pass whose object was read before. -/
inductive Concluded (pass : Judged) (s : Stores) : Stores × PassResult → Prop
  | gone : s.objects.objects.get? pass.key = none →
      Concluded pass s (⟨s.objects, (s.resources.delete pass.key.resourceName).1⟩, .ok .done)
  /-- The object is another one than was read. -/
  | late (o' : Object) : s.objects.objects.get? pass.key = some o' → o' ≠ pass.object →
      Concluded pass s (s, .ok .requeue)
  | same : s.objects.objects.get? pass.key = some pass.object →
      pass.object.status = pass.updated.status →
      Concluded pass s
        (⟨s.objects, publish pass.key pass.object pass.resource s.resources⟩, .ok .done)
  | written : s.objects.objects.get? pass.key = some pass.object →
      Concluded pass s
        (⟨s.objects.commit .modified (s.objects.restated pass.object pass.updated.status),
          publish pass.key pass.object pass.resource s.resources⟩, .ok .done)

theorem conclude_cases {pass : Judged} {s : Stores} (hk : s.objects.Known pass.object)
    (hkey : pass.object.key = pass.key) : Concluded pass s (conclude pass s) := by
  have hw := ObjectStore.updateStatus_cases hk pass.updated.status
  rw [show ({ pass.object with status := pass.updated.status } : Object) = pass.updated from rfl]
    at hw
  unfold conclude
  generalize s.objects.updateStatus pass.updated = answer at hw
  cases hw with
  | gone hget => exact .gone (hkey ▸ hget)
  | late key o' hget hne => exact .late o' (hkey ▸ hget) hne
  | same hget hstatus => exact .same (hkey ▸ hget) hstatus
  | written hget _ => exact .written (hkey ▸ hget)

end Reconcile

theorem validate_kind [NewerMessages] {kind : Kind} {payload : Payload} {r : Resource}
    (h : validate kind payload = .ok r) : r.kind = kind := by
  unfold validate at h
  dsimp only [bind, Except.bind, pure, Except.pure] at h
  split at h
  · cases h
  · split at h
    · cases h
    · split at h
      · cases h
      · rw [← Except.ok.inj h]

namespace Stores

/-! ### What every pass and every write keep true -/

/-- Each stored resource stands under the name of a valid key, is what some payload validates to,
and came from a state of an object that is not later than the stored one. -/
structure Sound [NewerMessages] (s : Stores) : Prop where
  objects : s.objects.Sound
  rooted : ∀ name stored, s.resources.resources.get? name = some stored →
    ∃ key : ObjectKey, key.isValid = true ∧ key.resourceName = name ∧
      ∃ payload, validate key.kind payload = .ok stored.resource
  numbered : ∀ name stored, s.resources.resources.get? name = some stored →
    ∃ n ≤ s.objects.revision, stored.version.version = toString n
  notOlder : ∀ key stored o, key.isValid = true →
    s.resources.resources.get? key.resourceName = some stored →
    s.objects.objects.get? key = some o → o.resourceVersion.isOlderThan stored.version = false

/-- Nothing but the object and the resource of one key is another one. -/
structure Moved (s t : Stores) (key : ObjectKey) : Prop where
  objects : t.objects = s.objects ∨ s.objects.Touched t.objects key
  resources : ∀ name, name ≠ key.resourceName →
    t.resources.resources.get? name = s.resources.resources.get? name

theorem Moved.get?_of_ne {s t : Stores} {key k : ObjectKey} (h : s.Moved t key) (hk : k ≠ key) :
    t.objects.objects.get? k = s.objects.objects.get? k := by
  rcases h.objects with heq | ht
  · rw [heq]
  · exact ht.others k hk

theorem Moved.resource_of_ne {s t : Stores} {key k : ObjectKey} (h : s.Moved t key)
    (hvalid : key.isValid = true) (hv : k.isValid = true) (hk : k ≠ key) :
    t.resources.resources.get? k.resourceName = s.resources.resources.get? k.resourceName :=
  h.resources _ fun hname => hk (ObjectKey.resourceName_injective hv hvalid hname)

theorem empty_sound [NewerMessages] (objects : ObjectStore) (h : objects.Sound) :
    Sound ⟨objects, ResourceStore.empty⟩ where
  objects := h
  rooted name stored hs := by cases hs
  numbered name stored hs := by cases hs
  notOlder key stored o _ hs _ := by cases hs

section changes
variable [NewerMessages] {s t : Stores} {key : ObjectKey} {o : Object} {now : Timestamp}

/-- A write to the object store alone. -/
theorem Sound.touched (h : Sound s) {objects : ObjectStore} (ht : s.objects.Touched objects key) :
    Sound ⟨objects, s.resources⟩ where
  objects := ht.sound h.objects
  rooted := h.rooted
  numbered name stored hs := by
    obtain ⟨n, hn, hv⟩ := h.numbered name stored hs
    exact ⟨n, hn.trans ht.revision_le, hv⟩
  notOlder k stored o hvalid hs ho := by
    by_cases hk : k = key
    · subst hk
      obtain ⟨n, hn, hv⟩ := h.numbered _ _ hs
      obtain ⟨-, hlt, hv'⟩ := ht.fresh o ho
      rw [Bool.eq_false_iff]
      intro hold
      have hver : stored.version = ⟨stored.version.identity, toString n⟩ := by rw [← hv]
      rw [Object.resourceVersion, hv', hver] at hold
      have := (ResourceVersion.lt_of_isOlderThan hold).2
      omega
    · rw [ht.others k hk] at ho
      exact h.notOlder k stored o hvalid hs ho

/-- Taking a resource away. -/
theorem Sound.delete (h : Sound s) (key : ObjectKey) :
    Sound ⟨s.objects, (s.resources.delete key.resourceName).1⟩ where
  objects := h.objects
  rooted name stored hs := h.rooted name stored (ResourceStore.get?_of_delete _ hs)
  numbered name stored hs := h.numbered name stored (ResourceStore.get?_of_delete _ hs)
  notOlder k stored o hv hs ho := h.notOlder k stored o hv (ResourceStore.get?_of_delete _ hs) ho

omit [NewerMessages] in
theorem delete_moved (s : Stores) (key : ObjectKey) :
    s.Moved ⟨s.objects, (s.resources.delete key.resourceName).1⟩ key where
  objects := Or.inl rfl
  resources _ hname := ResourceStore.delete_get?_of_ne _ hname

/-- What is stored under the name of the key after a pass has taken over the object's resource. -/
theorem publish_get?_self (h : Sound s) (hvalid : key.isValid = true)
    (ho : s.objects.objects.get? key = some o) (now : Timestamp) :
    (Reconcile.publish key o (Reconcile.judge key o now).2 s.resources).resources.get?
        key.resourceName =
      match validate key.kind o.spec with
      | .ok r => some ⟨o.resourceVersion, r⟩
      | .error _ => s.resources.resources.get? key.resourceName := by
  cases hv : validate key.kind o.spec with
  | error e => rw [Reconcile.judge_error hv]; rfl
  | ok r =>
      rw [Reconcile.judge_ok hv]
      exact ResourceStore.update_get?_self _ r fun stored hs => h.notOlder key stored o hvalid hs ho

omit [NewerMessages] in
theorem publish_get?_of_ne (key : ObjectKey) (o : Object) (r : Option Resource)
    (resources : ResourceStore) {name : ResourceName} (hname : name ≠ key.resourceName) :
    (Reconcile.publish key o r resources).resources.get? name = resources.resources.get? name := by
  cases r with
  | none => rfl
  | some r => exact ResourceStore.update_get?_of_ne _ _ r hname

/-- What is stored after a pass has taken over the object's resource was stored before, or is what
the object's payload validates to. -/
theorem publish_cases (h : Sound s) (hvalid : key.isValid = true)
    (ho : s.objects.objects.get? key = some o) (now : Timestamp) {name : ResourceName}
    {stored : StoredResource}
    (hs : (Reconcile.publish key o (Reconcile.judge key o now).2 s.resources).resources.get? name =
      some stored) :
    s.resources.resources.get? name = some stored ∨ (name = key.resourceName ∧
      ∃ r, validate key.kind o.spec = .ok r ∧ stored = ⟨o.resourceVersion, r⟩) := by
  by_cases hname : name = key.resourceName
  · subst hname
    rw [publish_get?_self h hvalid ho now] at hs
    split at hs
    · rename_i r hv
      exact Or.inr ⟨rfl, r, hv, (Option.some.inj hs).symm⟩
    · exact Or.inl hs
  · rw [publish_get?_of_ne _ _ _ _ hname] at hs
    exact Or.inl hs

/-- Taking over what the stored object's payload validates to. -/
theorem Sound.publish (h : Sound s) (hvalid : key.isValid = true)
    (ho : s.objects.objects.get? key = some o) (now : Timestamp) :
    Sound ⟨s.objects,
      Reconcile.publish key o (Reconcile.judge key o now).2 s.resources⟩ := by
  have hcase : ∀ name stored,
      (Reconcile.publish key o (Reconcile.judge key o now).2 s.resources).resources.get? name =
        some stored → _ :=
    fun name stored => publish_cases h hvalid ho now
  exact {
    objects := h.objects
    rooted := fun name stored hs => by
      rcases hcase name stored hs with hs | ⟨rfl, r, hv, rfl⟩
      · exact h.rooted name stored hs
      · exact ⟨key, hvalid, rfl, o.spec, hv⟩
    numbered := fun name stored hs => by
      rcases hcase name stored hs with hs | ⟨rfl, r, hv, rfl⟩
      · exact h.numbered name stored hs
      · exact h.objects.numbered key o ho
    notOlder := fun k stored o' hvalid' hs ho' => by
      rcases hcase _ stored hs with hs | ⟨hname, r, hv, rfl⟩
      · exact h.notOlder k stored o' hvalid' hs ho'
      · obtain rfl := ObjectKey.resourceName_injective hvalid' hvalid hname
        obtain rfl : o = o' := Option.some.inj (ho.symm.trans ho')
        obtain ⟨n, -, hn⟩ := h.objects.numbered k o ho
        rw [Bool.eq_false_iff]
        intro hold
        rw [Object.resourceVersion, hn] at hold
        exact absurd (ResourceVersion.lt_of_isOlderThan hold).2 (lt_irrefl n) }

end changes
end Stores

end ControlPlane
