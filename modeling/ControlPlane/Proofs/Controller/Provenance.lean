import ControlPlane.Proofs.Controller.Interleaving

/-! # Where served resources come from

A resource is served only on the strength of a verdict.  At some moment an object whose key has the
resource's name stood in the object store with a payload that validates to the resource, and the
object's status said that this payload is accepted (`Stores.Accepted`): a pass takes a resource over
only after it has found this verdict written or has written it itself.  So each half of a pass keeps
what was stored or leaves such an object behind (`Started.vouches`, `Concluded.vouches`).

A pass that comes to any other end leaves the resource store as it was.  `Spares` lists the moves of
such passes, and `Sound.spared` says that they touch nothing. -/

namespace ControlPlane

open Time (Timestamp)

namespace Stores

/-- The object stands under the key and bears the identity of the stored resource, its payload
validates to the resource, and its status says that this payload is accepted. -/
structure Accepted [NewerMessages] (s : Stores) (key : ObjectKey) (o : Object)
    (stored : StoredResource) : Prop where
  present : s.objects.objects.get? key = some o
  identity : o.metadata.uid = stored.version.identity
  decoded : validate key.kind o.spec = .ok stored.resource
  recorded : ∃ time, o.status.accepted? = some (.accept o.metadata.generation time)

/-- Some object whose key has the name was accepted for what is stored. -/
def Vouches [NewerMessages] (s : Stores) (name : ResourceName) (stored : StoredResource) : Prop :=
  ∃ key o, key.resourceName = name ∧ s.Accepted key o stored

section vouching
variable [NewerMessages] {s t : Stores} {key : ObjectKey} {o o' : Object} {name : ResourceName}
  {stored : StoredResource} {time : Timestamp}

/-- What a pass takes over is vouched for, if the object that it has read is left with its
verdict. -/
theorem Sound.publish_vouches (hs : s.Sound) (ho : s.objects.objects.get? key = some o)
    (now : Timestamp) (ho' : t.objects.objects.get? key = some o')
    (hmeta : o'.metadata.uid = o.metadata.uid ∧ o'.metadata.generation = o.metadata.generation)
    (hspec : o'.spec = o.spec)
    (hverdict : o'.status.accepted? = some (Reconcile.judge key o time).1)
    (hx : (Reconcile.publish key o (Reconcile.judge key o now).2 s.resources).resources.get? name =
      some stored) :
    s.resources.resources.get? name = some stored ∨ t.Vouches name stored := by
  have hvalid : key.isValid = true := hs.objects.valid key o ho
  rcases publish_cases hs hvalid ho now hx with hold | ⟨rfl, r, hv, rfl⟩
  · exact Or.inl hold
  · obtain ⟨huid, hgeneration⟩ := hmeta
    rw [Reconcile.judge_ok hv, ← hgeneration] at hverdict
    rw [← hspec] at hv
    exact Or.inr ⟨key, o', rfl, ho', huid, hv, time, hverdict⟩

end vouching
end Stores

namespace Reconcile

open Stores

section halves
variable [NewerMessages] {s : Stores} {key : ObjectKey} {now : Timestamp} {p : Judged}
  {name : ResourceName} {stored : StoredResource}

/-! ### What the halves of a pass store -/

theorem Started.vouches {x : Stores × Progress} (h : Started key now s x) (hs : s.Sound)
    (hx : x.1.resources.resources.get? name = some stored) :
    s.resources.resources.get? name = some stored ∨ x.1.Vouches name stored := by
  cases h with
  | gone => exact Or.inl (ResourceStore.get?_of_delete _ hx)
  | recorded o ho hrecorded =>
      obtain ⟨time, htime⟩ := judge_settle key o now o.status.accepted?
      have hverdict : o.status.accepted? = some (judge key o time).1 :=
        hrecorded.trans (congrArg some htime)
      exact hs.publish_vouches ho now ho ⟨rfl, rfl⟩ rfl hverdict hx
  | judged => exact Or.inl hx

theorem Concluded.vouches {x : Stores × PassResult} (h : Concluded p s x) (hs : s.Sound)
    (hp : Faithful s p) (hx : x.1.resources.resources.get? name = some stored) :
    s.resources.resources.get? name = some stored ∨ x.1.Vouches name stored := by
  obtain ⟨now, hresource⟩ := hp.resource
  obtain ⟨time, htime⟩ := hp.verdict
  have hwritten : p.updated.status.accepted? = some (judge p.key p.object time).1 := by
    rw [Judged.updated, Status.accepted?_setAccepted, htime]
  cases h with
  | gone => exact Or.inl (ResourceStore.get?_of_delete _ hx)
  | late => exact Or.inl hx
  | same ho hstatus =>
      rw [← hstatus] at hwritten
      rw [hresource] at hx
      exact hs.publish_vouches ho now ho ⟨rfl, rfl⟩ rfl hwritten hx
  | written ho =>
      rw [hresource] at hx
      have ho' : (s.objects.commit .modified
          (s.objects.restated p.object p.updated.status)).objects.get? p.key =
            some (s.objects.restated p.object p.updated.status) := by
        rw [← hp.keyed]
        exact ObjectStore.commit_get? .modified
      exact hs.publish_vouches ho now ho' ⟨rfl, rfl⟩ rfl hwritten hx

/-! ### Ends that leave the resource store as it was -/

/-- A first half that does not end its pass for good leaves the resource store as it was. -/
theorem attempt_spares (key : ObjectKey) (now : Timestamp) (failure : Option StoreError)
    (s : Stores) (h : (attempt key now failure s).2 ≠ .ended (.ok .done)) :
    (attempt key now failure s).1.resources = s.resources := by
  cases failure with
  | some e =>
      unfold attempt begin at h ⊢
      dsimp only at h ⊢
      split at h
      · exact absurd rfl h
      · rename_i hother
        rw [if_neg hother]
  | none =>
      rw [show attempt key now none s = start key now s from rfl] at h ⊢
      have hstart := start_cases key now s
      generalize start key now s = x at hstart h
      cases hstart with
      | gone => exact absurd rfl h
      | recorded => exact absurd rfl h
      | judged => rfl

/-- A second half that is not the end of its work for the key leaves the resource store as it
was. -/
theorem Faithful.complete_spares (hp : Faithful s p) (failure : Option StoreError)
    (h : (complete p failure s).2 ≠ .ok .done) :
    (complete p failure s).1.resources = s.resources := by
  cases failure with
  | some e =>
      unfold complete finish at h ⊢
      dsimp only at h ⊢
      split
      · rfl
      · rename_i hconflict
        rw [if_neg hconflict] at h
        split
        · rename_i hgone
          rw [if_pos hgone] at h
          exact absurd rfl h
        · rfl
  | none =>
      rw [show complete p none s = conclude p s from rfl] at h ⊢
      have hconclude := hp.concluded
      generalize conclude p s = x at hconclude h
      cases hconclude with
      | gone => exact absurd rfl h
      | late => rfl
      | same => exact absurd rfl h
      | written => exact absurd rfl h

/-- A pass that finds a rejected object does so too. -/
theorem Started.spares {x : Stores × Progress} (h : Started key now s x) {o : Object}
    (ho : s.objects.objects.get? key = some o) {e : Validation.Rejection}
    (hv : validate key.kind o.spec = .error e) : x.1.resources = s.resources := by
  cases h with
  | gone hgone =>
      rw [ho] at hgone
      cases hgone
  | recorded o' ho' =>
      obtain rfl : o = o' := Option.some.inj (ho.symm.trans ho')
      rw [judge_error hv]
      rfl
  | judged => rfl

/-- A pass that has rejected an object does so too, unless the key has no object any more. -/
theorem Concluded.spares {x : Stores × PassResult} (h : Concluded p s x) (hp : Faithful s p)
    (hthere : s.objects.objects.get? p.key ≠ none) {e : Validation.Rejection}
    (hv : validate p.key.kind p.object.spec = .error e) : x.1.resources = s.resources := by
  obtain ⟨now, hresource⟩ := hp.resource
  rw [judge_error hv] at hresource
  cases h with
  | gone hgone => exact absurd hgone hthere
  | late => rfl
  | same =>
      rw [hresource]
      rfl
  | written =>
      rw [hresource]
      rfl

end halves
end Reconcile

namespace Reconcilers

/-- The moves of passes that have nothing to say to the resource store.  A pass that reads an object
and comes to its end by rejection, by a conflict or by an error makes only such moves. -/
inductive Spares [NewerMessages] (r : Reconcilers) : Move → Prop
  /-- The pass has judged the object and goes on. -/
  | judged (key : ObjectKey) (now : Timestamp) (failure : Option StoreError)
      (pass : Reconcile.Judged) :
      (Reconcile.attempt key now failure r.stores).2 = .judged pass →
      Spares r (.start key now failure)
  /-- The object could not be read. -/
  | unread (key : ObjectKey) (now : Timestamp) (failure : Option StoreError) (e : PlaneError) :
      (Reconcile.attempt key now failure r.stores).2 = .ended (.error e) →
      Spares r (.start key now failure)
  /-- The object is rejected, whether or not its status says so already. -/
  | refused (key : ObjectKey) (now : Timestamp) (o : Object) (e : Validation.Rejection) :
      r.stores.objects.objects.get? key = some o → validate key.kind o.spec = .error e →
      Spares r (.start key now none)
  /-- The object was rejected, and the key has an object still. -/
  | rejected (index : ℕ) (pass : Reconcile.Judged) (e : Validation.Rejection) :
      r.passes[index]? = some pass → r.stores.objects.objects.get? pass.key ≠ none →
      validate pass.key.kind pass.object.spec = .error e → Spares r (.finish index none)
  /-- The object is another one by now. -/
  | late (index : ℕ) (failure : Option StoreError) (pass : Reconcile.Judged) :
      r.passes[index]? = some pass →
      (Reconcile.complete pass failure r.stores).2 = .ok .requeue →
      Spares r (.finish index failure)
  /-- The verdict could not be written. -/
  | failed (index : ℕ) (failure : Option StoreError) (pass : Reconcile.Judged) (e : PlaneError) :
      r.passes[index]? = some pass →
      (Reconcile.complete pass failure r.stores).2 = .error e → Spares r (.finish index failure)

section runs
variable [NewerMessages] {r q : Reconcilers} {m : Move} {moves : List Move} {name : ResourceName}
  {stored : StoredResource}

theorem Sound.start_vouches (h : r.Sound) {key : ObjectKey} {now : Timestamp}
    {failure : Option StoreError}
    (hstored : (Reconcile.attempt key now failure r.stores).1.resources.resources.get? name =
      some stored) :
    r.stores.resources.resources.get? name = some stored ∨
      (Reconcile.attempt key now failure r.stores).1.Vouches name stored := by
  cases failure with
  | some e =>
      have hrefused := (Reconcile.attempt_error key now e r.stores).1
      exact Or.inl (hrefused.stored hstored)
  | none => exact (Reconcile.start_cases key now r.stores).vouches h.stores hstored

theorem Sound.finish_vouches (h : r.Sound) {pass : Reconcile.Judged} (hpass : pass ∈ r.passes)
    {failure : Option StoreError}
    (hstored : (Reconcile.complete pass failure r.stores).1.resources.resources.get? name =
      some stored) :
    r.stores.resources.resources.get? name = some stored ∨
      (Reconcile.complete pass failure r.stores).1.Vouches name stored := by
  have hfaithful := h.passes pass hpass
  cases failure with
  | some e =>
      have hrefused := Reconcile.complete_error pass e r.stores
      exact Or.inl (hrefused.stored hstored)
  | none => exact hfaithful.concluded.vouches h.stores hfaithful hstored

/-- What is stored after a move was stored before, or is vouched for. -/
theorem Sound.step_vouches (h : r.Sound) (hm : r.step m = some q)
    (hstored : q.stores.resources.resources.get? name = some stored) :
    r.stores.resources.resources.get? name = some stored ∨ q.stores.Vouches name stored := by
  cases m with
  | client w =>
      obtain rfl := Option.some.inj hm
      exact Or.inl hstored
  | start key now failure =>
      obtain rfl := Option.some.inj hm
      exact h.start_vouches hstored
  | finish index failure =>
      obtain ⟨pass, -, hpass, rfl⟩ := step_finish hm
      exact h.finish_vouches hpass hstored

/-- What is stored was stored from the start, or was vouched for at some time of the run. -/
theorem Sound.run_vouches (h : r.Sound) (hrun : r.run moves = some q)
    (hstored : q.stores.resources.resources.get? name = some stored) :
    r.stores.resources.resources.get? name = some stored ∨
      ∃ before after p, moves = before ++ after ∧ r.run before = some p ∧
        p.stores.Vouches name stored := by
  revert hstored
  refine run_induction (P := fun made q => q.stores.resources.resources.get? name = some stored →
    r.stores.resources.resources.get? name = some stored ∨ ∃ before after p,
      made = before ++ after ∧ r.run before = some p ∧ p.stores.Vouches name stored) Or.inl ?_ hrun
  intro made m rest q q' _ hmade ih hm hstored
  have hq : q.Sound := h.run hmade
  have hmove : r.run (made ++ [m]) = some q' := by
    rw [Reconcilers.run, run_concat, hmade, Option.bind_some]
    exact hm
  rcases hq.step_vouches hm hstored with hold | hvouches
  · rcases ih hold with hstart | ⟨before, after, p, rfl, hp, hvouches⟩
    · exact Or.inl hstart
    · exact Or.inr ⟨before, after ++ [m], p, List.append_assoc _ _ _, hp, hvouches⟩
  · exact Or.inr ⟨made ++ [m], [], q', (List.append_nil _).symm, hmove, hvouches⟩

theorem stores_of_finish {index : ℕ} {failure : Option StoreError} {pass : Reconcile.Judged}
    (hpass : r.passes[index]? = some pass) (hm : r.step (.finish index failure) = some q) :
    pass ∈ r.passes ∧ q.stores = (Reconcile.complete pass failure r.stores).1 := by
  obtain ⟨pass', hpass', hmem, rfl⟩ := step_finish hm
  obtain rfl : pass = pass' := Option.some.inj (hpass.symm.trans hpass')
  exact ⟨hmem, rfl⟩

theorem Sound.spared (h : r.Sound) (hspares : r.Spares m) (hm : r.step m = some q) :
    q.stores.resources = r.stores.resources := by
  cases hspares with
  | judged key now failure pass hopen =>
      obtain rfl := Option.some.inj hm
      exact Reconcile.attempt_spares key now failure r.stores (by simp [hopen])
  | unread key now failure e hended =>
      obtain rfl := Option.some.inj hm
      exact Reconcile.attempt_spares key now failure r.stores (by simp [hended])
  | refused key now o e ho hv =>
      obtain rfl := Option.some.inj hm
      exact (Reconcile.start_cases key now r.stores).spares ho hv
  | rejected index pass e hpass hthere hv =>
      obtain ⟨hmem, hq⟩ := stores_of_finish hpass hm
      have hfaithful : Reconcile.Faithful r.stores pass := h.passes pass hmem
      rw [hq]
      exact hfaithful.concluded.spares hfaithful hthere hv
  | late index failure pass hpass hresult =>
      obtain ⟨hmem, hq⟩ := stores_of_finish hpass hm
      rw [hq]
      exact (h.passes pass hmem).complete_spares failure (by simp [hresult])
  | failed index failure pass e hpass hresult =>
      obtain ⟨hmem, hq⟩ := stores_of_finish hpass hm
      rw [hq]
      exact (h.passes pass hmem).complete_spares failure (by simp [hresult])

/-- If nothing is served at first, then in whatever state clients and passes lead to, each resource
was at some time vouched for by an object that was accepted for it, and a pass that ends by
rejection, by a conflict or by an error leaves the resource store as it is. -/
theorem served_of_run {objects : ObjectStore} (hobjects : objects.Reachable)
    (hrun : (opening objects).run moves = some r) :
    (∀ name stored, r.stores.resources.resources.get? name = some stored →
      ∃ before after q, moves = before ++ after ∧ (opening objects).run before = some q ∧
        q.stores.Vouches name stored) ∧
    ∀ m q, r.step m = some q → r.Spares m → q.stores.resources = r.stores.resources := by
  have hopening : (opening objects).Sound := opening_sound hobjects.sound
  constructor
  · intro name stored hstored
    rcases hopening.run_vouches hrun hstored with hnone | hvouched
    · cases hnone
    · exact hvouched
  · intro m q hm hspares
    exact (hopening.run hrun).spared hspares hm

end runs

/-- The pass that is about to record the rejection in the race. -/
def rejectedPass : Reconcile.Judged := (inRace 6).passes.get ⟨1, by decide +kernel⟩

/-- What the race leaves in the resource store. -/
def servedInRace : StoredResource where
  version := ⟨"first", "1"⟩
  resource := ⟨.cluster, .v3, "type.googleapis.com/envoy.config.cluster.v3.Cluster", "a",
    [10, 1, 97]⟩

/-- In the race the first payload is vouched for, and the rejection of the second leaves it in
place. -/
theorem served_in_race :
    (inRace 6).stores.resources.resources.get? (cluster []).key.resourceName = some servedInRace ∧
      (∃ before after q, raceMoves.take 6 = before ++ after ∧
        (opening .empty).run before = some q ∧
        q.stores.Vouches (cluster []).key.resourceName servedInRace) ∧
      ∃ q, (inRace 6).step (.finish 1 none) = some q ∧
        q.stores.resources = (inRace 6).stores.resources := by
  obtain ⟨hvouched, hspared⟩ := served_of_run ObjectStore.empty_reachable (run_raceMoves 6)
  have hstored : (inRace 6).stores.resources.resources.get? (cluster []).key.resourceName =
      some servedInRace := by
    decide +kernel
  have hpass : (inRace 6).passes[1]? = some rejectedPass := by decide +kernel
  have hthere : (inRace 6).stores.objects.objects.get? rejectedPass.key ≠ none := by
    decide +kernel
  have hrejected : validate rejectedPass.key.kind rejectedPass.object.spec =
      .error (.failedValidation (.emptyText "Cluster.Name")) := by
    decide +kernel
  have hmove : ((inRace 6).step (.finish 1 none)).isSome = true := by decide +kernel
  obtain ⟨q, hq⟩ := Option.isSome_iff_exists.mp hmove
  have hspares : (inRace 6).Spares (.finish 1 none) :=
    .rejected 1 rejectedPass _ hpass hthere hrejected
  exact ⟨hstored, hvouched _ _ hstored, q, hq, hspared _ q hq hspares⟩

end Reconcilers
end ControlPlane
