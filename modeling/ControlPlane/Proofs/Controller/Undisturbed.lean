import ControlPlane.Proofs.Controller.Settling
import ControlPlane.Proofs.Store.Snapshots

/-! # Passes that nothing disturbs

A pass that runs to its end with nothing in between meets the object that it has read, so it always
ends for good: it takes the resource away, finds its verdict in the status, or writes it there, and
in the last two cases takes over the resource that it accepted (`Sound.reconcile_cases`).  From these
cases follows all that such a pass changes and all that it leaves alone (`Sound.accomplished`).

After it the status says what is to be said and what is served is what the payload validates to
(`Recorded`), though perhaps under an older version of the object, since the writing of the status
gives the object another one.  A new verdict that is settled against one on record is the one on
record, whatever the time (`judged_settle`), so the next pass writes no status; it takes over the
version and nothing else (`Recorded.quiet`).  After that nothing is left to do
(`Settled.afterPass`). -/

namespace ControlPlane

open Time (Timestamp)

/-! ### Verdicts -/

/-- The verdict says of a payload what validation says of it. -/
def Acceptance.Tells (v : Acceptance) : Except Validation.Rejection Resource → Prop
  | .ok _ => v.accepted = true ∧ v.reason = .accepted ∧ v.message = ""
  | .error e => v.accepted = false ∧ v.reason = e.reason ∧ v.message = e.message

/-- The time of the verdict is that of the previous one if that is on the same side, and else the
time now. -/
structure Acceptance.Timed (v : Acceptance) (previous : Option Acceptance) (now : Timestamp) :
    Prop where
  kept : ∀ p, previous = some p → p.accepted = v.accepted → v.transitionTime = p.transitionTime
  turned : (∀ p, previous = some p → p.accepted ≠ v.accepted) → v.transitionTime = now

/-- The status of the object says what is to be said of it. -/
def Object.IsJudged [NewerMessages] (o : Object) (key : ObjectKey) : Prop :=
  ∃ time, o.status.accepted? = some (Reconcile.judge key o time).1

/-- What a pass makes of the object that it finds: its status has the verdict, and nothing but the
verdict and the version token is another one. -/
structure Object.Reviewed [NewerMessages] (o o' : Object) (key : ObjectKey) (now : Timestamp)
    (v : Acceptance) : Prop where
  said : o'.status.accepted? = some v
  tells : v.Tells (validate key.kind o.spec)
  seen : v.observedGeneration = o'.metadata.generation
  timed : v.Timed o.status.accepted? now
  others : o'.status.others = o.status.others
  kept : o' = { o with
    status := o'.status
    metadata := { o.metadata with resourceVersion := o'.metadata.resourceVersion } }

namespace Reconcile

section verdicts
variable [NewerMessages] {key : ObjectKey} {o : Object} {now : Timestamp}

theorem judge_tells (key : ObjectKey) (o : Object) (time : Timestamp) :
    (judge key o time).1.Tells (validate key.kind o.spec) := by
  cases hv : validate key.kind o.spec with
  | ok r =>
      rw [judge_ok hv]
      exact ⟨rfl, rfl, rfl⟩
  | error e =>
      rw [judge_error hv]
      exact ⟨rfl, rfl, rfl⟩

theorem judge_observedGeneration (key : ObjectKey) (o : Object) (time : Timestamp) :
    (judge key o time).1.observedGeneration = o.metadata.generation := by
  unfold judge
  cases validate key.kind o.spec <;> rfl

theorem judge_transitionTime (key : ObjectKey) (o : Object) (time : Timestamp) :
    (judge key o time).1.transitionTime = time := by
  unfold judge
  cases validate key.kind o.spec <;> rfl

theorem settle_timed (key : ObjectKey) (o : Object) (now : Timestamp)
    (previous : Option Acceptance) :
    ((judge key o now).1.settle previous).Timed previous now := by
  have hnow : (judge key o now).1.transitionTime = now := judge_transitionTime key o now
  unfold Acceptance.settle
  cases previous with
  | none => exact ⟨fun p hp => absurd hp (Option.some_ne_none p).symm, fun _ => hnow⟩
  | some p =>
      dsimp only
      split
      · rename_i hsame
        refine ⟨fun q hq _ => by rw [← Option.some.inj hq], fun hother => ?_⟩
        exact absurd hsame (hother p rfl)
      · rename_i hother
        refine ⟨fun q hq hsame => ?_, fun _ => hnow⟩
        obtain rfl := Option.some.inj hq
        exact absurd hsame hother

/-- A new verdict that is settled against one on record is the one on record. -/
theorem judged_settle (h : o.IsJudged key) (now : Timestamp) :
    o.status.accepted? = some ((judge key o now).1.settle o.status.accepted?) := by
  obtain ⟨time, htime⟩ := h
  rw [htime]
  unfold judge Acceptance.settle
  cases validate key.kind o.spec with
  | ok r => simp [Acceptance.accept]
  | error e => simp [Acceptance.reject]

/-- An object with the verdict of a pass in its status, and perhaps another version, is reviewed. -/
theorem reviewed_of_status {o' : Object} (hsaid : o'.status.accepted? = some (pass key o now).verdict)
    (hothers : o'.status.others = o.status.others)
    (hkept : o' = { o with
      status := o'.status
      metadata := { o.metadata with resourceVersion := o'.metadata.resourceVersion } }) :
    o.Reviewed o' key now (pass key o now).verdict := by
  have hverdict : (pass key o now).verdict = (judge key o now).1.settle o.status.accepted? := rfl
  obtain ⟨time, htime⟩ := judge_settle key o now o.status.accepted?
  have hgeneration : o'.metadata.generation = o.metadata.generation := by rw [hkept]
  rw [hverdict] at hsaid ⊢
  exact {
    said := hsaid
    tells := htime ▸ judge_tells key o time
    seen := by rw [htime, judge_observedGeneration, hgeneration]
    timed := settle_timed key o now _
    others := hothers
    kept := hkept }

end verdicts

/-! ### The two halves one after the other -/

/-- How a pass leaves the stores if nothing disturbs it. -/
inductive Passed [NewerMessages] (key : ObjectKey) (now : Timestamp) (s : Stores) : Stores → Prop
  | gone : s.objects.objects.get? key = none →
      Passed key now s ⟨s.objects, (s.resources.delete key.resourceName).1⟩
  /-- The status says already what is to be said. -/
  | recorded (o : Object) : s.objects.objects.get? key = some o →
      o.status.accepted? = some (pass key o now).verdict →
      Passed key now s ⟨s.objects, publish key o (judge key o now).2 s.resources⟩
  | written (o : Object) : s.objects.objects.get? key = some o →
      Passed key now s
        ⟨s.objects.commit .modified (s.objects.restated o (pass key o now).updated.status),
          publish key o (judge key o now).2 s.resources⟩

section halves
variable [NewerMessages] {s t : Stores} {key : ObjectKey} {o : Object} {now : Timestamp}

theorem start_of_gone (ho : s.objects.objects.get? key = none) :
    start key now s =
      (⟨s.objects, (s.resources.delete key.resourceName).1⟩, .ended (.ok .done)) := by
  unfold start begin ObjectStore.get
  rw [ho]
  rfl

/-- A pass that finds its verdict in the status does not write it. -/
theorem start_of_recorded (ho : s.objects.objects.get? key = some o)
    (hrecorded : o.status.accepted? = some (pass key o now).verdict) :
    start key now s =
      (⟨s.objects, publish key o (judge key o now).2 s.resources⟩, .ended (.ok .done)) := by
  have hsettled : o.status.accepted? = some ((judge key o now).1.settle o.status.accepted?) :=
    hrecorded
  unfold start begin ObjectStore.get
  rw [ho]
  dsimp only
  rw [if_pos hsettled]

/-- A second half that follows the first at once finds the object that was read. -/
theorem conclude_cases_of_read (hs : s.Sound) (ho : s.objects.objects.get? key = some o)
    (now : Timestamp) : (conclude (pass key o now) s).2 = .ok .done ∧
      Passed key now s (conclude (pass key o now) s).1 := by
  have hkey : o.key = key := hs.objects.keyed key o ho
  have hconcluded : Concluded (pass key o now) s (conclude (pass key o now) s) :=
    conclude_cases (ObjectStore.known_of_get? hs.objects ho) hkey
  generalize conclude (pass key o now) s = x at hconcluded
  cases hconcluded with
  | gone hgone => exact absurd (ho.symm.trans hgone) (Option.some_ne_none o)
  | late o' ho' hne => exact absurd (Option.some.inj (ho'.symm.trans ho)) hne
  | same _ hstatus =>
      have hstatus : o.status = (pass key o now).updated.status := hstatus
      refine ⟨rfl, .recorded o ho ?_⟩
      rw [hstatus]
      exact Status.accepted?_setAccepted _ _
  | written => exact ⟨rfl, .written o ho⟩

theorem Passed.sound (h : Passed key now s t) (hs : s.Sound) : t.Sound := by
  cases h with
  | gone => exact hs.delete key
  | recorded o ho => exact hs.publish (hs.objects.valid key o ho) ho now
  | written o ho =>
      have hkeyed : s.objects.objects.get? o.key = some o := by rwa [hs.objects.keyed key o ho]
      exact (hs.publish (hs.objects.valid key o ho) ho now).touched
        (ObjectStore.restated_touched _ hkeyed)

theorem Passed.told (h : Passed key now s t) (hs : s.Sound) : t.objects = s.objects ∨
    (t.objects.revision = s.objects.revision + 1 ∧
      t.objects.history = s.objects.history.push ⟨.modified, key⟩) := by
  cases h with
  | gone => exact Or.inl rfl
  | recorded => exact Or.inl rfl
  | written o ho =>
      have hkey : o.key = key := hs.objects.keyed key o ho
      rw [← hkey]
      exact Or.inr ⟨rfl, rfl⟩

theorem Passed.moved (h : Passed key now s t) (hs : s.Sound) : s.Moved t key := by
  cases h with
  | gone => exact Stores.delete_moved s key
  | recorded o => exact ⟨Or.inl rfl, fun _ => Stores.publish_get?_of_ne key o _ _⟩
  | written o ho =>
      refine ⟨Or.inr ?_, fun _ => Stores.publish_get?_of_ne key o _ _⟩
      have hkey : o.key = key := hs.objects.keyed key o ho
      rw [← hkey] at ho ⊢
      exact ObjectStore.restated_touched _ ho

/-- The pass has dealt with an object: the object is reviewed, and its resource is taken over. -/
theorem Passed.of_some (h : Passed key now s t) (hs : s.Sound)
    (ho : s.objects.objects.get? key = some o) :
    t.resources = publish key o (judge key o now).2 s.resources ∧
      ∃ o', t.objects.objects.get? key = some o' ∧
        o.Reviewed o' key now (pass key o now).verdict := by
  cases h with
  | gone hgone => exact absurd (ho.symm.trans hgone) (Option.some_ne_none o)
  | recorded o₁ ho₁ hrecorded =>
      obtain rfl : o = o₁ := Option.some.inj (ho.symm.trans ho₁)
      exact ⟨rfl, o, ho, reviewed_of_status hrecorded rfl rfl⟩
  | written o₁ ho₁ =>
      obtain rfl : o = o₁ := Option.some.inj (ho.symm.trans ho₁)
      have hkey : o.key = key := hs.objects.keyed key o ho
      refine ⟨rfl, s.objects.restated o (pass key o now).updated.status, ?_, ?_⟩
      · rw [← hkey]
        exact ObjectStore.commit_get? .modified
      · exact reviewed_of_status (Status.accepted?_setAccepted _ _)
          (Status.others_setAccepted _ _) rfl

end halves
end Reconcile

namespace Stores

open Reconcile

/-- The stores after a pass with nothing in between. -/
def afterPass [NewerMessages] (s : Stores) (key : ObjectKey) (now : Timestamp) : Stores :=
  ⟨(reconcile key now s.objects s.resources).1, (reconcile key now s.objects s.resources).2.1⟩

/-- A pass that ends in its first half is over. -/
theorem afterPass_of_ended [NewerMessages] {s t : Stores} {key : ObjectKey} {now : Timestamp}
    {result : PassResult} (h : start key now s = (t, .ended result)) : s.afterPass key now = t := by
  unfold afterPass
  rw [reconcile_eq, h]

/-- An undisturbed pass comes to its end, in one of three ways. -/
theorem Sound.reconcile_cases [NewerMessages] {s : Stores} (hs : s.Sound) (key : ObjectKey)
    (now : Timestamp) : (reconcile key now s.objects s.resources).2.2 = .ok .done ∧
      Passed key now s (s.afterPass key now) := by
  unfold afterPass
  rw [reconcile_eq]
  have hstarted := start_cases key now s
  generalize start key now s = x at hstarted ⊢
  cases hstarted with
  | gone hgone => exact ⟨rfl, .gone hgone⟩
  | recorded o ho hrecorded => exact ⟨rfl, .recorded o ho hrecorded⟩
  | judged o ho => exact conclude_cases_of_read hs ho now

/-! ### What one pass does -/

/-- All that a pass changes, and what it leaves alone. -/
structure Accomplished [NewerMessages] (s t : Stores) (key : ObjectKey) (now : Timestamp) :
    Prop where
  /-- Without an object there is no resource. -/
  gone : s.objects.objects.get? key = none →
    t.objects = s.objects ∧ t.resources.resources.get? key.resourceName = none ∧
      (s.resources.resources.get? key.resourceName = none → t.resources = s.resources)
  reviewed : ∀ o, s.objects.objects.get? key = some o →
    ∃ o' v, t.objects.objects.get? key = some o' ∧ o.Reviewed o' key now v
  /-- The resource is stored under the version that the object had when it was read. -/
  accepted : ∀ o r, s.objects.objects.get? key = some o → validate key.kind o.spec = .ok r →
    t.resources.resources.get? key.resourceName = some ⟨o.resourceVersion, r⟩
  rejected : ∀ o e, s.objects.objects.get? key = some o → validate key.kind o.spec = .error e →
    t.resources = s.resources
  /-- The object store is left as it is, or takes one revision and tells of one event. -/
  told : t.objects = s.objects ∨
    (t.objects.revision = s.objects.revision + 1 ∧
      t.objects.history = s.objects.history.push ⟨.modified, key⟩)
  otherObjects : ∀ k, k ≠ key → t.objects.objects.get? k = s.objects.objects.get? k
  otherResources : ∀ name, name ≠ key.resourceName →
    t.resources.resources.get? name = s.resources.resources.get? name

section passes
variable [NewerMessages] {s t : Stores} {key : ObjectKey} {o : Object} {now : Timestamp}

/-- From stores that are in order a pass does all this, whatever the key. -/
theorem Sound.accomplished (hs : s.Sound) (h : Passed key now s t) :
    s.Accomplished t key now where
  gone hgone := by
    cases h with
    | gone => exact ⟨rfl, ResourceStore.delete_get?_self _ _, ResourceStore.delete_of_absent _⟩
    | recorded o ho => exact absurd (ho.symm.trans hgone) (Option.some_ne_none o)
    | written o ho => exact absurd (ho.symm.trans hgone) (Option.some_ne_none o)
  reviewed o ho := by
    obtain ⟨-, o', ho', hreviewed⟩ := h.of_some hs ho
    exact ⟨o', _, ho', hreviewed⟩
  accepted o r ho hr := by
    have hstored := publish_get?_self hs (hs.objects.valid key o ho) ho now
    rw [(h.of_some hs ho).1, hstored, hr]
  rejected o e ho he := by
    rw [(h.of_some hs ho).1, judge_error he]
    rfl
  told := h.told hs
  otherObjects k hk := (h.moved hs).get?_of_ne hk
  otherResources name hname := (h.moved hs).resources name hname

end passes

/-! ### A fixed point -/

/-- The status of the object under the key says what is to be said of it, and what is served is what
its payload validates to, under whatever version. -/
structure Recorded [NewerMessages] (s : Stores) (key : ObjectKey) : Prop where
  gone : s.objects.objects.get? key = none →
    s.resources.resources.get? key.resourceName = none
  served : ∀ o r, s.objects.objects.get? key = some o → validate key.kind o.spec = .ok r →
    ∃ version, s.resources.resources.get? key.resourceName = some ⟨version, r⟩
  judged : ∀ o, s.objects.objects.get? key = some o → o.IsJudged key

/-- The objects and their history are the same, and the resource store has published nothing and
serves the same bodies to whoever asks. -/
structure Quiet (s t : Stores) : Prop where
  objects : t.objects = s.objects
  version : t.resources.version = s.resources.version
  publication : ∀ p, t.resources.publication p = s.resources.publication p
  snapshot : ∀ p, (t.resources.snapshot p).2.version = (s.resources.snapshot p).2.version ∧
    ∀ kind, ((t.resources.snapshot p).2.resources kind).map Entry.served =
      ((s.resources.snapshot p).2.resources kind).map Entry.served

section fixed
variable [NewerMessages] {s t : Stores} {key : ObjectKey} {now : Timestamp}

omit [NewerMessages] in
theorem Quiet.refl (s : Stores) : s.Quiet s := ⟨rfl, rfl, fun _ => rfl, fun _ => ⟨rfl, fun _ => rfl⟩⟩

omit [NewerMessages] in
/-- Nothing new is served when a resource that is served already comes with another version. -/
theorem Quiet.put {name : ResourceName} {version : ResourceVersion} {resource : Resource}
    (h : s.resources.outcome name version resource = .unchanged) :
    s.Quiet ⟨s.objects, s.resources.put name version resource⟩ where
  objects := rfl
  version := rfl
  publication p := by cases p <;> rfl
  snapshot p := ResourceStore.snapshot_served_congr (by cases p <;> rfl) rfl
    (ResourceStore.offered_put_of_unchanged h p)

/-- What a pass takes over if the resource is served already: the version, and nothing else. -/
theorem Sound.publish_of_served (hs : s.Sound) {o : Object} {r : Resource}
    {version : ResourceVersion} (ho : s.objects.objects.get? key = some o)
    (hr : validate key.kind o.spec = .ok r)
    (hstored : s.resources.resources.get? key.resourceName = some ⟨version, r⟩) (now : Timestamp) :
    s.resources.outcome key.resourceName o.resourceVersion r = .unchanged ∧
      Reconcile.publish key o (judge key o now).2 s.resources =
        s.resources.put key.resourceName o.resourceVersion r := by
  have hunchanged := ResourceStore.outcome_of_same _ hstored
    (hs.notOlder key _ o (hs.objects.valid key o ho) hstored ho)
  refine ⟨hunchanged, ?_⟩
  rw [judge_ok hr, Reconcile.publish, ResourceStore.update, hunchanged]

theorem Sound.recorded (hs : s.Sound) (h : Passed key now s t) : t.Recorded key := by
  cases hget : s.objects.objects.get? key with
  | none =>
      obtain ⟨hobjects, hresource, -⟩ := (hs.accomplished h).gone hget
      rw [← hobjects] at hget
      exact {
        gone := fun _ => hresource
        served := fun o r ho => absurd (ho.symm.trans hget) (Option.some_ne_none o)
        judged := fun o ho => absurd (ho.symm.trans hget) (Option.some_ne_none o) }
  | some o =>
      obtain ⟨-, o', ho', hreviewed⟩ := h.of_some hs hget
      have hspec : o'.spec = o.spec := by rw [hreviewed.kept]
      have hjudge : ∀ time, judge key o' time = judge key o time := by
        intro time
        rw [hreviewed.kept]
        rfl
      exact {
        gone := fun hgone => absurd (ho'.symm.trans hgone) (Option.some_ne_none o')
        served := fun x r hx hr => by
          obtain rfl : o' = x := Option.some.inj (ho'.symm.trans hx)
          exact ⟨_, (hs.accomplished h).accepted o r hget (hspec ▸ hr)⟩
        judged := fun x hx => by
          obtain rfl : o' = x := Option.some.inj (ho'.symm.trans hx)
          obtain ⟨time, htime⟩ := judge_settle key o now o.status.accepted?
          exact ⟨time, by rw [hreviewed.said, hjudge, ← htime]; rfl⟩ }

/-- The pass after a pass writes no status, brings nothing new, and leaves nothing to do. -/
theorem Recorded.quiet (h : s.Recorded key) (hs : s.Sound) (now : Timestamp) :
    ∃ t, start key now s = (t, .ended (.ok .done)) ∧ s.Quiet t ∧ t.Settled key := by
  cases hget : s.objects.objects.get? key with
  | none =>
      refine ⟨_, start_of_gone hget, ?_, delete_settled hget⟩
      rw [ResourceStore.delete_of_absent _ (h.gone hget)]
      exact Quiet.refl s
  | some o =>
      have hvalid : key.isValid = true := hs.objects.valid key o hget
      obtain ⟨time, htime⟩ := h.judged o hget
      refine ⟨_, start_of_recorded hget (judged_settle ⟨time, htime⟩ now), ?_,
        publish_settled hs hvalid hget now htime⟩
      cases hv : validate key.kind o.spec with
      | error e =>
          rw [judge_error hv]
          exact Quiet.refl s
      | ok r =>
          obtain ⟨version, hstored⟩ := h.served o r hget hv
          obtain ⟨hunchanged, hput⟩ := hs.publish_of_served hget hv hstored now
          rw [hput]
          exact Quiet.put hunchanged

/-- Where nothing is left to do, a pass does nothing. -/
theorem Settled.afterPass (h : s.Settled key) (hs : s.Sound) (now : Timestamp) :
    s.afterPass key now = s := by
  cases hget : s.objects.objects.get? key with
  | none =>
      rw [afterPass_of_ended (start_of_gone hget), ResourceStore.delete_of_absent _ (h.gone hget)]
  | some o =>
      rw [afterPass_of_ended (start_of_recorded hget (judged_settle (h.judged o hget) now))]
      cases hv : validate key.kind o.spec with
      | error e =>
          rw [judge_error hv]
          rfl
      | ok r =>
          have hstored := h.served o r hget hv
          obtain ⟨-, hput⟩ := hs.publish_of_served hget hv hstored now
          rw [hput, ResourceStore.put_of_stored _ hstored]

end fixed
end Stores
end ControlPlane
