import ControlPlane.Proofs.Pipeline.Convergence

/-! # Whose resources are served

A stored resource carries the identity of the object that it came from.  Along a run, an object
keeps its identity until it is removed (`Sound.run_uid`), a resource stays with its object
likewise (`Sound.run_owned`), and what is stored came from the object that had the key at some
time (`Sound.origin`).

So at a standstill a resource belongs to the object that has the key, unless that object took the
place of a deleted one and its payload is rejected (`identity_of_standstill`).  In that case the
resource of the deleted object is served on (`served_on_after_replacement`): a pass removes a
resource only if it finds no object, and a rejected payload leaves in place whatever is stored. -/

namespace ControlPlane.Pipeline

section runs
variable [NewerMessages] {p q : Pipeline} {key : ObjectKey} {o : Object}

theorem Sound.worked (h : p.Sound) {kind : Kind} {m : Desk.Move}
    (hm : p.step (.desk kind m) = some q) : Stores.Worked kind p.stores q.stores := by
  obtain ⟨⟨t, e⟩, hd, rfl⟩ := Option.map_eq_some_iff.mp hm
  exact ((h.desks kind).step h.stores hd).2

theorem Sound.step_uid (h : p.Sound) {m : Move} (hm : p.step m = some q)
    (hkeep : m ≠ .client (.delete key)) (ho : p.stores.objects.objects.get? key = some o) :
    ∃ o', q.stores.objects.objects.get? key = some o' ∧ o'.metadata.uid = o.metadata.uid := by
  cases m with
  | client w =>
      obtain rfl := Option.some.inj hm
      exact ObjectStore.Write.run_uid h.stores.objects (fun hw => hkeep (by rw [hw])) ho
  | desk kind m => exact (h.worked hm).uid h.stores ho

theorem Sound.run_uid (h : p.Sound) {moves : List Move} (hrun : p.run moves = some q)
    (hkeep : .client (.delete key) ∉ moves) (ho : p.stores.objects.objects.get? key = some o) :
    ∃ o', q.stores.objects.objects.get? key = some o' ∧ o'.metadata.uid = o.metadata.uid := by
  induction moves generalizing p o with
  | nil =>
      obtain rfl := Option.some.inj hrun
      exact ⟨o, ho, rfl⟩
  | cons m rest ih =>
      obtain ⟨p', hm, hrest⟩ := Option.bind_eq_some_iff.mp hrun
      rw [List.mem_cons, not_or] at hkeep
      obtain ⟨o₁, ho₁, huid₁⟩ := h.step_uid hm (Ne.symm hkeep.1) ho
      obtain ⟨o₂, ho₂, huid₂⟩ := ih (h.step hm) hrest hkeep.2 ho₁
      exact ⟨o₂, ho₂, huid₂.trans huid₁⟩

theorem Sound.step_owned (h : p.Sound) {m : Move} (hm : p.step m = some q)
    (hkeep : m ≠ .client (.delete key)) (hvalid : key.isValid = true)
    (howned : p.stores.Owned key) : q.stores.Owned key := by
  cases m with
  | client w =>
      obtain rfl := Option.some.inj hm
      exact howned.write h.stores.objects fun hw => hkeep (by rw [hw])
  | desk kind m => exact (h.worked hm).owned h.stores hvalid howned

theorem Sound.run_owned (h : p.Sound) {moves : List Move} (hrun : p.run moves = some q)
    (hkeep : .client (.delete key) ∉ moves) (hvalid : key.isValid = true)
    (howned : p.stores.Owned key) : q.stores.Owned key := by
  induction moves generalizing p with
  | nil =>
      obtain rfl := Option.some.inj hrun
      exact howned
  | cons m rest ih =>
      obtain ⟨p', hm, hrest⟩ := Option.bind_eq_some_iff.mp hrun
      rw [List.mem_cons, not_or] at hkeep
      exact ih (h.step hm) hrest hkeep.2 (h.step_owned hm (Ne.symm hkeep.1) hvalid howned)

theorem Sound.step_stored (h : p.Sound) {m : Move} (hm : p.step m = some q)
    (hvalid : key.isValid = true) {stored : StoredResource}
    (hstored : q.stores.resources.resources.get? key.resourceName = some stored) :
    p.stores.resources.resources.get? key.resourceName = some stored ∨
      ∃ o, p.stores.objects.objects.get? key = some o ∧ stored.version = o.resourceVersion := by
  cases m with
  | client w =>
      obtain rfl := Option.some.inj hm
      exact Or.inl hstored
  | desk kind m => exact (h.worked hm).stored h.stores hvalid hstored

/-- What is stored was stored from the start, or came from an object that had the key at some time
of the run. -/
theorem Sound.origin (h : p.Sound) {moves : List Move} (hrun : p.run moves = some q)
    (hvalid : key.isValid = true) {stored : StoredResource}
    (hstored : q.stores.resources.resources.get? key.resourceName = some stored) :
    p.stores.resources.resources.get? key.resourceName = some stored ∨
      ∃ before after r o, moves = before ++ after ∧ p.run before = some r ∧
        r.stores.objects.objects.get? key = some o ∧ stored.version = o.resourceVersion := by
  induction moves generalizing p with
  | nil =>
      obtain rfl := Option.some.inj hrun
      exact Or.inl hstored
  | cons m rest ih =>
      obtain ⟨p', hm, hrest⟩ := Option.bind_eq_some_iff.mp hrun
      rcases ih (h.step hm) hrest with hold | ⟨before, after, r, o, rfl, hr, ho, hversion⟩
      · refine (h.step_stored hm hvalid hold).imp_right ?_
        rintro ⟨o, ho, hversion⟩
        exact ⟨[], m :: rest, p, o, rfl, rfl, ho, hversion⟩
      · refine Or.inr ⟨m :: before, after, r, o, rfl, ?_, ho, hversion⟩
        rw [Pipeline.run, hm, Option.bind_some, hr]

/-- What is stored for a key without being its object's own came from an object that was deleted
since. -/
theorem Sound.origin_of_ne (h : p.Sound) {moves : List Move} (hrun : p.run moves = some q)
    (hvalid : key.isValid = true)
    (hempty : p.stores.resources.resources.get? key.resourceName = none)
    {stored : StoredResource}
    (hstored : q.stores.resources.resources.get? key.resourceName = some stored)
    (ho : q.stores.objects.objects.get? key = some o)
    (hid : stored.version.identity ≠ o.metadata.uid) :
    ∃ before after r o', moves = before ++ after ∧ p.run before = some r ∧
      r.stores.objects.objects.get? key = some o' ∧ stored.version = o'.resourceVersion ∧
      .client (.delete key) ∈ after := by
  rcases h.origin hrun hvalid hstored with hold | ⟨before, after, r, o', rfl, hr, ho', hversion⟩
  · rw [hempty] at hold
    cases hold
  · refine ⟨before, after, r, o', rfl, hr, ho', hversion, ?_⟩
    by_contra hkeep
    rw [run_append, hr, Option.bind_some] at hrun
    obtain ⟨o₁, ho₁, huid⟩ := (h.run hr).run_uid hrun hkeep ho'
    obtain rfl : o₁ = o := Option.some.inj (ho₁.symm.trans ho)
    exact hid ((congrArg ResourceVersion.identity hversion).trans huid.symm)

/-- What was an object's own at some time is its own until the object is deleted. -/
theorem Sound.identity_of_owned (h : p.Sound) {before after : List Move} {r : Pipeline}
    (hr : p.run before = some r) (hrun : p.run (before ++ after) = some q)
    (hvalid : key.isValid = true) (howned : r.stores.Owned key)
    (hkeep : .client (.delete key) ∉ after) {stored : StoredResource}
    (hstored : q.stores.resources.resources.get? key.resourceName = some stored)
    (ho : q.stores.objects.objects.get? key = some o) :
    stored.version.identity = o.metadata.uid := by
  rw [run_append, hr, Option.bind_some] at hrun
  obtain ⟨o₁, stored₁, ho₁, hs₁, hid⟩ := (h.run hr).run_owned hrun hkeep hvalid howned
  obtain rfl : o₁ = o := Option.some.inj (ho₁.symm.trans ho)
  obtain rfl : stored₁ = stored := Option.some.inj (hs₁.symm.trans hstored)
  exact hid

end runs

/-! ### Standstills -/

section standstill
variable [NewerMessages] (policy : Plane.Policy) {objects : ObjectStore} {moves : List Move}
  {p : Pipeline} {kind : Kind} {key : ObjectKey} {stored : StoredResource}

/-- At a standstill nothing is served without an object.  The resource is the object's own, unless
the object is rejected and the resource came from one that had the key before and was deleted;
and it is the object's own for good once it was so, until the object is deleted. -/
theorem identity_of_standstill (h : objects.Reachable)
    (hrun : (opening policy objects).run moves = some p) (hvalid : key.isValid = true)
    (hkind : key.kind = kind) (hstill : (p.desks kind).Standstill p.stores)
    (hstored : p.stores.resources.resources.get? key.resourceName = some stored) :
    ∃ o, p.stores.objects.objects.get? key = some o ∧
      (stored.version.identity = o.metadata.uid ∨
        (∃ e time, validate key.kind o.spec = .error e ∧
          o.status.accepted? = some (.reject e.reason e.message o.metadata.generation time)) ∧
        ∃ before after q o', moves = before ++ after ∧
          (opening policy objects).run before = some q ∧
          q.stores.objects.objects.get? key = some o' ∧ stored.version = o'.resourceVersion ∧
          .client (.delete key) ∈ after) ∧
      ∀ before after q, moves = before ++ after → (opening policy objects).run before = some q →
        q.stores.Owned key → .client (.delete key) ∉ after →
        stored.version.identity = o.metadata.uid := by
  have hopening := opening_sound policy h
  have hp := hopening.run hrun
  have hconv := ((hp.desks kind).settled hstill hvalid hkind).converged hp.stores hvalid
  cases ho : p.stores.objects.objects.get? key with
  | none =>
      rw [hconv.gone ho] at hstored
      cases hstored
  | some o =>
      refine ⟨o, rfl, ?_, ?_⟩
      · by_cases hid : stored.version.identity = o.metadata.uid
        · exact Or.inl hid
        · refine Or.inr ⟨?_, hopening.origin_of_ne hrun hvalid rfl hstored ho hid⟩
          cases hv : validate key.kind o.spec with
          | ok r =>
              rw [(hconv.accepted o r ho hv).1] at hstored
              obtain rfl := Option.some.inj hstored
              exact absurd rfl hid
          | error e =>
              obtain ⟨time, htime⟩ := (hconv.rejected o e ho hv).1
              exact ⟨e, time, rfl, htime⟩
      · rintro before after q rfl hq howned hkeep
        exact hopening.identity_of_owned hq hrun hvalid howned hkeep hstored ho

end standstill

/-! ### A run that replaces an object -/

/-- A listener that is deleted and replaced by one that is rejected, before the controller
looks. -/
def replacementMoves : List Move :=
  let worker : Move := .desk .listener (.advance 0 ⟨0, 0⟩)
  let deliver : Move := .desk .listener .deliver
  [.desk .listener .list, .desk .listener .enqueue,
    .client (.create ⟨"first", ⟨0, 0⟩⟩ (listener 'a')),
    deliver, .desk .listener .take, worker, worker, worker, worker,
    .client (.delete (listener 'a').key),
    .client (.create ⟨"second", ⟨0, 0⟩⟩ { listener 'a' with spec := ⟨"", []⟩ }),
    deliver, deliver, deliver, .desk .listener .take, worker, worker, worker, worker,
    deliver, .desk .listener .take, worker, worker, worker]

/-- Where these moves lead. -/
def afterReplacement : Pipeline :=
  ((opening briefPolicy .empty).run replacementMoves).get (by decide +kernel)

/-- The resource of the first listener. -/
def leftover : StoredResource where
  version := ⟨"first", "1"⟩
  resource := ⟨.listener, .v3, "type.googleapis.com/envoy.config.listener.v3.Listener", "a",
    [10, 1, 97]⟩

theorem run_replacementMoves :
    (opening briefPolicy .empty).run replacementMoves = some afterReplacement :=
  (Option.some_get _).symm

theorem afterReplacement_standstill :
    (afterReplacement.desks .listener).Standstill afterReplacement.stores := by
  decide +kernel

theorem afterReplacement_stored :
    afterReplacement.stores.resources.resources.get? (listener 'a').key.resourceName =
      some leftover := by
  decide +kernel

theorem afterReplacement_uid :
    (afterReplacement.stores.objects.objects.get? (listener 'a').key).map (·.metadata.uid) =
      some "second" := by
  decide +kernel

theorem served_on_after_replacement :
    (opening briefPolicy .empty).run replacementMoves = some afterReplacement ∧
      (afterReplacement.desks .listener).Standstill afterReplacement.stores ∧
      afterReplacement.stores.resources.resources.get? (listener 'a').key.resourceName =
        some leftover ∧
      ¬∃ o, afterReplacement.stores.objects.objects.get? (listener 'a').key = some o ∧
        o.metadata.uid = leftover.version.identity := by
  refine ⟨run_replacementMoves, afterReplacement_standstill, afterReplacement_stored, ?_⟩
  rintro ⟨o, ho, hid⟩
  have huid := afterReplacement_uid
  rw [ho, Option.map_some, hid, Option.some.injEq] at huid
  exact absurd huid (by decide)

theorem origin_after_replacement :
    (afterReplacement.desks .listener).Standstill afterReplacement.stores ∧
      ∃ before after q o, replacementMoves = before ++ after ∧
        (opening briefPolicy .empty).run before = some q ∧
        q.stores.objects.objects.get? (listener 'a').key = some o ∧
        leftover.version = o.resourceVersion ∧
        .client (.delete (listener 'a').key) ∈ after := by
  refine ⟨afterReplacement_standstill, ?_⟩
  have hvalid : (listener 'a').key.isValid = true := by decide +kernel
  have hkind : (listener 'a').key.kind = .listener := rfl
  obtain ⟨o, ho, hid | ⟨-, horigin⟩, -⟩ := identity_of_standstill briefPolicy
    ObjectStore.empty_reachable run_replacementMoves hvalid hkind afterReplacement_standstill
    afterReplacement_stored
  · have huid := afterReplacement_uid
    rw [ho, Option.map_some, ← hid, Option.some.injEq] at huid
    exact absurd huid (by decide)
  · exact horigin

end ControlPlane.Pipeline
