import ControlPlane.Controller.Reconcile
import ControlPlane.Proofs.Store.Publications

/-! # Only what was validated is published

What validation makes of a payload bears the type URL of its kind and protocol, has a name, and
passes validation again as it stands (`validate_genuine`).  A resource store that only passes write
to stores nothing else, and each publication serves only what was validated for its own protocol
(`Authentic`), since a snapshot is built from the resources of one protocol.  Each half of a pass
keeps this up, whatever the object store answers. -/

namespace ControlPlane

open Time (Timestamp)

/-! ### What validation accepts -/

/-- A message that breaks no constraint has a name. -/
theorem Validation.name_ne_empty {subject : Subject} (h : Violation.ofSubject subject = []) :
    subject.name ≠ "" := by
  have htext : ∀ {field text : String} {rest : List Violation},
      Violation.ofText field text ++ rest = [] → text ≠ "" := by
    intro field text rest hnil htext
    rw [Violation.ofText, if_pos htext] at hnil
    cases hnil
  have halone : ∀ {field text : String}, Violation.ofText field text = [] → text ≠ "" :=
    fun hnil => htext ((List.append_nil _).trans hnil)
  cases subject with
  | cluster m => exact htext h
  | clusterLoadAssignment name => exact halone h
  | listener m =>
      have hlistener : Violation.ofListener m = [] := h
      unfold Violation.ofListener at hlistener
      rw [List.append_assoc] at hlistener
      exact htext hlistener
  | routeConfiguration m => exact htext h
  | runtime name => exact halone h
  | scopedRoute m =>
      have hroute : Violation.ofScopedRoute m = [] := h
      unfold Violation.ofScopedRoute at hroute
      rw [List.append_assoc] at hroute
      exact htext hroute
  | secret name => exact halone h
  | virtualHost m =>
      have hhost : Violation.ofVirtualHost "VirtualHost" m = [] := h
      unfold Violation.ofVirtualHost at hhost
      rw [List.append_assoc] at hhost
      exact htext hhost

/-- A type URL in its full form names its own message type. -/
theorem MessageType.parse?_url (type : MessageType) : parse? type.url = some type := by
  obtain ⟨protocol, kind⟩ := type
  cases protocol <;> cases kind <;> decide +kernel

/-- What is served under a name as a resource of a kind: the payload bears the type URL of the kind
in the protocol, and it validates in this protocol, under this name. -/
structure Genuine [NewerMessages] (protocol : Protocol) (kind : Kind) (name : String)
    (body : Payload) : Prop where
  typeUrl : body.typeUrl = MessageType.url ⟨protocol, kind⟩
  validated : validate kind body = .ok ⟨kind, protocol, body.typeUrl, name, body.value⟩
  /-- It does not validate as anything else. -/
  only : ∀ k r, validate k body = .ok r → k = kind ∧ r.protocol = protocol
  named : name ≠ ""

/-- The steps of a validation that accepts. -/
theorem validate_ok [NewerMessages] {kind : Kind} {payload : Payload} {r : Resource}
    (h : validate kind payload = .ok r) :
    ∃ type subject, MessageType.parse? payload.typeUrl = some type ∧ type.kind = kind ∧
      Validation.decode type payload.value = .ok subject ∧
      Validation.Violation.ofSubject subject = [] ∧
      r = ⟨kind, type.protocol, type.url, subject.name, payload.value⟩ := by
  unfold validate at h
  cases htype : Validation.typeFor kind payload.typeUrl with
  | error e =>
      rw [htype] at h
      cases h
  | ok type =>
      rw [htype] at h
      cases hdecode : Validation.decode type payload.value with
      | error e =>
          dsimp only [bind, Except.bind] at h
          rw [hdecode] at h
          cases h
      | ok subject =>
          dsimp only [bind, Except.bind] at h
          rw [hdecode] at h
          cases hcheck : Validation.check subject with
          | error e =>
              dsimp only at h
              rw [hcheck] at h
              cases h
          | ok done =>
              dsimp only at h
              rw [hcheck] at h
              obtain ⟨hparse, hkind⟩ :
                  MessageType.parse? payload.typeUrl = some type ∧ type.kind = kind := by
                unfold Validation.typeFor at htype
                split at htype
                · cases htype
                · rename_i type' hfound
                  obtain rfl := Except.ok.inj htype
                  obtain ⟨hparse, hkind⟩ := Option.filter_eq_some_iff.mp hfound
                  exact ⟨hparse, of_decide_eq_true hkind⟩
              refine ⟨type, subject, hparse, hkind, hdecode, ?_, (Except.ok.inj h).symm⟩
              unfold Validation.check at hcheck
              split at hcheck
              · rename_i hnone
                exact hnone
              · cases hcheck

/-- A resource is served as a payload that validates to the very same resource. -/
theorem validate_genuine [NewerMessages] {kind : Kind} {payload : Payload} {r : Resource}
    (h : validate kind payload = .ok r) :
    r.kind = kind ∧ Genuine r.protocol kind r.envoyName r.payload := by
  obtain ⟨type, subject, -, rfl, hdecode, hviolation, rfl⟩ := validate_ok h
  refine ⟨rfl, rfl, ?_, fun k r hr => ?_, Validation.name_ne_empty hviolation⟩
  swap
  · obtain ⟨type', subject', hparse, rfl, -, -, rfl⟩ := validate_ok hr
    obtain rfl := Option.some.inj (hparse.symm.trans type.parse?_url)
    exact ⟨rfl, rfl⟩
  have htype : Validation.typeFor type.kind type.url = .ok type := by
    unfold Validation.typeFor
    rw [type.parse?_url, Option.filter_some, if_pos (decide_eq_true rfl)]
  have hcheck : Validation.check subject = .ok () := by
    unfold Validation.check
    rw [hviolation]
  unfold validate Resource.payload
  dsimp only [bind, Except.bind]
  rw [htype]
  dsimp only
  rw [hdecode]
  dsimp only
  rw [hcheck]
  rfl

namespace ResourceStore

/-! ### What is stored and what is published -/

/-- A snapshot of which everything was validated for a protocol. -/
def Vetted [NewerMessages] (protocol : Protocol) (snapshot : Snapshot) : Prop :=
  ∀ e ∈ snapshot.entries, Genuine protocol e.kind e.envoyName e.body

/-- The resource is what some payload validates to. -/
def Validated [NewerMessages] (r : Resource) : Prop := ∃ kind payload, validate kind payload = .ok r

/-- Only what was validated is stored, and only what was validated for a protocol is published
for it. -/
structure Authentic [NewerMessages] (s : ResourceStore) : Prop where
  stored : ∀ name stored, s.resources.get? name = some stored → Validated stored.resource
  published : ∀ p, Vetted p (s.publication p).current

theorem empty_authentic [NewerMessages] : Authentic empty where
  stored name stored h := by cases h
  published p e he := by cases p <;> cases he

section authentic
variable [NewerMessages] {s : ResourceStore}

theorem Authentic.build (h : s.Authentic) (p : Protocol) : Vetted p (s.build p) := by
  intro e he
  obtain ⟨⟨name, stored⟩, hmem, rfl⟩ := List.mem_map.mp he
  obtain ⟨hentry, hprotocol⟩ := List.mem_filter.mp hmem
  obtain ⟨kind, payload, hvalidate⟩ := h.stored name stored (Catalog.mem_entries_iff.mp hentry)
  obtain ⟨hkind, hgenuine⟩ := validate_genuine hvalidate
  rw [of_decide_eq_true hprotocol, ← hkind] at hgenuine
  exact hgenuine

/-- A publication that shows the same or a snapshot built anew. -/
theorem Authentic.setPublication (h : s.Authentic) (q : Protocol) {x : Publication}
    (hx : Vetted q x.current) : (s.setPublication q x).Authentic where
  stored name stored hs := by
    rw [setPublication_resources] at hs
    exact h.stored name stored hs
  published p := by
    by_cases hp : p = q
    · subst hp
      rw [publication_setPublication_self]
      exact hx
    · rw [publication_setPublication_of_ne _ _ _ _ hp]
      exact h.published p

theorem Authentic.refresh (h : s.Authentic) (p : Protocol) : (s.refresh p).Authentic :=
  h.setPublication p (h.build p)

theorem Authentic.freshen (h : s.Authentic) (p : Protocol) : (s.freshen p).Authentic := by
  unfold ResourceStore.freshen
  split
  · exact h.refresh p
  · exact h

theorem Authentic.announce (h : s.Authentic) (p : Protocol) : (s.announce p).Authentic := by
  unfold ResourceStore.announce
  dsimp only
  split
  · exact h.setPublication p (h.published p)
  · exact h.refresh p

theorem Authentic.publish (h : s.Authentic) : s.publish.Authentic := by
  have hnext : Authentic { s with version := s.version + 1 } := ⟨h.stored, h.published⟩
  exact (hnext.announce .v2).announce .v3

theorem Authentic.put (h : s.Authentic) (name : ResourceName) (version : ResourceVersion)
    {r : Resource} (hr : Validated r) : (s.put name version r).Authentic where
  stored name' stored hs := by
    unfold ResourceStore.put at hs
    rw [Catalog.get?_insert] at hs
    split at hs
    · rw [← Option.some.inj hs]
      exact hr
    · exact h.stored name' stored hs
  published := h.published

theorem Authentic.update (h : s.Authentic) (name : ResourceName) (version : ResourceVersion)
    {r : Resource} (hr : Validated r) : (s.update name version r).1.Authentic := by
  have hput := h.put name version hr
  unfold ResourceStore.update
  split
  · exact hput.publish
  · exact hput
  · exact h

theorem Authentic.delete (h : s.Authentic) (name : ResourceName) :
    (s.delete name).1.Authentic := by
  have hdrop : (s.drop name).Authentic := by
    refine ⟨fun name' stored hs => ?_, h.published⟩
    unfold drop at hs
    rw [Catalog.get?_erase] at hs
    split at hs
    · cases hs
    · exact h.stored name' stored hs
  unfold ResourceStore.delete
  split
  · exact hdrop.publish
  · exact h

theorem Authentic.subscribe (h : s.Authentic) (p : Protocol) : (s.subscribe p).1.Authentic := by
  have hset : (s.setPublication p { s.publication p with
      receivers := (s.publication p).receivers + 1 }).Authentic :=
    h.setPublication p (h.published p)
  exact hset.freshen p

theorem Authentic.unsubscribe (h : s.Authentic) (r : Receiver) : (s.unsubscribe r).Authentic :=
  h.setPublication r.protocol (h.published r.protocol)

/-- What is selected from a snapshot is of the kind, and has one of the names if there are any. -/
theorem Vetted.select {protocol : Protocol} {snapshot : Snapshot} (h : Vetted protocol snapshot)
    {kind : Kind} {names : List String} {e : Entry} (he : e ∈ snapshot.select kind names) :
    Genuine protocol kind e.envoyName e.body ∧ (names ≠ [] → e.envoyName ∈ names) := by
  obtain ⟨hresource, hnames⟩ := List.mem_filter.mp he
  obtain ⟨hentry, hkind⟩ := List.mem_filter.mp hresource
  obtain rfl := of_decide_eq_true hkind
  refine ⟨h e hentry, fun hsome => ?_⟩
  rw [Bool.or_eq_true, List.isEmpty_iff] at hnames
  exact List.contains_iff_mem.mp (hnames.resolve_left hsome)

end authentic

end ResourceStore

namespace Reconcile

open ResourceStore (Authentic Validated)

/-! ### The two halves of a pass -/

/-- A pass that would take over only what was validated. -/
def Judged.Vetted [NewerMessages] (pass : Judged) : Prop :=
  ∀ r, pass.resource = some r → Validated r

theorem judge_validated [NewerMessages] {key : ObjectKey} {o : Object} {now : Timestamp}
    {r : Resource} (h : (judge key o now).2 = some r) : Validated r := by
  unfold judge at h
  split at h
  · rename_i resource hvalidate
    obtain rfl := Option.some.inj h
    exact ⟨key.kind, o.spec, hvalidate⟩
  · cases h

theorem publish_authentic [NewerMessages] {s : ResourceStore} (h : s.Authentic) (key : ObjectKey)
    (o : Object) {resource : Option Resource} (hresource : ∀ r, resource = some r → Validated r) :
    (publish key o resource s).Authentic := by
  cases resource with
  | none => exact h
  | some r => exact h.update _ _ (hresource r rfl)

theorem begin_authentic [NewerMessages] {s : ResourceStore} (h : s.Authentic) (key : ObjectKey)
    (now : Timestamp) (answer : Except StoreError Object) :
    (begin key now answer s).1.Authentic ∧
      ∀ pass, (begin key now answer s).2 = .judged pass → pass.Vetted := by
  cases answer with
  | error e =>
      unfold begin
      dsimp only
      split
      · exact ⟨h.delete _, fun pass hpass => by cases hpass⟩
      · exact ⟨h, fun pass hpass => by cases hpass⟩
  | ok o =>
      unfold begin
      dsimp only
      split
      · exact ⟨publish_authentic h key o fun r hr => judge_validated hr,
          fun pass hpass => by cases hpass⟩
      · refine ⟨h, fun pass hpass => ?_⟩
        cases hpass
        exact fun r hr => judge_validated hr

theorem finish_authentic [NewerMessages] {s : ResourceStore} (h : s.Authentic) {pass : Judged}
    (hpass : pass.Vetted) (answer : Except StoreError Unit) :
    (finish pass answer s).1.Authentic := by
  cases answer with
  | ok done => exact publish_authentic h _ _ hpass
  | error e =>
      unfold finish
      dsimp only
      split
      · exact h
      · split
        · exact h.delete _
        · exact h

end Reconcile

end ControlPlane
