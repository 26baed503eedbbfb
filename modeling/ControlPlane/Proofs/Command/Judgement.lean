import ControlPlane.Command.Create
import ControlPlane.Proofs.Discovery.Deployments

/-! # The command judges as the controller does

A manifest is written for a key and a message only after the checks that await the object later: the
object store checks the key, the reconciler the payload.  Both say what the command says
(`Command.JudgesAs`): a key that it refuses is refused by the object store in the same words, a
message that it refuses is rejected in the same words, and what it makes is accepted and shown for
its protocol alone.  That holds in all states that the stores can be in as long as the key is free,
also with what an earlier object under it has left behind (`judges_alike`). -/

namespace ControlPlane

open Time (Timestamp)

/-- What a message is accepted as that comes with the type URL of its kind. -/
theorem validate_of_url [NewerMessages] {protocol : Protocol} {kind : Kind} {message : Bytes}
    {r : Resource} (h : validate kind ⟨(MessageType.mk protocol kind).url, message⟩ = .ok r) :
    r.protocol = protocol ∧ r.payload = ⟨(MessageType.mk protocol kind).url, message⟩ := by
  obtain ⟨type, subject, hparse, -, -, -, rfl⟩ := validate_ok h
  obtain rfl := Option.some.inj ((MessageType.parse?_url ⟨protocol, kind⟩).symm.trans hparse)
  exact ⟨rfl, rfl⟩

namespace Command

/-! ### What the command says -/

section build
variable [NewerMessages] {key : ObjectKey} {protocol : Protocol} {message : Bytes}

theorem buildObject_of_invalid (h : key.isValid = false) (protocol : Protocol) (message : Bytes)
    (now : Timestamp) :
    buildObject key protocol message now = .error ⟨.usage, key.invalidText⟩ := by
  rw [buildObject, h]
  rfl

theorem buildObject_of_rejected (hvalid : key.isValid = true) {e : Validation.Rejection}
    (h : validate key.kind ⟨(MessageType.mk protocol key.kind).url, message⟩ = .error e)
    (now : Timestamp) :
    buildObject key protocol message now = .error ⟨.dataError, e.message⟩ := by
  rw [buildObject, hvalid]
  dsimp only
  rw [h]
  rfl

theorem buildObject_of_accepted (hvalid : key.isValid = true) {r : Resource}
    (h : validate key.kind ⟨(MessageType.mk protocol key.kind).url, message⟩ = .ok r)
    (now : Timestamp) :
    ∃ built, buildObject key protocol message now = .ok built ∧ built.key = key ∧
      built.spec = ⟨(MessageType.mk protocol key.kind).url, message⟩ := by
  rw [buildObject, hvalid]
  dsimp only
  rw [h]
  exact ⟨_, rfl, rfl, rfl⟩

end build

/-! ### What comes of the object later -/

/-- The command judges a message for the key of an object as the stores judge the object. -/
structure JudgesAs [NewerMessages] (s : Stores) (protocol : Protocol) (message : Bytes) (o : Object)
    (stamp : Stamp) (now built : Timestamp) : Prop where
  /-- The command refuses the key if the object store does, in the same words. -/
  usage : ∀ text, buildObject o.key protocol message built = .error ⟨.usage, text⟩ ↔
    s.objects.create stamp o = .error (.invalid text)
  /-- It refuses the message if the reconciler would reject it, in the same words. -/
  dataError : ∀ text, buildObject o.key protocol message built = .error ⟨.dataError, text⟩ ↔
    ∃ t verdict, s.submit stamp o now = .ok (t, .ok .done) ∧
      t.objects.verdict? o.key = some verdict ∧ verdict.accepted = false ∧ verdict.message = text
  /-- What it makes is accepted, and shown as it is in the snapshot of its protocol alone. -/
  success : ∀ made, buildObject o.key protocol message built = .ok made →
    made.key = o.key ∧ made.spec = o.spec ∧
    ∃ t verdict, s.submit stamp o now = .ok (t, .ok .done) ∧
      t.objects.verdict? o.key = some verdict ∧ verdict.accepted = true ∧
      (∃ e ∈ (t.resources.snapshot protocol).2.entries, e.name = o.key.resourceName ∧
        e.kind = o.key.kind ∧ e.body = ⟨(MessageType.mk protocol o.key.kind).url, message⟩) ∧
      ∀ p, p ≠ protocol → ∀ e ∈ (t.resources.snapshot p).2.entries, e.name ≠ o.key.resourceName

section judging
variable [NewerMessages] {s : Stores} {protocol : Protocol} {message : Bytes} {o : Object}
  {stamp : Stamp} {now built : Timestamp}

theorem judgesAs_of_invalid (hvalid : o.key.isValid = false) :
    JudgesAs s protocol message o stamp now built := by
  have hbuild := buildObject_of_invalid hvalid protocol message built
  have hcreate := ObjectStore.create_of_invalid (s := s.objects) hvalid stamp
  constructor
  · intro text
    rw [hbuild, hcreate]
    simp
  · intro text
    rw [hbuild, Stores.submit, hcreate]
    constructor
    · intro h
      simp at h
    · rintro ⟨t, verdict, hsubmit, -⟩
      cases hsubmit
  · intro made h
    rw [hbuild] at h
    cases h

theorem judgesAs_of_rejected (hs : s.Sound) (hvalid : o.key.isValid = true)
    (hfree : s.objects.objects.get? o.key = none)
    (hspec : o.spec = ⟨(MessageType.mk protocol o.key.kind).url, message⟩)
    {e : Validation.Rejection} (he : validate o.key.kind o.spec = .error e) :
    JudgesAs s protocol message o stamp now built := by
  have hbuild := buildObject_of_rejected hvalid (hspec ▸ he) built
  obtain ⟨t, hsubmit, hadmitted⟩ := hs.submit hvalid hfree stamp now
  have hverdict := hadmitted.rejected e he
  constructor
  · intro text
    rw [hbuild, ObjectStore.create_of_free hvalid hfree]
    simp
  · intro text
    rw [hbuild]
    constructor
    · intro h
      obtain rfl : e.message = text := by simpa using h
      exact ⟨t, _, hsubmit, hverdict, rfl, rfl⟩
    · rintro ⟨t', verdict, hsubmit', hverdict', -, rfl⟩
      obtain ⟨rfl, -⟩ := Prod.mk.inj (Except.ok.inj (hsubmit.symm.trans hsubmit'))
      obtain rfl := Option.some.inj (hverdict.symm.trans hverdict')
      rfl
  · intro made h
    rw [hbuild] at h
    cases h

theorem judgesAs_of_accepted (hs : s.Sound) (hcurrent : ∀ p, s.resources.Current p)
    (hvalid : o.key.isValid = true) (hfree : s.objects.objects.get? o.key = none)
    (hspec : o.spec = ⟨(MessageType.mk protocol o.key.kind).url, message⟩)
    {r : Resource} (hr : validate o.key.kind o.spec = .ok r) :
    JudgesAs s protocol message o stamp now built := by
  obtain ⟨made, hbuild, hkey, hmade⟩ := buildObject_of_accepted hvalid (hspec ▸ hr) built
  obtain ⟨t, hsubmit, hadmitted⟩ := hs.submit hvalid hfree stamp now
  obtain ⟨hverdict, -⟩ := hadmitted.accepted r hr
  constructor
  · intro text
    rw [hbuild, ObjectStore.create_of_free hvalid hfree]
    simp
  · intro text
    rw [hbuild]
    constructor
    · intro h
      cases h
    · rintro ⟨t', verdict, hsubmit', hverdict', hrejected, -⟩
      obtain ⟨rfl, -⟩ := Prod.mk.inj (Except.ok.inj (hsubmit.symm.trans hsubmit'))
      obtain rfl := Option.some.inj (hverdict.symm.trans hverdict')
      cases hrejected
  · intro other h
    obtain rfl := Except.ok.inj (hbuild.symm.trans h)
    obtain ⟨hshown, hothers⟩ := hadmitted.shown hcurrent hr
    obtain ⟨hprotocol, hpayload⟩ := validate_of_url (hspec ▸ hr)
    rw [hpayload, hprotocol] at hshown
    rw [hprotocol] at hothers
    exact ⟨hkey, hmade.trans hspec.symm, t, _, hsubmit, hverdict, rfl, hshown, hothers⟩

end judging
end Command

namespace Discovery.Deployment

/-- Whatever clients, passes and streams have done before: for an object with a free key and with a
payload that the command could have made, the command judges as the two stores do. -/
theorem judges_alike [NewerMessages] {objects : ObjectStore} (hobjects : objects.Reachable)
    {moves : List Move} {d : Deployment} (hrun : (opening objects).run moves = some d)
    {protocol : Protocol} {message : Bytes} {o : Object}
    (hspec : o.spec = ⟨(MessageType.mk protocol o.key.kind).url, message⟩)
    (hfree : d.reconcilers.stores.objects.objects.get? o.key = none) (stamp : Stamp)
    (now built : Timestamp) :
    Command.JudgesAs d.reconcilers.stores protocol message o stamp now built := by
  have hkept : d.Kept := (opening_kept hobjects.sound).run hrun
  cases hvalid : o.key.isValid with
  | false => exact Command.judgesAs_of_invalid hvalid
  | true =>
      have hstores : d.reconcilers.stores.Sound := hkept.reconcilers.stores
      cases hresult : validate o.key.kind o.spec with
      | error e => exact Command.judgesAs_of_rejected hstores hvalid hfree hspec hresult
      | ok r =>
          exact Command.judgesAs_of_accepted hstores hkept.current hvalid hfree hspec hresult

/-- A cluster with a payload of this protocol. -/
def webCluster (protocol : Protocol) : Object :=
  .declare .cluster "default" "web" ⟨MessageType.url ⟨protocol, .cluster⟩, [10, 1, 97]⟩

/-- A cluster of the older protocol is accepted and removed again, and nobody has looked after its
resource when somebody starts to listen. -/
def remainsMoves : List Move :=
  [.reconcile (.client (.create ⟨"first", ⟨0, 0⟩⟩ (webCluster .v2))),
    .reconcile (.start (webCluster .v2).key ⟨1, 0⟩ none), .reconcile (.finish 0 none),
    .reconcile (.client (.delete (webCluster .v2).key)), .connect .stream .v2 .aggregated 0]

def overRemains : Deployment := ((opening .empty).run remainsMoves).get (by decide +kernel)

/-- The key is free though a resource is stored under its name, and the command judges alike. -/
theorem judges_alike_over_remains :
    (overRemains.reconcilers.stores.resources.resources.get?
        (webCluster .v3).key.resourceName).map (·.resource.protocol) = some .v2 ∧
      Command.JudgesAs overRemains.reconcilers.stores .v3 [10, 1, 97] (webCluster .v3)
        ⟨"second", ⟨2, 0⟩⟩ ⟨3, 0⟩ ⟨2, 0⟩ ∧
      (Command.buildObject (webCluster .v3).key .v3 [10, 1, 97] ⟨2, 0⟩).toOption.isSome = true := by
  have hrun : (opening .empty).run remainsMoves = some overRemains := (Option.some_get _).symm
  have hfree : overRemains.reconcilers.stores.objects.objects.get? (webCluster .v3).key = none := by
    decide +kernel
  exact ⟨by decide +kernel,
    judges_alike ObjectStore.empty_reachable hrun rfl hfree ⟨"second", ⟨2, 0⟩⟩ ⟨3, 0⟩ ⟨2, 0⟩,
    by decide +kernel⟩

end Discovery.Deployment
end ControlPlane
