import ControlPlane.Proofs.Pipeline.Coverage

/-! # Standstills

When every event has arrived and no work is left for the keys of a kind, the resource store and
the verdicts are what the objects call for (`converged_of_standstill`), whatever happened on the
way. -/

namespace ControlPlane

open Time (Timestamp)

/-- What is served and said for a key is what its object calls for. -/
structure Stores.Converged [NewerMessages] (s : Stores) (key : ObjectKey) : Prop where
  gone : s.objects.objects.get? key = none → s.resources.resources.get? key.resourceName = none
  accepted : ∀ o r, s.objects.objects.get? key = some o → validate key.kind o.spec = .ok r →
    s.resources.resources.get? key.resourceName = some ⟨o.resourceVersion, r⟩ ∧
      ∃ time, o.status.accepted? = some (.accept o.metadata.generation time)
  rejected : ∀ o e, s.objects.objects.get? key = some o → validate key.kind o.spec = .error e →
    (∃ time, o.status.accepted? = some (.reject e.reason e.message o.metadata.generation time)) ∧
      ∀ stored, s.resources.resources.get? key.resourceName = some stored →
        ∃ payload, validate key.kind payload = .ok stored.resource

theorem Stores.Settled.converged [NewerMessages] {s : Stores} {key : ObjectKey} (h : s.Settled key)
    (hs : s.Sound) (hvalid : key.isValid = true) : s.Converged key where
  gone := h.gone
  accepted o r ho hr := by
    obtain ⟨time, htime⟩ := h.judged o ho
    rw [Reconcile.judge_ok hr] at htime
    exact ⟨h.served o r ho hr, time, htime⟩
  rejected o e ho he := by
    obtain ⟨time, htime⟩ := h.judged o ho
    rw [Reconcile.judge_error he] at htime
    refine ⟨⟨time, htime⟩, fun stored hstored => ?_⟩
    obtain ⟨k, hv, hname, payload, hok⟩ := hs.rooted _ stored hstored
    obtain rfl := ObjectKey.resourceName_injective hv hvalid hname
    exact ⟨payload, hok⟩

namespace Pipeline

section standstill
variable [NewerMessages] (policy : Plane.Policy) {objects : ObjectStore} {moves : List Move}
  {p : Pipeline} {kind : Kind} {key : ObjectKey}

/-- At every standstill of a controller that a run leads to, each key of its kind has
converged. -/
theorem converged_of_standstill (h : objects.Reachable)
    (hrun : (opening policy objects).run moves = some p) (hvalid : key.isValid = true)
    (hkind : key.kind = kind) (hstill : (p.desks kind).Standstill p.stores) :
    p.stores.Converged key := by
  have hp := (opening_sound policy h).run hrun
  exact ((hp.desks kind).settled hstill hvalid hkind).converged hp.stores hvalid

end standstill

/-! ### A run with a conflict -/

/-- A listener whose proxies know it by the name. -/
def listener (name : Char) : Object :=
  .declare .listener "default" "foo"
    ⟨"type.googleapis.com/envoy.config.listener.v3.Listener", [10, 1, name.val.toUInt8]⟩

def briefPolicy : Plane.Policy := ⟨⟨5⟩, ⟨1000⟩, 15⟩

/-- The object is updated between the two halves of a pass, so that the pass comes too late and its
key is tried again. -/
def conflictMoves : List Move :=
  let worker : Move := .desk .listener (.advance 0 ⟨0, 0⟩)
  [.desk .listener .list, .desk .listener .enqueue,
    .client (.create ⟨"first", ⟨0, 0⟩⟩ (listener 'a')), .desk .listener .deliver,
    .desk .listener .take, worker, .client (.update (listener 'b')), worker, worker, worker,
    .desk .listener .deliver, .desk .listener (.expire 0),
    .desk .listener .take, worker, worker, worker, worker,
    .desk .listener .deliver, .desk .listener .take, worker, worker, worker]

/-- Where these moves lead. -/
def afterConflict : Pipeline :=
  ((opening briefPolicy .empty).run conflictMoves).get (by decide +kernel)

theorem converged_after_conflict :
    (opening briefPolicy .empty).run conflictMoves = some afterConflict ∧
      (afterConflict.desks .listener).Standstill afterConflict.stores ∧
      afterConflict.stores.Converged (listener 'a').key := by
  have hrun : (opening briefPolicy .empty).run conflictMoves = some afterConflict :=
    (Option.some_get _).symm
  have hstill : (afterConflict.desks .listener).Standstill afterConflict.stores := by
    decide +kernel
  have hkind : (listener 'a').key.kind = .listener := rfl
  exact ⟨hrun, hstill,
    converged_of_standstill briefPolicy ObjectStore.empty_reachable hrun (by decide +kernel)
      hkind hstill⟩

end Pipeline

end ControlPlane
