import ControlPlane.Store.Objects
import ControlPlane.Store.Resources

/-!
# Reconciliation

One pass for a key brings the resource store in line with the object. It asks the object store
twice: first for the object, then, if the verdict on its payload is not what the status says
already, to write the verdict down. The resource store is written only after that. A pass is given
as the two halves around these calls, each a function of the answer, so that anything may happen
in between.
-/

namespace ControlPlane

open Time (Timestamp)

/-- What to do with a key after a pass. -/
inductive Action where
  | done
  /-- The verdict could not be written because the object had changed. -/
  | requeue
  deriving DecidableEq, Repr

/-- How a pass ended. -/
abbrev PassResult := Except PlaneError Action

namespace Reconcile

/-- A pass that is about to write its verdict. -/
structure Judged where
  key : ObjectKey
  /-- The object as it was read. -/
  object : Object
  verdict : Acceptance
  /-- The resource, if the payload was accepted. -/
  resource : Option Resource
  deriving DecidableEq, Repr

/-- The object with the verdict in its status. -/
def Judged.updated (j : Judged) : Object :=
  { j.object with status := j.object.status.setAccepted j.verdict }

/-- The outcome of the first half. -/
inductive Progress where
  | ended (result : PassResult)
  | judged (pass : Judged)

/-- The verdict on an object, and the resource if it was accepted. -/
def judge [NewerMessages] (key : ObjectKey) (o : Object) (now : Timestamp) :
    Acceptance × Option Resource :=
  match validate key.kind o.spec with
  | .ok resource => (.accept o.metadata.generation now, some resource)
  | .error e => (.reject e.reason e.message o.metadata.generation now, none)

/-- Takes an accepted resource over into the store, under the version the object had when read. -/
def publish (key : ObjectKey) (o : Object) (resource : Option Resource) (s : ResourceStore) :
    ResourceStore :=
  match resource with
  | none => s
  | some r => (s.update key.resourceName o.resourceVersion r).1

/-- The first half of a pass, given the answer to the request for the object. -/
def begin [NewerMessages] (key : ObjectKey) (now : Timestamp)
    (answer : Except StoreError Object) (s : ResourceStore) : ResourceStore × Progress :=
  match answer with
  | .error e =>
    if e.isNotFound then ((s.delete key.resourceName).1, .ended (.ok .done))
    else (s, .ended (.error (.ofStoreError e)))
  | .ok o =>
    let previous := o.status.accepted?
    let (fresh, resource) := judge key o now
    let verdict := fresh.settle previous
    if previous = some verdict then (publish key o resource s, .ended (.ok .done))
    else (s, .judged ⟨key, o, verdict, resource⟩)

/-- The second half of a pass, given the answer to the writing of the verdict. -/
def finish (pass : Judged) (answer : Except StoreError Unit) (s : ResourceStore) :
    ResourceStore × PassResult :=
  match answer with
  | .ok () => (publish pass.key pass.object pass.resource s, .ok .done)
  | .error e =>
    if e.isConflict then (s, .ok .requeue)
    else if e.isNotFound then ((s.delete pass.key.resourceName).1, .ok .done)
    else (s, .error (.ofStoreError e))

end Reconcile

/-- A whole pass with nothing in between. -/
def reconcile [NewerMessages] (key : ObjectKey) (now : Timestamp) (objects : ObjectStore)
    (s : ResourceStore) : ObjectStore × ResourceStore × PassResult :=
  match Reconcile.begin key now (objects.get key) s with
  | (s, .ended result) => (objects, s, result)
  | (s, .judged pass) =>
    match objects.updateStatus pass.updated with
    | .error e =>
      let (s, result) := Reconcile.finish pass (.error e) s
      (objects, s, result)
    | .ok (_, objects) =>
      let (s, result) := Reconcile.finish pass (.ok ()) s
      (objects, s, result)

end ControlPlane
