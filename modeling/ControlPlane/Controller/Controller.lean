import ControlPlane.Controller.Reconcile
import ControlPlane.Controller.WorkQueue

/-!
# Controllers

A controller keeps the work queue of one kind. It follows the history of the object store and adds
the key of each change of its kind; when it has lost events it adds every key that there may be
something to do for. The result of a pass decides whether its key is tried again.
-/

namespace ControlPlane

structure Controller where
  kind : Kind
  queue : WorkQueue ObjectKey
  watch : Watch

namespace Controller

/-- The keys of stored resources of a kind. -/
def storedKeys (kind : Kind) (resources : ResourceStore) : List ObjectKey :=
  (resources.names kind).filterMap ObjectKey.ofResourceName?

/-- Every key that is listed or has a stored resource, once each and in order. -/
def allKeys (kind : Kind) (listed : Except StoreError (List Object)) (resources : ResourceStore) :
    List ObjectKey :=
  let listedKeys := match listed with
    | .ok objects => objects.map (·.key)
    | .error _ => []
  (Catalog.ofList ((listedKeys ++ storedKeys kind resources).map fun k => (k, ()))).keys

def addAll (c : Controller) (keys : List ObjectKey) : Controller :=
  { c with queue := keys.foldl WorkQueue.add c.queue }

/-- Adds every key that there may be something to do for. -/
def resync (c : Controller) (listed : Except StoreError (List Object)) (resources : ResourceStore) :
    Controller :=
  c.addAll (allKeys c.kind listed resources)

/-- Takes up the events that can still be read. -/
def takeEvents (c : Controller) (objects : ObjectStore) : Controller :=
  let keys := (c.watch.pending objects).filterMap fun e =>
    if e.key.kind = c.kind then some e.key else none
  { c.addAll keys with watch := .start objects }

/-- Settles the fate of a key after a pass. The answer is the delay after which the key is to be
added again, if it is. -/
def handleResult (queue : WorkQueue ObjectKey) (key : ObjectKey) (result : PassResult)
    (maxRetries : Nat) : WorkQueue ObjectKey × Option Duration :=
  let again := (queue.addRateLimited key).map id some
  match result with
  | .ok .done => (queue.forget key, none)
  | .ok .requeue => again
  | .error e =>
    if e.isRetryable && queue.requeues key < maxRetries then again
    else (queue.forget key, none)

end Controller

end ControlPlane
