import ControlPlane.Plane.Basic

/-!
# Work of the controllers

Passes for single keys, each with its calls to the object store, and the rounds of work in which all
controllers take up what has changed and empty their queues.
-/

namespace ControlPlane.Plane

/-- A call to the object store. The answer is the failure of the call, if it fails. -/
def call (p : Plane) (sort : Call) : Plane × Option StoreError :=
  let (interference, objects, failure) := p.interference.meet sort p.objects
  ({ p with interference := interference, objects := objects }, failure)

/-- The first half of a pass: the object is asked for and judged. -/
def beginPass [NewerMessages] (p : Plane) (key : ObjectKey) : Plane × Reconcile.Progress :=
  let (p, failure) := p.call .get
  let answer := match failure with
    | some e => .error e
    | none => p.objects.get key
  let (resources, progress) := Reconcile.begin key (p.stamp 0).time answer p.resources
  ({ p.draw 1 with resources := resources }, progress)

/-- The second half of a pass: the verdict is written down. -/
def finishPass (p : Plane) (pass : Reconcile.Judged) : Plane × PassResult :=
  let (p, failure) := p.call .updateStatus
  let (objects, answer) := match failure with
    | some e => (p.objects, .error e)
    | none =>
      match p.objects.updateStatus pass.updated with
      | .error e => (p.objects, .error e)
      | .ok (_, objects) => (objects, .ok ())
  let (resources, result) := Reconcile.finish pass answer p.resources
  ({ p with objects := objects, resources := resources }, result)

/-- One pass for a key. -/
def reconcile [NewerMessages] (p : Plane) (key : ObjectKey) : Plane × PassResult :=
  match p.beginPass key with
  | (p, .ended result) => (p, result)
  | (p, .judged pass) => p.finishPass pass

/-- What a controller gets when it asks for the objects of its kind. -/
def listObjects (p : Plane) (kind : Kind) : Plane × Except StoreError (List Object) :=
  match p.call .list with
  | (p, some e) => (p, .error e)
  | (p, none) => (p, .ok (p.objects.list kind))

/-- How controllers go about their work. -/
structure Policy where
  base : Duration
  max : Duration
  maxRetries : Nat
  deriving DecidableEq, Repr

/-- Starts the controller of a kind: it follows the changes from now on and looks at all that is
there. -/
def startController (policy : Policy) (p : Plane) (kind : Kind) : Plane :=
  let watch := Watch.start p.objects
  let (p, listed) := p.listObjects kind
  let controller : Controller := ⟨kind, .new policy.base policy.max, watch⟩
  { p with controllers := p.controllers ++ [controller.resync listed p.resources] }

/-- Starts a controller for each kind. -/
def startControllers (p : Plane) (policy : Policy) : Plane :=
  Kind.all.foldl (startController policy)
    { p with maxRetries := policy.maxRetries, controllers := [] }

/-- Ends all controllers; what was to be tried again is dropped with them. -/
def stopControllers (p : Plane) : Plane :=
  { p with controllers := [], retries := { p.retries with waiting := [] } }

/-- Replaces the controller of a kind. -/
def setController (p : Plane) (c : Controller) : Plane :=
  { p with controllers := p.controllers.map fun other => if other.kind = c.kind then c else other }

/-- A controller takes up what has changed, and looks at everything first if it has lost a change.
-/
def takeChanges (p : Plane) (c : Controller) : Plane :=
  if c.watch.lost p.objects = 0 then p.setController (c.takeEvents p.objects)
  else
    let watch : Watch := ⟨c.watch.position + c.watch.lost p.objects⟩
    let (p, listed) := p.listObjects c.kind
    let c : Controller := { c with watch := watch }.resync listed p.resources
    p.setController (c.takeEvents p.objects)

/-- Makes a pass for a key that a worker of the controller holds. -/
def workOn [NewerMessages] (p : Plane) (c : Controller) (key : ObjectKey) : Plane × Controller :=
  let (p, result) := p.reconcile key
  let (queue, delay) := Controller.handleResult c.queue key result p.maxRetries
  let retries := match delay with
    | none => p.retries
    | some d => p.retries.start d.nanos key
  ({ p with retries := retries }, { c with queue := queue.done key })

/-- The workers of a controller empty its queue. The fuel bounds the number of passes. -/
def drain [NewerMessages] : Nat → Plane → Controller → Plane
  | 0, p, c => p.setController c
  | fuel + 1, p, c =>
    match c.queue.get? with
    | none => p.setController c
    | some (key, queue) =>
      let (p, c) := p.workOn { c with queue := queue } key
      drain fuel p c

/-- Whether a controller has something to do. -/
def isBusy (p : Plane) : Bool :=
  p.controllers.any fun c =>
    c.watch.position != p.objects.history.size || !c.queue.pending.isEmpty

/-- One round of work: every controller takes up what has changed, then every queue is emptied. -/
def workRound [NewerMessages] (p : Plane) : Plane :=
  let p := p.controllers.foldl takeChanges p
  p.controllers.foldl (fun p c => drain c.queue.pending.length p c) p

end ControlPlane.Plane
