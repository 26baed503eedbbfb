import ControlPlane.Plane.Work
import ControlPlane.Proofs.Controller.Queue
import ControlPlane.Proofs.Controller.Settling
import Mathlib.Logic.Function.Basic

/-! # The pipeline in small steps

Clients write to the object store; for each kind a controller follows the history of the store and
any number of workers make passes for the keys of its queue.  Here all of them move in any order.
A pass is cut at its calls to the object store, a resync at its listing, and a key that is to be
tried again waits until its delay has run out, whenever that is.  Each move is made of the
functions that a controller runs (`Desk.step`), so a run is a list of moves and can be computed
(`Pipeline.run`). -/

namespace ControlPlane

open Time (Timestamp)

/-- What a worker is at with the key that it holds. -/
inductive Work where
  | taken (key : ObjectKey)
  /-- The first half of the pass is over. -/
  | judged (pass : Reconcile.Judged)
  | ended (key : ObjectKey) (result : PassResult)
  /-- Whether the key is tried again is decided; it remains to be given back. -/
  | decided (key : ObjectKey)

namespace Work

def key : Work → ObjectKey
  | taken key | ended key _ | decided key => key
  | judged pass => pass.key

/-- Where the first half of a pass leaves the worker. -/
def ofProgress (key : ObjectKey) : Reconcile.Progress → Work
  | .ended result => ended key result
  | .judged pass => judged pass

end Work

/-- How far a controller is with looking at everything. -/
inductive Resync where
  | none
  | due
  | listed (objects : List Object)
deriving DecidableEq, Repr

/-- The controller of a kind with its workers. -/
structure Desk where
  controller : Controller
  maxRetries : ℕ
  resync : Resync
  work : List Work
  /-- The keys whose delays have not run out. -/
  delayed : List ObjectKey

/-- Takes up one event. -/
def Controller.takeEvent (c : Controller) (e : Event) : Controller :=
  { c.addAll (if e.key.kind = c.kind then [e.key] else []) with
    watch := ⟨c.watch.position + 1⟩ }

namespace Desk

/-- What a controller or one of its workers does next. -/
inductive Move where
  /-- The next event arrives. -/
  | deliver
  /-- The controller hears that it has lost events. -/
  | lag
  /-- The objects are listed for a resync. -/
  | list
  /-- The keys of a resync are added. -/
  | enqueue
  /-- An idle worker takes a key. -/
  | take
  /-- A worker goes on. -/
  | advance (worker : ℕ) (now : Timestamp)
  /-- A delay runs out. -/
  | expire (index : ℕ)
deriving DecidableEq, Repr

def setQueue (d : Desk) (queue : WorkQueue ObjectKey) : Desk :=
  { d with controller := { d.controller with queue := queue } }

def deliver (d : Desk) (s : Stores) : Option Desk :=
  match d.resync, s.objects.history[d.controller.watch.position]? with
  | .none, some e =>
    if d.controller.watch.lost s.objects = 0 then
      some { d with controller := d.controller.takeEvent e }
    else none
  | _, _ => none

def lag (d : Desk) (s : Stores) : Option Desk :=
  let lost := d.controller.watch.lost s.objects
  match d.resync with
  | .none =>
    if lost = 0 then none
    else some { d with
      controller := { d.controller with watch := ⟨d.controller.watch.position + lost⟩ }
      resync := .due }
  | _ => none

def list (d : Desk) (s : Stores) : Option Desk :=
  match d.resync with
  | .due => some { d with resync := .listed (s.objects.list d.controller.kind) }
  | _ => none

def enqueue (d : Desk) (s : Stores) : Option Desk :=
  match d.resync with
  | .listed objects => some { d with
      controller := d.controller.resync (.ok objects) s.resources
      resync := .none }
  | _ => none

def take (d : Desk) : Option Desk :=
  d.controller.queue.get?.map fun (key, queue) =>
    { d.setQueue queue with work := .taken key :: d.work }

/-- The worker goes on to the next call, or to the queue when its pass has ended. -/
def advance [NewerMessages] (d : Desk) (s : Stores) (worker : ℕ) (now : Timestamp) :
    Option (Stores × Desk) :=
  d.work[worker]?.map fun
    | .taken key =>
      let (t, progress) := Reconcile.start key now s
      (t, { d with work := d.work.set worker (.ofProgress key progress) })
    | .judged pass =>
      let (t, result) := Reconcile.conclude pass s
      (t, { d with work := d.work.set worker (.ended pass.key result) })
    | .ended key result =>
      let (queue, delay) :=
        Controller.handleResult d.controller.queue key result d.maxRetries
      (s, { d.setQueue queue with
        work := d.work.set worker (.decided key)
        delayed := if delay.isSome then key :: d.delayed else d.delayed })
    | .decided key =>
      (s, { d.setQueue (d.controller.queue.done key) with work := d.work.eraseIdx worker })

def expire (d : Desk) (index : ℕ) : Option Desk :=
  d.delayed[index]?.map fun key =>
    { d.setQueue (d.controller.queue.add key) with delayed := d.delayed.eraseIdx index }

/-- One move at the desk, if it can be made. -/
def step [NewerMessages] (d : Desk) (s : Stores) : Move → Option (Stores × Desk)
  | .deliver => (d.deliver s).map (s, ·)
  | .lag => (d.lag s).map (s, ·)
  | .list => (d.list s).map (s, ·)
  | .enqueue => (d.enqueue s).map (s, ·)
  | .take => d.take.map (s, ·)
  | .advance worker now => d.advance s worker now
  | .expire index => (d.expire index).map (s, ·)

/-- A desk at its opening: it follows the history from now on and is to look at all there is. -/
def opening (policy : Plane.Policy) (objects : ObjectStore) (kind : Kind) : Desk where
  controller := ⟨kind, .new policy.base policy.max, .start objects⟩
  maxRetries := policy.maxRetries
  resync := .due
  work := []
  delayed := []

/-- All events have arrived, the queue is empty, nobody works and nothing is delayed. -/
structure Standstill (d : Desk) (s : Stores) : Prop where
  caughtUp : d.controller.watch.position = s.objects.history.size
  noResync : d.resync = .none
  noPending : d.controller.queue.pending = []
  noProcessing : d.controller.queue.processing = []
  noDelayed : d.delayed = []

instance (d : Desk) (s : Stores) : Decidable (d.Standstill s) :=
  decidable_of_iff
    (d.controller.watch.position = s.objects.history.size ∧ d.resync = .none ∧
      d.controller.queue.pending = [] ∧ d.controller.queue.processing = [] ∧ d.delayed = [])
    ⟨fun h => ⟨h.1, h.2.1, h.2.2.1, h.2.2.2.1, h.2.2.2.2⟩,
      fun h => ⟨h.caughtUp, h.noResync, h.noPending, h.noProcessing, h.noDelayed⟩⟩

end Desk

structure Pipeline where
  stores : Stores
  desks : Kind → Desk

namespace Pipeline

inductive Move where
  /-- A client writes to the object store. -/
  | client (write : ObjectStore.Write)
  | desk (kind : Kind) (move : Desk.Move)
deriving DecidableEq, Repr

/-- One move, if it can be made. -/
def step [NewerMessages] (p : Pipeline) : Move → Option Pipeline
  | .client w => some { p with stores := ⟨w.run p.stores.objects, p.stores.resources⟩ }
  | .desk kind m => ((p.desks kind).step p.stores m).map fun (stores, desk) =>
      ⟨stores, Function.update p.desks kind desk⟩

/-- The moves one after the other, if all can be made. -/
def run [NewerMessages] (p : Pipeline) : List Move → Option Pipeline
  | [] => some p
  | m :: rest => (p.step m).bind fun q => q.run rest

/-- The controllers start over an object store, with nothing served. -/
def opening (policy : Plane.Policy) (objects : ObjectStore) : Pipeline where
  stores := ⟨objects, .empty⟩
  desks := Desk.opening policy objects

theorem run_append [NewerMessages] (p : Pipeline) (before after : List Move) :
    p.run (before ++ after) = (p.run before).bind fun q => q.run after := by
  induction before generalizing p with
  | nil => rfl
  | cons m rest ih =>
      rw [List.cons_append, run, run]
      cases p.step m with
      | none => rfl
      | some q => exact ih q

end Pipeline

/-- What a controller takes up at once it could take up one event at a time. -/
theorem Controller.takeEvents_eq_foldl (c : Controller) (objects : ObjectStore)
    (hlost : c.watch.lost objects = 0) (hpos : c.watch.position ≤ objects.history.size) :
    c.takeEvents objects = (c.watch.pending objects).foldl takeEvent c := by
  have hfold : ∀ (events : List Event) (c : Controller), events.foldl takeEvent c =
      { c.addAll (events.filterMap fun e => if e.key.kind = c.kind then some e.key else none) with
        watch := ⟨c.watch.position + events.length⟩ } := by
    intro events
    induction events with
    | nil => exact fun c => rfl
    | cons e rest ih =>
        intro c
        rw [List.foldl_cons, ih, List.filterMap_cons]
        have hlength : c.watch.position + 1 + rest.length =
            c.watch.position + (rest.length + 1) := by omega
        by_cases hkind : e.key.kind = c.kind <;> simp [takeEvent, addAll, hkind, hlength]
  rw [hfold]
  simp only [takeEvents, Watch.start, Watch.pending, hlost, Nat.add_zero, List.length_drop,
    Array.length_toList]
  rw [Nat.add_sub_cancel' hpos]

end ControlPlane
