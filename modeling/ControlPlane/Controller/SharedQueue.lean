import ControlPlane.Controller.Timers
import ControlPlane.Controller.WorkQueue

/-!
# Shared queues

A work queue with those who wait for its keys. Whoever has waited longest gets the next key;
delayed keys are added when the clock reaches their time; at shutdown everyone leaves without a
key.
-/

namespace ControlPlane

structure SharedQueue (κ : Type) where
  queue : WorkQueue κ
  /-- The delayed keys. -/
  timers : Timers κ
  /-- Who waits, the one who has waited longest first. -/
  waiters : List String
  /-- Who has left, and with which key. -/
  served : List (String × Option κ)

namespace SharedQueue

variable {κ : Type} [DecidableEq κ]

def new (base max : Duration) : SharedQueue κ := ⟨.new base max, .new, [], []⟩

/-- Serves those who wait, as far as there are keys. -/
def serve (q : SharedQueue κ) : List String → SharedQueue κ
  | [] => { q with waiters := [] }
  | waiter :: rest =>
    if q.queue.isShutDown then serve { q with served := q.served ++ [(waiter, none)] } rest
    else match q.queue.get? with
      | none => { q with waiters := waiter :: rest }
      | some (key, queue) =>
        serve { q with queue := queue, served := q.served ++ [(waiter, some key)] } rest

/-- A change of the queue, after which those who wait are served. -/
def modify (q : SharedQueue κ) (f : WorkQueue κ → WorkQueue κ) : SharedQueue κ :=
  serve { q with queue := f q.queue } q.waiters

/-- Joins those who wait. -/
def wait (q : SharedQueue κ) (waiter : String) : SharedQueue κ :=
  q.serve (q.waiters ++ [waiter])

/-- Takes a key without waiting: none if the caller would have to wait. -/
def poll (q : SharedQueue κ) : SharedQueue κ × Option (Option κ) :=
  if q.queue.isShutDown then (q, some none)
  else match q.queue.get? with
    | none => (q, none)
    | some (key, queue) => ({ q with queue := queue }, some (some key))

/-- Counts a failure of a key and adds the key after its delay. -/
def addRateLimited (q : SharedQueue κ) (key : κ) : SharedQueue κ × Duration :=
  let (queue, delay) := q.queue.addRateLimited key
  ({ q with queue := queue, timers := q.timers.start delay.nanos key }, delay)

/-- Moves the clock to a time, adding the keys that become due on the way. The fuel bounds the
number of times at which some do. -/
def advanceTo (time : Nat) : Nat → SharedQueue κ → SharedQueue κ
  | 0, q => { q with timers := q.timers.moveTo time }
  | fuel + 1, q =>
    match q.timers.due? time with
    | none => { q with timers := q.timers.moveTo time }
    | some (keys, timers) =>
      let q : SharedQueue κ := { q with timers := timers }
      advanceTo time fuel (q.modify fun queue => keys.foldl WorkQueue.add queue)

/-- Lets a duration pass. -/
def advance (q : SharedQueue κ) (d : Duration) : SharedQueue κ :=
  q.advanceTo (q.timers.now + d.nanos) q.timers.waiting.length

/-- Adds the keys that are due already. -/
def settle (q : SharedQueue κ) : SharedQueue κ := q.advance ⟨0⟩

/-- Forgets who was served. -/
def clearServed (q : SharedQueue κ) : SharedQueue κ := { q with served := [] }

end SharedQueue

end ControlPlane
