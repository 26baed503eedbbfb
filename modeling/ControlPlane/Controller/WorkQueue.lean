import ControlPlane.Controller.Backoff

/-!
# The work queue

Keys that wait to be processed, each at most once, and each by one worker at a time. A key that is
added while it is being processed waits until its worker is done. Delayed additions are answered
with their delay; it is for the caller to add the key when the time has come.
-/

namespace ControlPlane

structure WorkQueue (κ : Type) where
  base : Duration
  max : Duration
  /-- The keys to hand out, in order. -/
  pending : List κ
  /-- The keys with an addition that no worker has taken up. -/
  dirty : List κ
  /-- The keys that workers hold. -/
  processing : List κ
  /-- How many failures in a row each key has had. There is no bound here; 32 bits have room for fewer
  than `2 ^ 32` of them. -/
  failures : List (κ × Nat)
  isShutDown : Bool

namespace WorkQueue

variable {κ : Type} [DecidableEq κ]

def new (base max : Duration) : WorkQueue κ := ⟨base, max, [], [], [], [], false⟩

def add (q : WorkQueue κ) (key : κ) : WorkQueue κ :=
  if q.isShutDown ∨ key ∈ q.dirty then q
  else if key ∈ q.processing then { q with dirty := key :: q.dirty }
  else { q with dirty := key :: q.dirty, pending := q.pending ++ [key] }

/-- Hands out the next key, if there is one and the queue is not shut down. -/
def get? (q : WorkQueue κ) : Option (κ × WorkQueue κ) :=
  if q.isShutDown then none
  else match q.pending with
    | [] => none
    | key :: rest =>
      some (key,
        { q with
          pending := rest
          dirty := q.dirty.filter (· ≠ key)
          processing := key :: q.processing.filter (· ≠ key) })

/-- Takes a key back from its worker; if it was added meanwhile it is next handed out again. -/
def done (q : WorkQueue κ) (key : κ) : WorkQueue κ :=
  let processing := q.processing.filter (· ≠ key)
  if key ∈ q.dirty ∧ !q.isShutDown then
    { q with processing := processing, pending := q.pending ++ [key] }
  else { q with processing := processing }

/-- Failures of a key since it was last forgotten. -/
def requeues (q : WorkQueue κ) (key : κ) : Nat :=
  ((q.failures.find? fun f => f.1 = key).map (·.2)).getD 0

/-- Counts a failure of a key; the key is to be added after the delay. -/
def addRateLimited (q : WorkQueue κ) (key : κ) : WorkQueue κ × Duration :=
  let failures := q.requeues key + 1
  ({ q with failures := (key, failures) :: q.failures.filter (·.1 ≠ key) },
    backoff failures q.base q.max)

def forget (q : WorkQueue κ) (key : κ) : WorkQueue κ :=
  { q with failures := q.failures.filter (·.1 ≠ key) }

def shutdown (q : WorkQueue κ) : WorkQueue κ := { q with isShutDown := true }

end WorkQueue

end ControlPlane
