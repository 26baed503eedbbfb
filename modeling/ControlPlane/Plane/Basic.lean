import ControlPlane.Controller.Controller
import ControlPlane.Controller.Timers
import ControlPlane.Discovery.Stream
import ControlPlane.Plane.Interference

/-!
# The control plane

Everything that runs together, as one state: the two stores, the controllers that keep the second
in line with the first, the keys that are to be tried again, and the streams that proxies listen
on. Moments and identities come from outside; a plane draws them one after the other, so no two
draws are alike.
-/

namespace ControlPlane

open Time (Timestamp)

structure Plane where
  /-- The moment of the first draw; each later one is a nanosecond after the one before. -/
  origin : Timestamp
  /-- How many moments and identities were drawn. -/
  drawn : Nat
  objects : ObjectStore
  resources : ResourceStore
  interference : Interference
  /-- The controllers that run, in the order of their kinds. -/
  controllers : List Controller
  maxRetries : Nat
  /-- The keys that are to be added to their queues again. -/
  retries : Timers ObjectKey
  /-- The streams by the names of those who opened them. -/
  streams : Catalog String Discovery.Stream
  /-- How many streams were opened. -/
  opened : Nat
  /-- Whether streams are not served any more. -/
  isClosing : Bool

namespace Plane

def new (origin : Timestamp) : Plane where
  origin := origin
  drawn := 0
  objects := .empty
  resources := .empty
  interference := .none
  controllers := []
  maxRetries := 0
  retries := .new
  streams := ∅
  opened := 0
  isClosing := false

/-- The series of tokens that identities are taken from; those of streams are later ones. -/
def identitySeries : Nat := 0

/-- The draw so many places ahead. -/
def stamp (p : Plane) (ahead : Nat) : Stamp :=
  ⟨token identitySeries (p.drawn + ahead), ⟨p.origin.seconds, p.origin.nanos + p.drawn + ahead⟩⟩

/-- The plane after so many draws. -/
def draw (p : Plane) (count : Nat) : Plane := { p with drawn := p.drawn + count }

/-- A write of a client to the object store. -/
def write {α : Type} (p : Plane)
    (operation : Stamp → ObjectStore → Except StoreError (α × ObjectStore)) :
    Plane × Except StoreError α :=
  match operation (p.stamp 0) p.objects with
  | .error e => (p.draw 1, .error e)
  | .ok (answer, objects) => ({ p.draw 1 with objects := objects }, .ok answer)

end Plane

end ControlPlane
