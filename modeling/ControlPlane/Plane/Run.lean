import ControlPlane.Plane.Serving
import ControlPlane.Plane.Work

/-!
# Running to a standstill

A plane runs in rounds, controllers before streams, until nobody has anything to do. Time passes
only at a standstill: the clock then moves on to the next key that is due.
-/

namespace ControlPlane.Plane

/-- One round of everything. -/
def round [NewerMessages] (p : Plane) : Plane := p.workRound.serveRound

def isStill (p : Plane) : Bool := !p.isBusy && !p.hasReadyStream

/-- Rounds until a standstill, at most so many. -/
def rounds [NewerMessages] : Nat → Plane → Plane
  | 0, p => p
  | fuel + 1, p => if p.isStill then p else rounds fuel p.round

/-- The rounds to a standstill: an incident can undo the work of a round once, and otherwise the
second round finds every verdict written down. -/
def roundLimit (p : Plane) : Nat := 2 * p.interference.pending.length + 8

def settle [NewerMessages] (p : Plane) : Plane := p.rounds p.roundLimit

/-- Adds a key that is due again to the queue of its kind. -/
def retry (p : Plane) (key : ObjectKey) : Plane :=
  { p with
    controllers := p.controllers.map fun c => if c.kind = key.kind then c.addAll [key] else c }

/-- Moves the clock to a time, with a standstill at each moment at which keys are due. The fuel
bounds the number of these moments. -/
def advanceTo [NewerMessages] (time : Nat) : Nat → Plane → Plane
  | 0, p => { p with retries := p.retries.moveTo time }
  | fuel + 1, p =>
    match p.retries.due? time with
    | none => { p with retries := p.retries.moveTo time }
    | some (keys, retries) =>
      advanceTo time fuel (keys.foldl retry { p with retries := retries }).settle

/-- How many moments with keys due there can be: whatever fails, fails because of an incident, so
every key that waits again has used one up. -/
def momentLimit (p : Plane) : Nat := p.retries.waiting.length + p.interference.pending.length

/-- Lets a duration pass. -/
def advance [NewerMessages] (p : Plane) (d : Duration) : Plane :=
  p.advanceTo (p.retries.now + d.nanos) p.momentLimit

end ControlPlane.Plane
