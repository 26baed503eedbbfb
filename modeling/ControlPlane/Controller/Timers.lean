/-!
# Timers

Values that become due at a time to come, in the order of their times; those of one time are in the
order in which they were started. Times are nanoseconds on a clock that starts at zero.
-/

namespace ControlPlane

structure Timers (α : Type) where
  now : Nat
  /-- Each value with its time. -/
  waiting : List (Nat × α)

namespace Timers

variable {α : Type}

def new : Timers α := ⟨0, []⟩

/-- Puts a value behind all that are due no later. -/
def insert (time : Nat) (value : α) : List (Nat × α) → List (Nat × α)
  | [] => [(time, value)]
  | (t, v) :: rest =>
    if t ≤ time then (t, v) :: insert time value rest else (time, value) :: (t, v) :: rest

/-- Starts a timer that is due after so many nanoseconds. -/
def start (timers : Timers α) (delay : Nat) (value : α) : Timers α :=
  { timers with waiting := insert (timers.now + delay) value timers.waiting }

/-- The values that are due first, if they are due by a time, and the timers at their time. -/
def due? (timers : Timers α) (limit : Nat) : Option (List α × Timers α) :=
  match timers.waiting with
  | [] => none
  | (time, _) :: _ =>
    if limit < time then none
    else
      let (ready, rest) := timers.waiting.partition fun t => t.1 = time
      some (ready.map (·.2), ⟨max timers.now time, rest⟩)

/-- Moves the clock. -/
def moveTo (timers : Timers α) (time : Nat) : Timers α := { timers with now := max timers.now time }

end Timers

end ControlPlane
