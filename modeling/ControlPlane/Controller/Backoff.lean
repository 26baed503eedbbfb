/-!
# Backoff

The delay before a key is tried again doubles with each failure in a row, up to a maximum. Durations
are whole nanoseconds and the arithmetic saturates: the factor at the greatest 32-bit integer, the
product at the greatest duration.
-/

namespace ControlPlane

/-- A duration in nanoseconds. -/
structure Duration where
  nanos : Nat
  deriving DecidableEq, Repr

namespace Duration

def nanosPerSecond : Nat := 1000000000

def nanosPerMilli : Nat := 1000000

def ofMillis (n : Nat) : Duration := ⟨n * nanosPerMilli⟩

def toMillis (d : Duration) : Nat := d.nanos / nanosPerMilli

/-- One nanosecond below 2^64 seconds. -/
def greatest : Duration := ⟨Nat.pow 2 64 * nanosPerSecond - 1⟩

def scale (d : Duration) (factor : Nat) : Duration := ⟨min (d.nanos * factor) greatest.nanos⟩

end Duration

/-- The factor for the n-th attempt, a power of two as far as it fits 32 bits. -/
def backoffFactor (attempt : Nat) : Nat :=
  if attempt ≤ 32 then Nat.pow 2 (attempt - 1) else Nat.pow 2 32 - 1

/-- The delay after the n-th failure in a row. -/
def backoff (attempt : Nat) (base max : Duration) : Duration :=
  if attempt = 0 then ⟨0⟩
  else ⟨min (base.scale (backoffFactor attempt)).nanos max.nanos⟩

end ControlPlane
