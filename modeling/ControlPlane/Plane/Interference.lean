import ControlPlane.Store.Objects

/-!
# Interference

What may come between a reconciler and the object store: calls that fail, and writes of others
that come just before a call. Incidents are lined up for each sort of call and each is used once.
-/

namespace ControlPlane

/-- The calls that a reconciler or a controller makes. -/
inductive Call where
  | get
  | updateStatus
  | list
  deriving DecidableEq, Repr

namespace Call

def all : List Call := [get, updateStatus, list]

def name : Call → String
  | get => "get"
  | updateStatus => "update_status"
  | list => "list"

end Call

/-- What happens to one call. -/
inductive Incident where
  /-- The call fails. -/
  | failure (error : StoreError)
  /-- Someone updates an object first. -/
  | update (object : Object)
  /-- Someone deletes an object first. -/
  | delete (key : ObjectKey)
  deriving DecidableEq, Repr

structure Interference where
  /-- The incidents to come, in order. -/
  pending : List (Call × Incident)
  /-- The calls made. -/
  calls : List Call
  deriving DecidableEq, Repr

namespace Interference

def none : Interference := ⟨[], []⟩

def queue (i : Interference) (call : Call) (incident : Incident) (times : Nat) : Interference :=
  { i with pending := i.pending ++ List.replicate times (call, incident) }

/-- How often a call was made. -/
def count (i : Interference) (call : Call) : Nat := i.calls.count call

/-- The first incident of a sort of call, and the incidents without it. -/
def takeFirst (call : Call) :
    List (Call × Incident) → Option Incident × List (Call × Incident)
  | [] => (Option.none, [])
  | (c, incident) :: rest =>
    if c = call then (some incident, rest)
    else
      let (found, rest) := takeFirst call rest
      (found, (c, incident) :: rest)

/-- The store as a call finds it, or the failure of the call. -/
def meet (i : Interference) (call : Call) (objects : ObjectStore) :
    Interference × ObjectStore × Option StoreError :=
  let (incident, pending) := takeFirst call i.pending
  let i : Interference := ⟨pending, call :: i.calls⟩
  match incident with
  | Option.none => (i, objects, Option.none)
  | some (.failure e) => (i, objects, some e)
  | some (.update o) =>
    match objects.update o with
    | .ok (_, objects) => (i, objects, Option.none)
    | .error _ => (i, objects, Option.none)
  | some (.delete key) =>
    match objects.delete key with
    | .ok objects => (i, objects, Option.none)
    | .error _ => (i, objects, Option.none)

end Interference

end ControlPlane
