import ControlPlane.Resource

/-!
# Snapshots

The resources of one protocol version as they are served, at one version of the resource store.
-/

namespace ControlPlane

/-- A resource as it is served. -/
structure Entry where
  kind : Kind
  name : ResourceName
  /-- The name that a proxy knows the resource by. -/
  envoyName : String
  version : ResourceVersion
  body : Payload
  deriving DecidableEq, Repr

structure Snapshot where
  version : Nat
  protocol : Protocol
  /-- By resource name. -/
  entries : List Entry
  deriving DecidableEq, Repr

namespace Snapshot

def empty (protocol : Protocol) : Snapshot := ⟨0, protocol, []⟩

def size (s : Snapshot) : Nat := s.entries.length

/-- The resources of a kind, by resource name. -/
def resources (s : Snapshot) (kind : Kind) : List Entry :=
  s.entries.filter fun e => e.kind = kind

/-- The resources of a kind that have one of these names; no names select all. -/
def select (s : Snapshot) (kind : Kind) (names : List String) : List Entry :=
  (s.resources kind).filter fun e => names.isEmpty || names.contains e.envoyName

end Snapshot

end ControlPlane
