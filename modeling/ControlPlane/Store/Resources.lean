import ControlPlane.Catalog
import ControlPlane.Store.Snapshot

/-!
# The resource store

The accepted resources by name, and a publication of snapshots for each protocol version. A change
takes the next version and is published at once to those who listen; where nobody listens the
publication is only marked stale, and is rebuilt when it is next asked for.
-/

namespace ControlPlane

structure StoredResource where
  version : ResourceVersion
  resource : Resource
  deriving DecidableEq, Repr

/-- What became of a write. -/
inductive WriteOutcome where
  /-- Inserted or replaced, and published. -/
  | stored
  /-- The same resource as before; only its version was taken over. -/
  | unchanged
  /-- An older version of the stored object; ignored. -/
  | stale
  deriving DecidableEq, Repr

/-- The snapshots of one protocol version as they are sent out. -/
structure Publication where
  current : Snapshot
  /-- Whether a change was committed while nobody listened. -/
  isStale : Bool
  /-- How many listen. -/
  receivers : Nat
  /-- How many snapshots were sent. -/
  sent : Nat
  deriving DecidableEq, Repr

def Publication.initial (protocol : Protocol) : Publication := ⟨.empty protocol, false, 0, 0⟩

/-- A listener's place in a publication: how many sent snapshots it knows of. -/
structure Receiver where
  protocol : Protocol
  seen : Nat
  deriving DecidableEq, Repr

structure ResourceStore where
  resources : Catalog ResourceName StoredResource
  /-- Counts the committed changes. -/
  version : Nat
  publication2 : Publication
  publication3 : Publication

namespace ResourceStore

def empty : ResourceStore := ⟨∅, 0, .initial .v2, .initial .v3⟩

instance : Inhabited ResourceStore := ⟨empty⟩

def publication (s : ResourceStore) : Protocol → Publication
  | .v2 => s.publication2
  | .v3 => s.publication3

def setPublication (s : ResourceStore) (protocol : Protocol) (p : Publication) : ResourceStore :=
  match protocol with
  | .v2 => { s with publication2 := p }
  | .v3 => { s with publication3 := p }

/-- A stored resource as it is served. -/
def entryOf (name : ResourceName) (stored : StoredResource) : Entry where
  kind := stored.resource.kind
  name := name
  envoyName := stored.resource.envoyName
  version := stored.version
  body := stored.resource.payload

/-- The snapshot of what is stored now. -/
def build (s : ResourceStore) (protocol : Protocol) : Snapshot where
  version := s.version
  protocol := protocol
  entries := (s.resources.entries.filter fun e => e.2.resource.protocol = protocol).map
    fun e => entryOf e.1 e.2

/-- Sends out the snapshot of what is stored now. -/
def refresh (s : ResourceStore) (protocol : Protocol) : ResourceStore :=
  let p := s.publication protocol
  s.setPublication protocol
    { p with current := s.build protocol, isStale := false, sent := p.sent + 1 }

/-- Tells one publication that the store has changed. -/
def announce (s : ResourceStore) (protocol : Protocol) : ResourceStore :=
  let p := s.publication protocol
  if p.receivers = 0 then s.setPublication protocol { p with isStale := true }
  else s.refresh protocol

/-- Commits a change that was made: takes the next version and tells both publications. -/
def publish (s : ResourceStore) : ResourceStore :=
  let s := { s with version := s.version + 1 }
  (s.announce .v2).announce .v3

/-- What a write would come to. -/
def outcome (s : ResourceStore) (name : ResourceName) (version : ResourceVersion)
    (resource : Resource) : WriteOutcome :=
  match s.resources.get? name with
  | none => .stored
  | some existing =>
    if version.isOlderThan existing.version then .stale
    else if existing.resource = resource then .unchanged
    else .stored

/-- The first half of a write: the change of the stored resource. -/
def put (s : ResourceStore) (name : ResourceName) (version : ResourceVersion)
    (resource : Resource) : ResourceStore :=
  { s with resources := s.resources.insert name ⟨version, resource⟩ }

/-- Inserts or replaces a resource. -/
def update (s : ResourceStore) (name : ResourceName) (version : ResourceVersion)
    (resource : Resource) : ResourceStore × WriteOutcome :=
  match s.outcome name version resource with
  | .stored => ((s.put name version resource).publish, .stored)
  | .unchanged => (s.put name version resource, .unchanged)
  | .stale => (s, .stale)

/-- The first half of a removal: the change of the stored resources. -/
def drop (s : ResourceStore) (name : ResourceName) : ResourceStore :=
  { s with resources := s.resources.erase name }

/-- Removes a resource and says whether it was there. -/
def delete (s : ResourceStore) (name : ResourceName) : ResourceStore × Bool :=
  if s.resources.contains name then ((s.drop name).publish, true) else (s, false)

/-- The names of the stored resources of a kind, in order. -/
def names (s : ResourceStore) (kind : Kind) : List ResourceName :=
  (s.resources.entries.filter fun e => e.2.resource.kind = kind).map (·.1)

/-- Rebuilds a publication that fell behind. -/
def freshen (s : ResourceStore) (protocol : Protocol) : ResourceStore :=
  if (s.publication protocol).isStale then s.refresh protocol else s

/-- The current snapshot. -/
def snapshot (s : ResourceStore) (protocol : Protocol) : ResourceStore × Snapshot :=
  let s := s.freshen protocol
  (s, (s.publication protocol).current)

/-- Starts to listen; the snapshot that the receiver can see is current. -/
def subscribe (s : ResourceStore) (protocol : Protocol) : ResourceStore × Receiver :=
  let p := s.publication protocol
  let s := s.setPublication protocol { p with receivers := p.receivers + 1 }
  (s.freshen protocol, ⟨protocol, p.sent⟩)

/-- Stops listening. -/
def unsubscribe (s : ResourceStore) (r : Receiver) : ResourceStore :=
  let p := s.publication r.protocol
  s.setPublication r.protocol { p with receivers := p.receivers - 1 }

/-- The snapshot that a receiver sees. -/
def view (s : ResourceStore) (r : Receiver) : Snapshot := (s.publication r.protocol).current

/-- Whether a snapshot was sent that the receiver has not taken note of. -/
def hasNews (s : ResourceStore) (r : Receiver) : Bool :=
  r.seen != (s.publication r.protocol).sent

/-- The receiver after it has taken note of what was sent. -/
def acknowledge (s : ResourceStore) (r : Receiver) : Receiver :=
  { r with seen := (s.publication r.protocol).sent }

end ResourceStore

end ControlPlane
