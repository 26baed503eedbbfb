import ControlPlane.Catalog
import ControlPlane.Object.Basic
import ControlPlane.Store.Fault

/-!
# The object store

Objects by key, under optimistic concurrency: every write that changes an object takes the next
revision as the object's version token, and a write that names another token than the stored one
is refused. An operation either fails, and then there is no new store, or answers with an object
and the store after it. Each change is appended to the history, which watchers read at their own
pace.
-/

namespace ControlPlane

open Time (Timestamp)

/-- How an object changed. -/
inductive Change where
  | added
  | modified
  | deleted
  deriving DecidableEq, Repr

structure Event where
  change : Change
  key : ObjectKey
  deriving DecidableEq, Repr

/-- What a new object is given from outside the store. -/
structure Stamp where
  uid : String
  time : Timestamp
  deriving DecidableEq, Repr

structure ObjectStore where
  objects : Catalog ObjectKey Object
  /-- The last revision given out. -/
  revision : Nat
  history : Array Event

namespace ObjectStore

def empty : ObjectStore := ⟨∅, 0, #[]⟩

instance : Inhabited ObjectStore := ⟨empty⟩

def size (s : ObjectStore) : Nat := s.objects.size

def get (s : ObjectStore) (key : ObjectKey) : Except StoreError Object :=
  match s.objects.get? key with
  | none => .error (.notFound key.display)
  | some o => .ok o

/-- The objects of a kind, by key. -/
def list (s : ObjectStore) (kind : Kind) : List Object :=
  s.objects.values.filter fun o => o.kind = kind

/-- The token of the next revision. -/
def nextVersion (s : ObjectStore) : String := toString (s.revision + 1)

/-- Puts an object that carries the next revision, and tells of the change. -/
def commit (s : ObjectStore) (change : Change) (o : Object) : ObjectStore where
  objects := s.objects.insert o.key o
  revision := s.revision + 1
  history := s.history.push ⟨change, o.key⟩

/-- What a new object is stored as: all that the caller says of its record is dropped. -/
def admitted (s : ObjectStore) (stamp : Stamp) (o : Object) : Object :=
  { o with
    metadata := ⟨o.metadata.space, o.metadata.name, stamp.uid, s.nextVersion, 1, some stamp.time⟩
    status := .empty }

def create (s : ObjectStore) (stamp : Stamp) (o : Object) :
    Except StoreError (Object × ObjectStore) :=
  if !o.key.isValid then .error (.invalid o.key.invalidText)
  else if s.objects.contains o.key then .error (.alreadyExists o.key.display)
  else
    let created := s.admitted stamp o
    .ok (created, s.commit .added created)

/-- The stored object that a write is about: it must exist, and be in the state whose token the
caller holds, if the caller holds one. -/
def current (s : ObjectStore) (incoming : Object) : Except StoreError Object :=
  match s.objects.get? incoming.key with
  | none => .error (.notFound incoming.key.display)
  | some stored =>
    if incoming.metadata.resourceVersion ≠ ""
        ∧ incoming.metadata.resourceVersion ≠ stored.metadata.resourceVersion then
      .error (.conflict stored.key.display)
    else .ok stored

/-- Replaces the payload; an equal one changes nothing. -/
def update (s : ObjectStore) (incoming : Object) : Except StoreError (Object × ObjectStore) := do
  let stored ← s.current incoming
  if stored.spec = incoming.spec then return (stored, s)
  let updated : Object :=
    { stored with
      spec := incoming.spec
      metadata :=
        { stored.metadata with
          generation := stored.metadata.generation + 1
          resourceVersion := s.nextVersion } }
  return (updated, s.commit .modified updated)

/-- Replaces the status only; an equal one changes nothing. -/
def updateStatus (s : ObjectStore) (incoming : Object) :
    Except StoreError (Object × ObjectStore) := do
  let stored ← s.current incoming
  if stored.status = incoming.status then return (stored, s)
  let updated : Object :=
    { stored with
      status := incoming.status
      metadata := { stored.metadata with resourceVersion := s.nextVersion } }
  return (updated, s.commit .modified updated)

def delete (s : ObjectStore) (key : ObjectKey) : Except StoreError ObjectStore :=
  if s.objects.contains key then
    .ok { s with objects := s.objects.erase key, history := s.history.push ⟨.deleted, key⟩ }
  else .error (.notFound key.display)

/-- Creates the object, or replaces the payload of one that exists, whatever its state. -/
def apply (s : ObjectStore) (stamp : Stamp) (o : Object) :
    Except StoreError (Object × ObjectStore) :=
  match s.create stamp o with
  | .error (.alreadyExists _) =>
    s.update { o with metadata := { o.metadata with resourceVersion := "" } }
  | result => result

end ObjectStore

/-- A watcher's place in the history: how many events it has seen or lost. -/
structure Watch where
  position : Nat
  deriving DecidableEq, Repr

namespace Watch

/-- Events kept for a watcher that falls behind. -/
def capacity : Nat := 1024

/-- Starts after all that has happened. -/
def start (s : ObjectStore) : Watch := ⟨s.history.size⟩

/-- The number of events that a watcher has lost, which is zero unless more than `capacity` are
unread. -/
def lost (w : Watch) (s : ObjectStore) : Nat := s.history.size - w.position - capacity

/-- The events that a watcher can still read, oldest first. -/
def pending (w : Watch) (s : ObjectStore) : List Event :=
  s.history.toList.drop (w.position + w.lost s)

end Watch

end ControlPlane
