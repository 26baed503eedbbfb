import ControlPlane.Object.Condition
import ControlPlane.Object.Key

/-!
# Configuration objects

An object carries a payload of its kind together with what the store records about it: an identity,
a version token, the generation of its payload, the time it was created, and its status.
-/

namespace ControlPlane

open Time (Timestamp)

structure Metadata where
  /-- The namespace. -/
  space : String
  name : String
  /-- The identity that the store gave the object. -/
  uid : String
  /-- The token of the object's state in the store. -/
  resourceVersion : String
  /-- Counts the changes of the payload. -/
  generation : Int
  creationTimestamp : Option Timestamp
  deriving DecidableEq, Repr

structure Object where
  apiVersion : String
  kind : Kind
  metadata : Metadata
  spec : Payload
  status : Status
  deriving DecidableEq, Repr

namespace Object

/-- The API version written into every manifest. -/
def currentApiVersion : String := "envoy.projectcontour.io/v1alpha1"

/-- An object as a client declares it, with nothing recorded yet. -/
def declare (kind : Kind) (space name : String) (spec : Payload) : Object where
  apiVersion := currentApiVersion
  kind := kind
  metadata := ⟨space, name, "", "", 0, none⟩
  spec := spec
  status := .empty

def key (o : Object) : ObjectKey := ⟨o.kind, o.metadata.space, o.metadata.name⟩

/-- The version of the resource made from the object in this state. -/
def resourceVersion (o : Object) : ResourceVersion :=
  ⟨o.metadata.uid, o.metadata.resourceVersion⟩

end Object

end ControlPlane
