import ControlPlane.Data.Document
import ControlPlane.Object.Basic
import ControlPlane.Text.Base64
import ControlPlane.Time.Rfc3339

/-!
# Objects as documents

The manifest form of an object. What the store has not recorded yet is left out; the status is
always written.
-/

namespace ControlPlane.Manifest

open Time (Timestamp)

/-- A field that is left out when its text is empty. -/
def textUnlessEmpty (name value : String) : List (String × Document) :=
  if value = "" then [] else [(name, .text value)]

def timestampDocument (t : Timestamp) : Document := .text (Time.Rfc3339.render t)

def metadataDocument (m : Metadata) : Document :=
  .record <|
    [("namespace", .text m.space), ("name", .text m.name)]
      ++ textUnlessEmpty "uid" m.uid
      ++ textUnlessEmpty "resourceVersion" m.resourceVersion
      ++ (if m.generation = 0 then [] else [("generation", .int m.generation)])
      ++ (m.creationTimestamp.map fun t => ("creationTimestamp", timestampDocument t)).toList

def payloadDocument (p : Payload) : Document :=
  .record [("type", .text p.typeUrl), ("value", .text (Text.Base64.encode p.value))]

def conditionDocument (c : Condition) : Document :=
  .record
    [("type", .text c.type), ("status", .text c.status.name),
      ("observedGeneration", .int c.observedGeneration),
      ("lastTransitionTime", timestampDocument c.lastTransitionTime),
      ("reason", .text c.reason), ("message", .text c.message)]

def statusDocument (s : Status) : Document :=
  .record [("conditions", .list (s.conditions.map conditionDocument))]

def objectDocument (o : Object) : Document :=
  .record
    [("apiVersion", .text o.apiVersion), ("kind", .text o.kind.name),
      ("metadata", metadataDocument o.metadata), ("spec", payloadDocument o.spec),
      ("status", statusDocument o.status)]

end ControlPlane.Manifest
