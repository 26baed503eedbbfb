import ControlPlane.Data.Decode
import ControlPlane.Object.Basic
import ControlPlane.Text.Base64
import ControlPlane.Time.Rfc3339

/-!
# Objects from data

The decoders of objects in manifest form. What a client must say of an object is its API version,
kind, namespace, name and payload; the rest may be left out, and then is empty, zero or absent.
-/

namespace ControlPlane.Manifest

open Decode
open Time (Timestamp)

def timestamp : Decoder Timestamp := fun dialect datum => do
  let text ← text "an RFC 3339 formatted date and time string" dialect datum
  (Time.Rfc3339.parse text).mapError fun e => .malformed e.message

def base64 : Decoder Bytes := fun dialect datum => do
  let text ← string dialect datum
  (Text.Base64.decode text).mapError fun e => .malformed e.message

def kind : Decoder Kind := variant (Kind.all.map fun k => (k.name, k))

def conditionStatus : Decoder ConditionStatus :=
  variant (ConditionStatus.all.map fun s => (s.name, s))

/-- What has been read of a record of metadata. -/
structure MetadataDraft where
  space : Option String
  name : Option String
  uid : String
  resourceVersion : String
  generation : Int
  creationTimestamp : Option Timestamp

def metadataLayout : Layout MetadataDraft Metadata where
  name := "ObjectMeta"
  fields :=
    [field "namespace" string fun v d => { d with space := some v },
      field "name" string fun v d => { d with name := some v },
      field "uid" string fun v d => { d with uid := v },
      field "resourceVersion" string fun v d => { d with resourceVersion := v },
      field "generation" int64 fun v d => { d with generation := v },
      field "creationTimestamp" (optional timestamp) fun v d =>
        { d with creationTimestamp := v }]
  draft := ⟨none, none, "", "", 0, none⟩
  complete d := do
    return ⟨← need "namespace" d.space, ← need "name" d.name, d.uid, d.resourceVersion,
      d.generation, d.creationTimestamp⟩

def metadata : Decoder Metadata := metadataLayout.decode

structure PayloadDraft where
  typeUrl : Option String
  value : Option Bytes

def payloadLayout : Layout PayloadDraft Payload where
  name := "Payload"
  fields :=
    [field "type" string fun v d => { d with typeUrl := some v },
      field "value" base64 fun v d => { d with value := some v }]
  draft := ⟨none, none⟩
  complete d := do return ⟨← need "type" d.typeUrl, ← need "value" d.value⟩

def payload : Decoder Payload := payloadLayout.decode

structure ConditionDraft where
  type : Option String
  status : Option ConditionStatus
  observedGeneration : Int
  lastTransitionTime : Option Timestamp
  reason : String
  message : String

def conditionLayout : Layout ConditionDraft Condition where
  name := "Condition"
  fields :=
    [field "type" string fun v d => { d with type := some v },
      field "status" conditionStatus fun v d => { d with status := some v },
      field "observedGeneration" int64 fun v d => { d with observedGeneration := v },
      field "lastTransitionTime" timestamp fun v d => { d with lastTransitionTime := some v },
      field "reason" string fun v d => { d with reason := v },
      field "message" string fun v d => { d with message := v }]
  draft := ⟨none, none, 0, none, "", ""⟩
  complete d := do
    return ⟨← need "type" d.type, ← need "status" d.status, d.observedGeneration,
      ← need "lastTransitionTime" d.lastTransitionTime, d.reason, d.message⟩

def condition : Decoder Condition := conditionLayout.decode

def statusLayout : Layout Status Status where
  name := "ConfigStatus"
  fields := [field "conditions" (list condition) fun v _ => ⟨v⟩]
  draft := .empty
  complete d := .ok d

def status : Decoder Status := statusLayout.decode

structure ObjectDraft where
  apiVersion : Option String
  kind : Option Kind
  metadata : Option Metadata
  spec : Option Payload
  status : Status

def objectLayout : Layout ObjectDraft Object where
  name := "ConfigObject"
  fields :=
    [field "apiVersion" string fun v d => { d with apiVersion := some v },
      field "kind" kind fun v d => { d with kind := some v },
      field "metadata" metadata fun v d => { d with metadata := some v },
      field "spec" payload fun v d => { d with spec := some v },
      field "status" status fun v d => { d with status := v }]
  draft := ⟨none, none, none, none, .empty⟩
  complete d := do
    return ⟨← need "apiVersion" d.apiVersion, ← need "kind" d.kind,
      ← need "metadata" d.metadata, ← need "spec" d.spec, d.status⟩

def object : Decoder Object := objectLayout.decode

end ControlPlane.Manifest
