import ControlPlane.Resource
import ControlPlane.Text.Quoted
import ControlPlane.Validation.Violation

/-!
# Validation of payloads

A payload is accepted as a resource of a kind in three steps, each with its own reason to refuse:
the type must be one that carries the kind, the bytes must decode as that message, and the message
must break no constraint.

The messages of the older protocol version are read by their schemas. How those of the newer one
are read is a parameter of all that validates, `NewerMessages`: their schemas are published apart
from this library, and nothing here depends on more than that bytes are read or refused.
-/

namespace ControlPlane

/-- Why a payload stands accepted or rejected, as its object's condition records it. -/
inductive AcceptanceReason where
  | accepted
  | typeAmbiguity
  | invalidFormat
  | failedValidation
  deriving DecidableEq, Repr

namespace AcceptanceReason

def all : List AcceptanceReason := [accepted, typeAmbiguity, invalidFormat, failedValidation]

def name : AcceptanceReason → String
  | accepted => "Accepted"
  | typeAmbiguity => "TypeAmbiguity"
  | invalidFormat => "InvalidFormat"
  | failedValidation => "FailedValidation"

def ofName? (text : String) : Option AcceptanceReason :=
  all.find? fun r => r.name == text

end AcceptanceReason

namespace Validation

/-- Why a payload is refused. -/
inductive Rejection where
  | typeAmbiguity (typeUrl : String) (kind : Kind)
  | invalidFormat (failure : Wire.Failure)
  | failedValidation (violation : Violation)
  deriving DecidableEq, Repr

namespace Rejection

def reason : Rejection → AcceptanceReason
  | typeAmbiguity _ _ => .typeAmbiguity
  | invalidFormat _ => .invalidFormat
  | failedValidation _ => .failedValidation

def message : Rejection → String
  | typeAmbiguity typeUrl kind =>
    "invalid type " ++ Text.quote typeUrl ++ " for resource kind " ++ Text.quote kind.name
  | invalidFormat failure => "invalid format: " ++ failure.message
  | failedValidation violation => "protobuf validation error: " ++ violation.message

end Rejection

/-- The message type that a payload of a kind is read as. -/
def typeFor (kind : Kind) (typeUrl : String) : Except Rejection MessageType :=
  match (MessageType.parse? typeUrl).filter (·.kind = kind) with
  | none => .error (.typeAmbiguity typeUrl kind)
  | some type => .ok type

/-- A message that breaks no constraint. -/
def check (subject : Subject) : Except Rejection Unit :=
  match Violation.ofSubject subject with
  | [] => .ok ()
  | violation :: _ => .error (.failedValidation violation)

end Validation

/-- How the bytes of the message of the newer protocol version that carries a kind are read. -/
class NewerMessages where
  read : Kind → Bytes → Except Wire.Failure Wire.Record

/-- Reads the fields that are listed, and passes over all others. -/
instance : NewerMessages where
  read kind := Wire.decode (.ofType ⟨.v3, kind⟩)

namespace Validation

/-- The message of a type that bytes are read as. -/
def readMessage [NewerMessages] (type : MessageType) (bytes : Bytes) :
    Except Wire.Failure Wire.Record :=
  match type.protocol with
  | .v2 => Wire.decode (.ofType type) bytes
  | .v3 => NewerMessages.read type.kind bytes

/-- The checked view of a message. -/
def decode [NewerMessages] (type : MessageType) (bytes : Bytes) : Except Rejection Subject :=
  match readMessage type bytes with
  | .error failure => .error (.invalidFormat failure)
  | .ok record => .ok (Subject.ofRecord type.kind record)

end Validation

open Validation in
/-- Accepts a payload as a resource of `kind`, with the type URL in its full form. -/
def validate [NewerMessages] (kind : Kind) (payload : Payload) : Except Rejection Resource := do
  let type ← typeFor kind payload.typeUrl
  let subject ← decode type payload.value
  check subject
  return { kind, protocol := type.protocol, typeUrl := type.url, envoyName := subject.name,
           body := payload.value }

end ControlPlane
