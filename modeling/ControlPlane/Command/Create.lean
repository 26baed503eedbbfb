import ControlPlane.Manifest.Load

/-!
# Creating objects

An encoded message becomes an object in manifest form. It is judged as the reconciler would judge
it, so no manifest is written for a payload that would be rejected. A command that fails says why and
ends the process with a code for the sort of failure.
-/

namespace ControlPlane.Command

open Time (Timestamp)

/-- Sorts of failure. -/
inductive ExitCause where
  | failure
  | usage
  | dataError
  | configuration
  deriving DecidableEq, Repr

def ExitCause.code : ExitCause → Nat
  | failure => 1
  | usage => 64
  | dataError => 65
  | configuration => 78

structure ExitError where
  cause : ExitCause
  message : String
  deriving DecidableEq, Repr

def ExitError.ofPlane (cause : ExitCause) (e : PlaneError) : ExitError := ⟨cause, e.message⟩

/-- The object for a message. The key is checked before the message is looked at. -/
def buildObject [NewerMessages] (key : ObjectKey) (protocol : Protocol) (message : Bytes)
    (now : Timestamp) : Except ExitError Object := do
  if !key.isValid then throw ⟨.usage, key.invalidText⟩
  let payload : Payload := ⟨(MessageType.mk protocol key.kind).url, message⟩
  match validate key.kind payload with
  | .error e => throw ⟨.dataError, e.message⟩
  | .ok _ =>
    let o := Object.declare key.kind key.space key.name payload
    return { o with metadata := { o.metadata with creationTimestamp := some now } }

/-- The text of an object; JSON ends with a line break of its own. -/
def renderObject (format : Manifest.Format) (o : Object) : String :=
  match format with
  | .yaml => Manifest.render .yaml o
  | .json => Manifest.render .json o ++ "\n"

end ControlPlane.Command
