import ControlPlane.Manifest.Read
import ControlPlane.Manifest.Write
import ControlPlane.Data.Document
import ControlPlane.Store.Fault
import ControlPlane.Yaml.Node
import ControlPlane.Yaml.Render

/-!
# Manifests

A manifest is a text with one object in each of its documents; documents without content are passed
over. Objects are written in one of two formats, and both can be read, since JSON is YAML.
-/

namespace ControlPlane.Manifest

/-- Formats that objects are written in. -/
inductive Format where
  | yaml
  | json
  deriving DecidableEq, Repr

def render (format : Format) (o : Object) : String :=
  match format with
  | .yaml => Yaml.render (objectDocument o)
  | .json => Json.render (objectDocument o)

/-- The object of a document, if it has any content. -/
def ofSource (source : Yaml.Source) : Except PlaneError (Option Object) := do
  let datum ← source.datum.mapError fun e => .serialization e.message
  if datum.isNull then return none
  some <$> (object .yaml datum).mapError fun e => .serialization e.message

def ofText (text : String) : Except PlaneError (List Object) := do
  return (← (Yaml.Source.ofText text).mapM ofSource).filterMap id

/-- The objects of a file with this content. -/
def ofBytes (content : Bytes) : Except PlaneError (List Object) :=
  match content.toText? with
  | none => .error (.inputOutput "stream did not contain valid UTF-8")
  | some text => ofText text

end ControlPlane.Manifest
