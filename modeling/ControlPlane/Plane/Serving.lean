import ControlPlane.Plane.Basic

/-!
# Serving proxies

Streams are opened under the name of a proxy, take what the proxy sends, and put out what it is to
receive. A name stands for the stream that was opened under it last.
-/

namespace ControlPlane.Plane

open Discovery (Input Method Output Scope Stream)

/-- Gives up a stream: nobody will hear from it, and it stops listening. -/
def abandon (p : Plane) (name : String) : Plane :=
  match p.streams.get? name with
  | none => p
  | some s =>
    { p with
      streams := p.streams.erase name
      resources := if s.isOpen then p.resources.unsubscribe s.receiver else p.resources }

/-- Opens a stream in place of any other under the name. -/
def openStream (p : Plane) (name : String) (method : Method) (protocol : Protocol) (scope : Scope) :
    Plane :=
  let p := p.abandon name
  let (stream, resources) := Stream.start method protocol scope (p.opened + 1) p.resources
  { p with
    streams := p.streams.insert name stream
    opened := p.opened + 1
    resources := resources }

/-- Hands a stream what comes in from its proxy. -/
def receive (p : Plane) (name : String) (input : Input) : Plane :=
  { p with streams := p.streams.modify name fun s => { s with inbox := s.inbox ++ [input] } }

/-- The proxy stops taking responses. -/
def hangUp (p : Plane) (name : String) : Plane :=
  { p with streams := p.streams.modify name fun s => { s with isHeard := false, outbox := [] } }

/-- Streams are not served any more. -/
def closeStreams (p : Plane) : Plane := { p with isClosing := true }

/-- Ends a stream because streams are not served any more. -/
def endStream (s : Stream) (resources : ResourceStore) : Stream × ResourceStore :=
  (s.close, if s.isOpen then resources.unsubscribe s.receiver else resources)

/-- Whether a stream has something to do. -/
def isReady (p : Plane) (s : Stream) : Bool := s.isOpen && (p.isClosing || s.isReady p.resources)

/-- Lets one stream take up what there is for it. -/
def advanceStream (p : Plane) (name : String) : Plane :=
  match p.streams.get? name with
  | none => p
  | some s =>
    if !p.isReady s then p
    else
      let (s, resources) :=
        if p.isClosing then endStream s p.resources else s.advance p.resources
      { p with streams := p.streams.insert name s, resources := resources }

/-- Whether some stream has something to do. -/
def hasReadyStream (p : Plane) : Bool := p.streams.values.any p.isReady

/-- Lets every stream take up what there is for it. -/
def serveRound (p : Plane) : Plane := p.streams.keys.foldl advanceStream p

/-- Hands over what the streams have put out, by name. -/
def collect (p : Plane) : Plane × List (String × List Output) :=
  ({ p with streams := p.streams.mapWithKey fun _ s => { s with outbox := [] } },
    (p.streams.entries.map fun (name, s) => (name, s.outbox)).filter (!·.2.isEmpty))

end ControlPlane.Plane
