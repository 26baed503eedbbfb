import ControlPlane.Catalog
import ControlPlane.Digest.Sha256
import ControlPlane.Store.Snapshot

/-!
# Incremental sessions

Each response carries the resources that differ from what the proxy holds and the names of those
that are gone. What the proxy holds is known by the digest of each body, so a proxy that comes
back and says what it has is not sent it again.
-/

namespace ControlPlane.Discovery.Incremental

/-- The version of a body: the digest of its type URL and its bytes. -/
def bodyVersion (body : Payload) : String :=
  Digest.Sha256.hexDigest (Bytes.ofText body.typeUrl ++ body.value)

structure Request where
  typeUrl : String
  subscribe : List String
  unsubscribe : List String
  /-- What the proxy says it holds, by name. -/
  initial : Catalog String String
  nonce : String
  /-- Whether the request carries an error about a response. -/
  isRejection : Bool

structure Item where
  name : String
  version : String
  body : Payload
  deriving DecidableEq, Repr

structure Response where
  version : Nat
  typeUrl : String
  nonce : String
  resources : List Item
  removed : List String
  deriving DecidableEq, Repr

/-- The name that stands for all resources. -/
def wildcard : String := "*"

/-- What a session knows of one type. -/
structure Subscription where
  kind : Kind
  /-- Whether all resources are wanted. -/
  isWildcard : Bool
  /-- The names that are wanted besides. -/
  names : List String
  /-- What the proxy holds: a version by name. -/
  sent : Catalog String String

namespace Subscription

/-- The state before the first request is taken up. -/
def new (kind : Kind) (request : Request) : Subscription :=
  ⟨kind, request.subscribe.isEmpty, [], request.initial⟩

def wants (s : Subscription) (name : String) : Bool := s.isWildcard || s.names.contains name

def addInterest (s : Subscription) (name : String) : Subscription :=
  if name = wildcard then { s with isWildcard := true }
  else { s with names := name :: s.names.filter (· ≠ name) }

/-- A name that is no longer wanted is taken as no longer held. -/
def dropInterest (s : Subscription) (name : String) : Subscription :=
  if name = wildcard then { s with isWildcard := false }
  else { s with names := s.names.filter (· ≠ name), sent := s.sent.erase name }

/-- The wanted resources of a snapshot, in order. -/
def wanted (s : Subscription) (snapshot : Snapshot) : List Entry :=
  (snapshot.resources s.kind).filter fun e => s.wants e.envoyName

/-- Sends one resource unless the proxy holds it. -/
def offer (state : Catalog String String × List Item) (e : Entry) :
    Catalog String String × List Item :=
  let version := bodyVersion e.body
  if state.1.get? e.envoyName = some version then state
  else (state.1.insert e.envoyName version, state.2 ++ [⟨e.envoyName, version, e.body⟩])

/-- What brings the proxy up to the snapshot: resources to take up and names to drop. -/
def diff (s : Subscription) (snapshot : Snapshot) : Subscription × List Item × List String :=
  let wanted := s.wanted snapshot
  let (sent, items) := wanted.foldl offer (s.sent, [])
  let isGone (name : String) : Bool := !wanted.any fun e => e.envoyName == name
  ({ s with sent := sent.filter fun name _ => !isGone name }, items, sent.keys.filter isGone)

/-- The response that brings the proxy up to the snapshot; `always` asks for one even if there is
nothing to say. -/
def respond (s : Subscription) (typeUrl : String) (snapshot : Snapshot) (nonce : String)
    (always : Bool) : Subscription × Option Response :=
  let (s, items, removed) := s.diff snapshot
  if items.isEmpty && removed.isEmpty && !always then (s, none)
  else (s, some ⟨snapshot.version, typeUrl, nonce, items, removed⟩)

/-- Takes up the names of a request. -/
def applyInterest (s : Subscription) (request : Request) : Subscription :=
  request.unsubscribe.foldl dropInterest (request.subscribe.foldl addInterest s)

end Subscription

/-- The subscriptions of one stream, by type URL as requested. -/
structure Session where
  subscriptions : Catalog String Subscription

namespace Session

def new : Session := ⟨∅⟩

/-- Takes up a request for a type of this kind. The first one is always answered; a later one only
if it names resources and there is something to say. A rejection is passed over. -/
def onRequest (s : Session) (kind : Kind) (request : Request) (snapshot : Snapshot)
    (nonce : String) : Session × Option Response :=
  if request.isRejection then (s, none)
  else
    let known := s.subscriptions.get? request.typeUrl
    let subscription := (known.getD (.new kind request)).applyInterest request
    let (subscription, response) :=
      if known.isSome && request.subscribe.isEmpty && request.unsubscribe.isEmpty then
        (subscription, none)
      else subscription.respond request.typeUrl snapshot nonce known.isNone
    (⟨s.subscriptions.insert request.typeUrl subscription⟩, response)

/-- Takes up a snapshot. Each type has a nonce at hand for its response. -/
def onSnapshot (s : Session) (snapshot : Snapshot) (nonce : String → String) :
    Session × List Response :=
  let updates := s.subscriptions.mapWithKey fun typeUrl subscription =>
    subscription.respond typeUrl snapshot (nonce typeUrl) false
  (⟨updates.mapWithKey fun _ u => u.1⟩, updates.values.filterMap (·.2))

end Session

end ControlPlane.Discovery.Incremental
