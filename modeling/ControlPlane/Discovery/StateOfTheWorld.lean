import ControlPlane.Catalog
import ControlPlane.Store.Snapshot

/-!
# State-of-the-world sessions

Each response carries all selected resources of a type. A request with an empty nonce is always
answered. One that names the last response accepts it, or rejects it with an error: a rejection is
never answered, an acceptance only if other names are asked for or the selection has changed since.
A request that names any other response is passed over. A new snapshot is answered for each type
whose selection it changes.
-/

namespace ControlPlane.Discovery

structure Request where
  typeUrl : String
  names : List String
  nonce : String
  /-- Whether the request carries an error about the response it names. -/
  isRejection : Bool
  deriving DecidableEq, Repr

structure Response where
  version : Nat
  typeUrl : String
  nonce : String
  resources : List Payload
  deriving DecidableEq, Repr

namespace Response

/-- The identifier that the control plane gives itself. -/
def controlPlane : String := "envoy-controller"

/-- The response to a request for these names. -/
def build (snapshot : Snapshot) (kind : Kind) (typeUrl : String) (names : List String)
    (nonce : String) : Response :=
  ⟨snapshot.version, typeUrl, nonce, (snapshot.select kind names).map (·.body)⟩

end Response

/-- What a session knows of one type. -/
structure Subscription where
  kind : Kind
  /-- The names asked for; none asks for all. -/
  names : List String
  /-- The nonce of the last response. -/
  lastNonce : Option String
  /-- The resources of the last response. -/
  sent : List Payload
  deriving DecidableEq, Repr

namespace Subscription

def new (kind : Kind) : Subscription := ⟨kind, [], none, []⟩

/-- Whether the last response still carries what is selected. -/
def isCurrent (s : Subscription) (snapshot : Snapshot) : Bool :=
  (snapshot.select s.kind s.names).map (·.body) = s.sent

def respond (s : Subscription) (typeUrl : String) (snapshot : Snapshot) (nonce : String) :
    Subscription × Response :=
  let response := Response.build snapshot s.kind typeUrl s.names nonce
  ({ s with lastNonce := some nonce, sent := response.resources }, response)

/-- Whether a request is to be answered. -/
def answers (s : Subscription) (request : Request) (snapshot : Snapshot) : Bool :=
  if request.nonce = "" then true
  else if s.lastNonce ≠ some request.nonce then false
  else if request.isRejection then false
  else s.names ≠ request.names || !s.isCurrent snapshot

def onRequest (s : Subscription) (request : Request) (snapshot : Snapshot) (nonce : String) :
    Subscription × Option Response :=
  if s.answers request snapshot then
    let (s, response) :=
      { s with names := request.names }.respond request.typeUrl snapshot nonce
    (s, some response)
  else (s, none)

def onSnapshot (s : Subscription) (typeUrl : String) (snapshot : Snapshot) (nonce : String) :
    Subscription × Option Response :=
  if s.lastNonce.isNone || s.isCurrent snapshot then (s, none)
  else
    let (s, response) := s.respond typeUrl snapshot nonce
    (s, some response)

end Subscription

/-- The subscriptions of one stream, by type URL as requested. -/
structure Session where
  subscriptions : Catalog String Subscription

namespace Session

def new : Session := ⟨∅⟩

/-- Takes up a request for a type of this kind. The nonce is for the response, if there is one. -/
def onRequest (s : Session) (kind : Kind) (request : Request) (snapshot : Snapshot)
    (nonce : String) : Session × Option Response :=
  let subscription := (s.subscriptions.get? request.typeUrl).getD (.new kind)
  let (subscription, response) := subscription.onRequest request snapshot nonce
  (⟨s.subscriptions.insert request.typeUrl subscription⟩, response)

/-- Takes up a snapshot. Each type has a nonce at hand for its response. -/
def onSnapshot (s : Session) (snapshot : Snapshot) (nonce : String → String) :
    Session × List Response :=
  let updates := s.subscriptions.mapWithKey fun typeUrl subscription =>
    subscription.onSnapshot typeUrl snapshot (nonce typeUrl)
  (⟨updates.mapWithKey fun _ u => u.1⟩, updates.values.filterMap (·.2))

end Session

end ControlPlane.Discovery
