import ControlPlane.Kind

/-!
# Message types

Each kind is carried by one message type per protocol version. A type is written either bare or as
a type URL; both spellings name the same message, and no two rows of the table share a name.
-/

namespace ControlPlane

/-- The message type that carries one kind under one protocol version. -/
structure MessageType where
  protocol : Protocol
  kind : Kind
  deriving DecidableEq, Repr

namespace MessageType

def name : MessageType → String
  | ⟨.v2, .cluster⟩ => "envoy.api.v2.Cluster"
  | ⟨.v2, .clusterLoadAssignment⟩ => "envoy.api.v2.ClusterLoadAssignment"
  | ⟨.v2, .listener⟩ => "envoy.api.v2.Listener"
  | ⟨.v2, .routeConfiguration⟩ => "envoy.api.v2.RouteConfiguration"
  | ⟨.v2, .runtime⟩ => "envoy.service.discovery.v2.Runtime"
  | ⟨.v2, .scopedRouteConfiguration⟩ => "envoy.api.v2.ScopedRouteConfiguration"
  | ⟨.v2, .secret⟩ => "envoy.api.v2.auth.Secret"
  | ⟨.v2, .virtualHost⟩ => "envoy.api.v2.route.VirtualHost"
  | ⟨.v3, .cluster⟩ => "envoy.config.cluster.v3.Cluster"
  | ⟨.v3, .clusterLoadAssignment⟩ => "envoy.config.endpoint.v3.ClusterLoadAssignment"
  | ⟨.v3, .listener⟩ => "envoy.config.listener.v3.Listener"
  | ⟨.v3, .routeConfiguration⟩ => "envoy.config.route.v3.RouteConfiguration"
  | ⟨.v3, .runtime⟩ => "envoy.service.runtime.v3.Runtime"
  | ⟨.v3, .scopedRouteConfiguration⟩ => "envoy.config.route.v3.ScopedRouteConfiguration"
  | ⟨.v3, .secret⟩ => "envoy.extensions.transport_sockets.tls.v3.Secret"
  | ⟨.v3, .virtualHost⟩ => "envoy.config.route.v3.VirtualHost"

/-- The message types of one protocol version, by kind. -/
def ofProtocol (protocol : Protocol) : List MessageType :=
  Kind.all.map fun kind => ⟨protocol, kind⟩

def all : List MessageType := Protocol.all.flatMap ofProtocol

theorem mem_all (t : MessageType) : t ∈ all := by
  obtain ⟨p, k⟩ := t
  cases p <;> cases k <;> decide

/-- What every type URL starts with. -/
def urlBase : String := "type.googleapis.com/"

def url (t : MessageType) : String := urlBase ++ t.name

/-- Drops `start` from the front of `text`, if it is there. -/
def dropStart (start text : List Char) : List Char :=
  if start.isPrefixOf text then text.drop start.length else text

/-- The bare message name that a type URL or a bare name denotes. -/
def bareName (text : String) : String :=
  String.ofList (dropStart urlBase.toList text.toList)

/-- The message type that a type URL or a bare name denotes. -/
def parse? (text : String) : Option MessageType :=
  all.find? fun t => t.name == bareName text

end MessageType

end ControlPlane
