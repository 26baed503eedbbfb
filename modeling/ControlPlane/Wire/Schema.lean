import ControlPlane.MessageType

/-!
# Message schemas

The fields of the messages that carry a kind. A message refers to others by shape, so that the
recursive ones (a structure holds values, a value may hold a structure) are finite data. A field not
listed is unknown and is passed over.

The messages of the older protocol version are listed in full. Those of the newer one are published
apart from this library and have many more fields. Here are the fields that the older version has
too, and of the new ones those of listeners, addresses and scoped routes that lie next to what is
checked. All others are left out: of a cluster everything but its name and its connect timeout, of a
cluster load assignment everything but its name, of a route configuration everything but its name and
its virtual hosts, of a virtual host everything but its name and its domains, of a filter everything
but its name, of a secret what its members hold, and so on. Bytes that break in a field that is left
out are read all the same. So the lists are one way to read the newer messages, and no law of this
library is about that way alone: see `NewerMessages`.
-/

namespace ControlPlane.Wire

/-- The messages that are read; some have more fields in the newer protocol version. -/
inductive Shape where
  | listener (protocol : Protocol)
  | address (protocol : Protocol)
  | socketAddress
  | pipe
  | internalAddress
  | filterChain
  | filter
  | cluster
  | duration
  | clusterLoadAssignment
  | routeConfiguration
  | virtualHost
  | scopedRoute (protocol : Protocol)
  | scopeKey
  | scopeFragment
  | secret
  | empty
  | runtime
  | struct
  | structEntry
  | value
  | listValue
  deriving DecidableEq, Repr

/-- How a field's value is written. -/
inductive FieldType where
  | varint
  | double
  | text
  | message (shape : Shape)
  /-- A map entry: a message whose wire type is not looked at. -/
  | entry (shape : Shape)
  deriving DecidableEq, Repr

/-- A field of a message. The label says where a failure inside it happened; the members of a choice
share one. -/
structure Field where
  number : Nat
  label : Option String
  type : FieldType

namespace Shape

/-- The fields that a message has in the newer protocol version only. -/
def since3 (protocol : Protocol) (fields : List Field) : List Field :=
  match protocol with
  | .v2 => []
  | .v3 => fields

def fields : Shape → List Field
  | listener p =>
    [⟨1, "Listener.name", .text⟩,
      ⟨2, "Listener.address", .message (.address p)⟩,
      ⟨3, "Listener.filter_chains", .message .filterChain⟩]
    ++ since3 p [⟨25, "Listener.default_filter_chain", .message .filterChain⟩]
  | address p =>
    [⟨1, "Address.address", .message .socketAddress⟩,
      ⟨2, "Address.address", .message .pipe⟩]
    ++ since3 p [⟨3, "Address.address", .message .internalAddress⟩]
  | socketAddress =>
    [⟨1, "SocketAddress.protocol", .varint⟩,
      ⟨2, "SocketAddress.address", .text⟩,
      ⟨3, "SocketAddress.port_specifier", .varint⟩,
      ⟨4, "SocketAddress.port_specifier", .text⟩,
      ⟨5, "SocketAddress.resolver_name", .text⟩,
      ⟨6, "SocketAddress.ipv4_compat", .varint⟩]
  | pipe => [⟨1, "Pipe.path", .text⟩, ⟨2, "Pipe.mode", .varint⟩]
  | internalAddress => [⟨1, "EnvoyInternalAddress.address_name_specifier", .text⟩]
  | filterChain =>
    [⟨3, "FilterChain.filters", .message .filter⟩, ⟨7, "FilterChain.name", .text⟩]
  | filter => [⟨1, "Filter.name", .text⟩]
  | cluster => [⟨1, "Cluster.name", .text⟩, ⟨4, "Cluster.connect_timeout", .message .duration⟩]
  | duration => [⟨1, "Duration.seconds", .varint⟩, ⟨2, "Duration.nanos", .varint⟩]
  | clusterLoadAssignment => [⟨1, "ClusterLoadAssignment.cluster_name", .text⟩]
  | routeConfiguration =>
    [⟨1, "RouteConfiguration.name", .text⟩,
      ⟨2, "RouteConfiguration.virtual_hosts", .message .virtualHost⟩]
  | virtualHost => [⟨1, "VirtualHost.name", .text⟩, ⟨2, "VirtualHost.domains", .text⟩]
  | scopedRoute p =>
    [⟨1, "ScopedRouteConfiguration.name", .text⟩,
      ⟨2, "ScopedRouteConfiguration.route_configuration_name", .text⟩,
      ⟨3, "ScopedRouteConfiguration.key", .message .scopeKey⟩]
    ++ since3 p [⟨4, "ScopedRouteConfiguration.on_demand", .varint⟩]
  | scopeKey => [⟨1, "Key.fragments", .message .scopeFragment⟩]
  | scopeFragment => [⟨1, "Fragment.r#type", .text⟩]
  | secret =>
    ⟨1, "Secret.name", .text⟩ :: [2, 3, 4, 5].map fun n => ⟨n, "Secret.r#type", .message .empty⟩
  | empty => []
  | runtime => [⟨1, "Runtime.name", .text⟩, ⟨2, "Runtime.layer", .message .struct⟩]
  | struct => [⟨1, "Struct.fields", .entry .structEntry⟩]
  | structEntry => [⟨1, none, .text⟩, ⟨2, none, .message .value⟩]
  | value =>
    [⟨1, "Value.kind", .varint⟩,
      ⟨2, "Value.kind", .double⟩,
      ⟨3, "Value.kind", .text⟩,
      ⟨4, "Value.kind", .varint⟩,
      ⟨5, "Value.kind", .message .struct⟩,
      ⟨6, "Value.kind", .message .listValue⟩]
  | listValue => [⟨1, "ListValue.values", .message .value⟩]

def field? (shape : Shape) (number : Nat) : Option Field :=
  shape.fields.find? fun f => f.number == number

/-- The message that carries a kind. -/
def ofType (type : MessageType) : Shape :=
  match type.kind with
  | .cluster => .cluster
  | .clusterLoadAssignment => .clusterLoadAssignment
  | .listener => .listener type.protocol
  | .routeConfiguration => .routeConfiguration
  | .runtime => .runtime
  | .scopedRouteConfiguration => .scopedRoute type.protocol
  | .secret => .secret
  | .virtualHost => .virtualHost

end Shape

end ControlPlane.Wire
