import ControlPlane.MessageType
import ControlPlane.Text.Quoted

/-!
# Scopes and services

A discovery stream serves either all kinds of one protocol version or a single one. Services are
found by the path of a call: the path says which scope is served, and whether the call opens a
stream, opens an incremental stream or fetches once.
-/

namespace ControlPlane.Discovery

inductive Scope where
  | aggregated
  | single (kind : Kind)
  deriving DecidableEq, Repr

/-- A refusal of a call. -/
inductive CallError where
  | invalidArgument (message : String)
  | unimplemented
  deriving DecidableEq, Repr

namespace CallError

def code : CallError → String
  | invalidArgument _ => "InvalidArgument"
  | unimplemented => "Unimplemented"

def message : CallError → String
  | invalidArgument m => m
  | unimplemented => ""

def notServed (typeUrl service : String) : CallError :=
  .invalidArgument ("type " ++ Text.quote typeUrl ++ " is not served by the " ++ service
    ++ " discovery service")

end CallError

/-- The kind that a type URL names, if it is served here. -/
def Scope.resolve (scope : Scope) (protocol : Protocol) (typeUrl : String) :
    Except CallError Kind :=
  match (MessageType.parse? typeUrl).filter (·.protocol = protocol) with
  | none => .error (.notServed typeUrl protocol.name)
  | some type =>
    match scope with
    | .aggregated => .ok type.kind
    | .single kind => if kind = type.kind then .ok kind else .error (.notServed typeUrl kind.name)

/-- How a call exchanges messages. -/
inductive Method where
  | stream
  | delta
  | fetch
  deriving DecidableEq, Repr

/-- A set of calls under one service name. The noun completes the names of its methods. -/
structure Service where
  path : String
  noun : String
  scope : Scope
  deriving DecidableEq, Repr

namespace Service

def single2 (name noun : String) (kind : Kind) : Service :=
  ⟨"envoy.api.v2." ++ name ++ "DiscoveryService", noun, .single kind⟩

def early2 (name noun : String) (kind : Kind) : Service :=
  ⟨"envoy.service.discovery.v2." ++ name ++ "DiscoveryService", noun, .single kind⟩

def single3 (package name noun : String) (kind : Kind) : Service :=
  ⟨"envoy.service." ++ package ++ ".v3." ++ name ++ "DiscoveryService", noun, .single kind⟩

/-- The services of a protocol version. -/
def all : Protocol → List Service
  | .v2 =>
    [⟨"envoy.service.discovery.v2.AggregatedDiscoveryService", "AggregatedResources", .aggregated⟩,
      single2 "Listener" "Listeners" .listener,
      single2 "Cluster" "Clusters" .cluster,
      single2 "Route" "Routes" .routeConfiguration,
      single2 "Endpoint" "Endpoints" .clusterLoadAssignment,
      early2 "Secret" "Secrets" .secret,
      early2 "Runtime" "Runtime" .runtime]
  | .v3 =>
    [⟨"envoy.service.discovery.v3.AggregatedDiscoveryService", "AggregatedResources", .aggregated⟩,
      single3 "listener" "Listener" "Listeners" .listener,
      single3 "cluster" "Cluster" "Clusters" .cluster,
      single3 "route" "Route" "Routes" .routeConfiguration,
      single3 "endpoint" "Endpoint" "Endpoints" .clusterLoadAssignment,
      single3 "secret" "Secret" "Secrets" .secret,
      single3 "runtime" "Runtime" "Runtime" .runtime]

/-- Whether a service has a method: the older protocol has no incremental streams, and nothing can
be fetched from the aggregated services. -/
def has (protocol : Protocol) (service : Service) : Method → Bool
  | .stream => true
  | .delta => protocol = .v3
  | .fetch => service.scope ≠ .aggregated

def methodName (service : Service) : Method → String
  | .stream => "Stream" ++ service.noun
  | .delta => "Delta" ++ service.noun
  | .fetch => "Fetch" ++ service.noun

def callPath (service : Service) (method : Method) : String :=
  "/" ++ service.path ++ "/" ++ service.methodName method

/-- The scope that a call of a path serves. -/
def find (protocol : Protocol) (method : Method) (path : String) : Except CallError Scope :=
  match (all protocol).find? fun s => s.has protocol method && s.callPath method == path with
  | none => .error .unimplemented
  | some s => .ok s.scope

end Service

end ControlPlane.Discovery
