import ControlPlane.Validation.Subject

/-!
# Violations

The constraints that a decoded message may break, in the order in which they are reported: from the
outside in, and within a list from its front. A message is acceptable when the list is empty.
-/

namespace ControlPlane.Validation

inductive Violation where
  | emptyText (field : String)
  | noItems (field : String)
  | missing (field : String)
  | portTooLarge (port : Nat)
  | timeoutNotPositive
  deriving DecidableEq, Repr

namespace Violation

def message : Violation → String
  | emptyText field => "invalid " ++ field ++ ": value length must be at least 1 runes"
  | noItems field => "invalid " ++ field ++ ": value must contain at least 1 item(s)"
  | missing field => "invalid " ++ field ++ ": value is required"
  | portTooLarge port =>
    "invalid Listener.Address: invalid SocketAddress.PortValue: value "
      ++ toString port ++ " must be less than or equal to 65535"
  | timeoutNotPositive => "invalid Cluster.ConnectTimeout: value must be greater than 0s"

/-- A text that must not be empty. -/
def ofText (field text : String) : List Violation :=
  if text = "" then [emptyText field] else []

/-- Texts that must not be empty, by position. -/
def ofTexts (field : Nat → String) (texts : List String) : List Violation :=
  texts.zipIdx.flatMap fun (text, i) => ofText (field i) text

def maxPort : Nat := 65535

def ofPort : Option Nat → List Violation
  | none => []
  | some port => if maxPort < port then [portTooLarge port] else []

def ofListener (m : Listener) : List Violation :=
  ofText "Listener.Name" m.name
    ++ ofPort m.port
    ++ m.filterNames.zipIdx.flatMap fun (names, i) =>
        ofTexts (fun j => s!"Listener.FilterChains[{i}].Filters[{j}].Name") names

/-- A span of time is refused when its seconds are negative, or are zero and its nanoseconds are not
positive. -/
def ofTimeout : Option Duration → List Violation
  | none => []
  | some d => if d.seconds < 0 ∨ (d.seconds = 0 ∧ d.nanos ≤ 0) then [timeoutNotPositive] else []

def ofCluster (m : Cluster) : List Violation :=
  ofText "Cluster.Name" m.name ++ ofTimeout m.connectTimeout

def ofVirtualHost (field : String) (m : VirtualHost) : List Violation :=
  ofText (field ++ ".Name") m.name
    ++ (if m.domains = [] then [noItems (field ++ ".Domains")] else [])
    ++ ofTexts (fun j => field ++ s!".Domains[{j}]") m.domains

def ofRouteConfiguration (m : RouteConfiguration) : List Violation :=
  ofText "RouteConfiguration.Name" m.name
    ++ m.virtualHosts.zipIdx.flatMap fun (host, i) =>
        ofVirtualHost s!"RouteConfiguration.VirtualHosts[{i}]" host

def ofFragments : Option (List Bool) → List Violation
  | none => [missing "ScopedRouteConfiguration.Key"]
  | some [] => [noItems "ScopedRouteConfiguration.Key.Fragments"]
  | some typed => typed.zipIdx.flatMap fun (hasType, i) =>
      if hasType then [] else [missing s!"ScopedRouteConfiguration.Key.Fragments[{i}]"]

def ofScopedRoute (m : ScopedRoute) : List Violation :=
  ofText "ScopedRouteConfiguration.Name" m.name
    ++ ofText "ScopedRouteConfiguration.RouteConfigurationName" m.routeConfigurationName
    ++ ofFragments m.fragments

/-- The constraints that a message breaks, the first to report in front. -/
def ofSubject : Subject → List Violation
  | .cluster m => ofCluster m
  | .clusterLoadAssignment name => ofText "ClusterLoadAssignment.ClusterName" name
  | .listener m => ofListener m
  | .routeConfiguration m => ofRouteConfiguration m
  | .runtime name => ofText "Runtime.Name" name
  | .scopedRoute m => ofScopedRoute m
  | .secret name => ofText "Secret.Name" name
  | .virtualHost m => ofVirtualHost "VirtualHost" m

end Violation

end ControlPlane.Validation
