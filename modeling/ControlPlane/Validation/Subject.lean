import ControlPlane.Wire.Record

/-!
# What validation looks at

Each decoded message is reduced to the fields that its kind is checked on. The two protocol versions
share these views, so a rule is stated once for both.
-/

namespace ControlPlane.Validation

open Wire (Record)

structure Listener where
  name : String
  /-- The numeric port, if the address is a socket address that has one. -/
  port : Option Nat
  /-- The names of the filters of each chain. -/
  filterNames : List (List String)
  deriving DecidableEq, Repr

/-- A span of time as it is written: the two parts may have any sign. -/
structure Duration where
  seconds : Int
  nanos : Int
  deriving DecidableEq, Repr

structure Cluster where
  name : String
  connectTimeout : Option Duration
  deriving DecidableEq, Repr

structure VirtualHost where
  name : String
  domains : List String
  deriving DecidableEq, Repr

structure RouteConfiguration where
  name : String
  virtualHosts : List VirtualHost
  deriving DecidableEq, Repr

structure ScopedRoute where
  name : String
  routeConfigurationName : String
  /-- For each fragment of the key, whether it has a type; nothing without a key. -/
  fragments : Option (List Bool)
  deriving DecidableEq, Repr

/-- A decoded message, reduced to the fields that are checked. -/
inductive Subject where
  | cluster (message : Cluster)
  | clusterLoadAssignment (name : String)
  | listener (message : Listener)
  | routeConfiguration (message : RouteConfiguration)
  | runtime (name : String)
  | scopedRoute (message : ScopedRoute)
  | secret (name : String)
  | virtualHost (message : VirtualHost)
  deriving DecidableEq, Repr

namespace Subject

/-- The name that a proxy knows the resource by. -/
def name : Subject → String
  | cluster m => m.name
  | clusterLoadAssignment n => n
  | listener m => m.name
  | routeConfiguration m => m.name
  | runtime n => n
  | scopedRoute m => m.name
  | secret n => n
  | virtualHost m => m.name

/-- The numeric port of a socket address, unless the last port that was given is a named one. -/
def socketPort (socket : Record) : Option Nat :=
  (socket.filterMap fun
    | (3, .varint n) => some (some (Wire.unsigned32 n))
    | (4, .text _) => some none
    | _ => none).getLast?.join

/-- The numeric port of an address. -/
def addressPort (address : Record) : Option Nat := do
  let (member, socket) ← address.choice? [1, 2, 3]
  guard (member = 1)
  socketPort socket

def readListener (r : Record) : Listener where
  name := r.text 1
  port := (r.joined? 2).bind addressPort
  filterNames := (r.records 3).map fun chain => (chain.records 3).map fun f => f.text 1

def readDuration (r : Record) : Duration where
  seconds := Wire.signed64 (r.varint 1)
  nanos := Wire.signed32 (r.varint 2)

def readCluster (r : Record) : Cluster where
  name := r.text 1
  connectTimeout := (r.joined? 4).map readDuration

def readVirtualHost (r : Record) : VirtualHost where
  name := r.text 1
  domains := r.texts 2

def readRouteConfiguration (r : Record) : RouteConfiguration where
  name := r.text 1
  virtualHosts := (r.records 2).map readVirtualHost

def readScopedRoute (r : Record) : ScopedRoute where
  name := r.text 1
  routeConfigurationName := r.text 2
  fragments := (r.joined? 3).map fun key =>
    (key.records 1).map fun fragment => !(fragment.texts 1).isEmpty

def ofRecord (kind : Kind) (r : Record) : Subject :=
  match kind with
  | .cluster => .cluster (readCluster r)
  | .clusterLoadAssignment => .clusterLoadAssignment (r.text 1)
  | .listener => .listener (readListener r)
  | .routeConfiguration => .routeConfiguration (readRouteConfiguration r)
  | .runtime => .runtime (r.text 1)
  | .scopedRouteConfiguration => .scopedRoute (readScopedRoute r)
  | .secret => .secret (r.text 1)
  | .virtualHost => .virtualHost (readVirtualHost r)

end Subject

end ControlPlane.Validation
