/-!
# Resource kinds and discovery protocols

A configuration object has one of eight kinds; a proxy speaks one of two protocol versions.
Kinds are ordered as they are listed, and a kind's name is read without regard to ASCII case.
-/

namespace ControlPlane

/-- The kinds of configuration that are distributed, in their order. -/
inductive Kind where
  | cluster
  | clusterLoadAssignment
  | listener
  | routeConfiguration
  | runtime
  | scopedRouteConfiguration
  | secret
  | virtualHost
  deriving DecidableEq, Repr

namespace Kind

def all : List Kind :=
  [cluster, clusterLoadAssignment, listener, routeConfiguration, runtime,
    scopedRouteConfiguration, secret, virtualHost]

theorem mem_all (k : Kind) : k ∈ all := by cases k <;> decide

def name : Kind → String
  | cluster => "Cluster"
  | clusterLoadAssignment => "ClusterLoadAssignment"
  | listener => "Listener"
  | routeConfiguration => "RouteConfiguration"
  | runtime => "Runtime"
  | scopedRouteConfiguration => "ScopedRouteConfiguration"
  | secret => "Secret"
  | virtualHost => "VirtualHost"

/-- The place of a kind in `all`. -/
def rank : Kind → Nat
  | cluster => 0
  | clusterLoadAssignment => 1
  | listener => 2
  | routeConfiguration => 3
  | runtime => 4
  | scopedRouteConfiguration => 5
  | secret => 6
  | virtualHost => 7

theorem rank_injective {a b : Kind} (h : a.rank = b.rank) : a = b := by
  cases a <;> cases b <;> first | rfl | (exact absurd h (by decide))

instance : Ord Kind := ⟨fun a b => compare a.rank b.rank⟩

/-- The kind with this name, in any mix of ASCII cases. -/
def parse? (text : String) : Option Kind :=
  all.find? fun k => k.name.map Char.toLower == text.map Char.toLower

/-- The kind with exactly this name. -/
def ofName? (text : String) : Option Kind :=
  all.find? fun k => k.name == text

end Kind

/-- Discovery protocol versions. -/
inductive Protocol where
  | v2
  | v3
  deriving DecidableEq, Repr

namespace Protocol

def all : List Protocol := [v2, v3]

def name : Protocol → String
  | v2 => "v2"
  | v3 => "v3"

end Protocol

end ControlPlane
