import ControlPlane.Bootstrap.Address
import ControlPlane.Resource
import ControlPlane.Text.Characters

/-!
# Bootstrap documents

What a proxy is started with: who it is, where it is administered, and how it reaches the control
plane over one aggregated stream. The fields of each record are in alphabetical order.
-/

namespace ControlPlane.Bootstrap

structure Options where
  nodeId : String
  nodeCluster : String
  /-- The protocol version that resources are asked for in; the proxy chooses if there is none. -/
  protocol : Option Protocol
  /-- The name of the cluster that is the control plane. -/
  clusterName : String
  management : Address
  admin : Address
  adminAccessLog : String
  incremental : Bool
  deriving DecidableEq, Repr

namespace Options

/-- The name of the control plane's cluster unless another is given. -/
def standardCluster : String := "envoy-controller"

/-- The options for a host before any is given. -/
def standard (host : String) : Options where
  nodeId := host
  nodeCluster := host
  protocol := none
  clusterName := standardCluster
  management := .pipe "/var/run/xds.sock"
  admin := .socket Address.anyHost 8080
  adminAccessLog := "/dev/null"
  incremental := false

end Options

/-- The name of this host, out of what the environment or else a file says it is. -/
def hostName (said : Option String) : String :=
  match said with
  | none => "localhost"
  | some text =>
    let name := String.ofList (Text.trim text.toList)
    if name = "" then "localhost" else name

/-- A protocol version in capitals. -/
def versionText : Protocol → String
  | .v2 => "V2"
  | .v3 => "V3"

/-- Where resources of a kind come from: the aggregated stream, in a version. -/
def sourceDocument (version : String) : Document :=
  .record [("ads", .record []), ("resource_api_version", .text version)]

/-- The cluster that is the control plane. -/
def clusterDocument (o : Options) : Document :=
  .record
    [("connect_timeout", .text "10s"),
      ("http2_protocol_options", .record []),
      ("load_assignment", .record
        [("cluster_name", .text o.clusterName),
          ("endpoints", .list [.record
            [("lb_endpoints", .list [.record
              [("endpoint", .record [("address", o.management.toDocument)])]])]])]),
      ("name", .text o.clusterName),
      ("type", .text "STATIC")]

def document (o : Options) : Document :=
  let version := (o.protocol.map versionText).getD "AUTO"
  .record
    [("admin", .record
      [("access_log_path", .text o.adminAccessLog), ("address", o.admin.toDocument)]),
      ("dynamic_resources", .record
        [("ads_config", .record
          [("api_type", .text (if o.incremental then "DELTA_GRPC" else "GRPC")),
            ("grpc_services", .list [.record
              [("envoy_grpc", .record [("cluster_name", .text o.clusterName)])]]),
            ("transport_api_version", .text (versionText (o.protocol.getD .v3)))]),
          ("cds_config", sourceDocument version),
          ("lds_config", sourceDocument version)]),
      ("node", .record [("cluster", .text o.nodeCluster), ("id", .text o.nodeId)]),
      ("static_resources", .record [("clusters", .list [clusterDocument o])])]

def render (o : Options) : Except PlaneError Document :=
  if o.clusterName = "" then .error (.validation "management cluster name cannot be empty")
  else if o.nodeId = "" ∨ o.nodeCluster = "" then
    .error (.validation "node id and cluster cannot be empty")
  else .ok (document o)

end ControlPlane.Bootstrap
