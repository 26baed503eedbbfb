import ControlPlane.Data.Document
import ControlPlane.Store.Fault
import ControlPlane.Text.Integer
import ControlPlane.Text.Quoted

/-!
# Addresses for proxies

Where a proxy finds the control plane: a host and a port, or the path of a pipe. A text with a
colon is the former, and the last colon divides it; brackets around the host are dropped.
-/

namespace ControlPlane.Bootstrap

inductive Address where
  | socket (host : String) (port : Nat)
  | pipe (path : String)
  deriving DecidableEq, Repr

namespace Address

/-- The host that stands for every interface. -/
def anyHost : String := "0.0.0.0"

/-- A host without the brackets around it. -/
def bareHost (text : List Char) : String :=
  let inner := ((text.dropWhile (· == '[')).reverse.dropWhile (· == ']')).reverse
  if inner = [] then anyHost else String.ofList inner

def parse (text : String) : Except PlaneError Address :=
  let reversed := text.toList.reverse
  let port := (reversed.takeWhile (· != ':')).reverse
  match reversed.dropWhile (· != ':') with
  | [] => .ok (pipe text)
  | _ :: host =>
    match Text.Integer.parse16 (String.ofList port) with
    | .ok port => .ok (socket (bareHost host.reverse) port)
    | .error cause =>
      .error (.config ("invalid socket address " ++ Text.quote text ++ ": " ++ cause.message))

/-- Read and write for the owner of a pipe, read for its group. -/
def pipeMode : Nat := 416

def toDocument : Address → Document
  | socket host port =>
    .record [("socket_address", .record [("address", .text host), ("port_value", .int port)])]
  | pipe path => .record [("pipe", .record [("mode", .int pipeMode), ("path", .text path)])]

end Address

end ControlPlane.Bootstrap
