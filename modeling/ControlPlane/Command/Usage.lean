import ControlPlane.Command.Arguments

/-!
# Usage

What is said to somebody who asks for help, or whose arguments do not say what to do.
-/

namespace ControlPlane.Command

def programName : String := "envoy-controller"

def programVersion : String := "0.1.0"

/-- A line of help: what is typed, and what it means. -/
structure UsageLine where
  form : String
  meaning : String

/-- Lines of help with their meanings in one column. -/
def table (lines : List UsageLine) : List String :=
  let width := (lines.map (·.form.length)).foldl max 0
  lines.map fun l =>
    "  " ++ l.form ++ "".pushn ' ' (width + 2 - l.form.length) ++ l.meaning

def helpLine : UsageLine := ⟨"-h, --help", "Print help"⟩

def debugLine : UsageLine := ⟨"    --debug", "Enable debug logging"⟩

def versionLines : List UsageLine :=
  [⟨"-2", "Use the Envoy v2 API"⟩, ⟨"-3", "Use the Envoy v3 API"⟩]

/-- The help for a command, out of its summary, its form and its operands and options. -/
def commandUsage (summary form : String) (operands options : List UsageLine) : List String :=
  [summary, "", "Usage: " ++ programName ++ " " ++ form, ""]
    ++ (if operands.isEmpty then [] else "Arguments:" :: table operands ++ [""])
    ++ "Options:" :: table (options ++ [debugLine, helpLine])

def runUsage : List String :=
  commandUsage "Run the Envoy controller" "run [OPTIONS]" []
    [⟨"    --xds-address <XDS_ADDRESS>", "The address the xDS endpoint binds to"⟩,
      ⟨"    --metrics-address <METRICS_ADDRESS>",
        "The address the Prometheus metrics endpoint binds to"⟩,
      ⟨"    --manifests <MANIFESTS>", "Directory of configuration object manifests to serve"⟩,
      ⟨"    --workers <WORKERS>", "Reconciliation workers per resource kind"⟩]

def createUsage : List String :=
  commandUsage "Create an Envoy resource from a file or stdin" "create [OPTIONS] <KIND> <NAME>"
    [⟨"<KIND>", "Resource kind, e.g. listener, cluster or routeconfiguration"⟩,
      ⟨"<NAME>", "Object name"⟩]
    ([⟨"-n, --namespace <NAMESPACE>", "The namespace of the object"⟩,
      ⟨"-f, --filename <FILENAME>",
        "File holding the serialized protobuf message; - reads stdin [default: -]"⟩,
      ⟨"-o, --output <OUTPUT>",
        "Output format of the manifest [default: yaml] [possible values: yaml, json]"⟩]
      ++ versionLines)

def bootstrapUsage : List String :=
  commandUsage "Write an Envoy bootstrap configuration" "bootstrap [OPTIONS]" []
    ([⟨"    --admin-address <ADMIN_ADDRESS>",
        "The address the Envoy admin endpoint binds to [default: :8080]"⟩,
      ⟨"    --admin-accesslog <ADMIN_ACCESSLOG>",
        "Path for the Envoy admin endpoint access log [default: /dev/null]"⟩,
      ⟨"    --xds-address <XDS_ADDRESS>",
        "The address of the xDS endpoint (host:port or a unix socket path)"⟩,
      ⟨"    --xds-clustername <XDS_CLUSTERNAME>",
        "The name to use for the xDS management cluster [default: envoy-controller]"⟩,
      ⟨"    --xds-incremental", "Enable the incremental (delta) xDS protocol"⟩,
      ⟨"    --node-id <NODE_ID>", "Node id and cluster; defaults to the host name"⟩,
      ⟨"-f, --filename <FILENAME>", "File to write the bootstrap to; - writes stdout [default: -]"⟩]
      ++ versionLines)

def programUsage : List String :=
  ["Controller for the Envoy proxy", "", "Usage: " ++ programName ++ " [OPTIONS] <COMMAND>", "",
    "Commands:"]
    ++ table
      [⟨"run", "Run the Envoy controller"⟩,
        ⟨"create", "Create an Envoy resource from a file or stdin"⟩,
        ⟨"bootstrap", "Write an Envoy bootstrap configuration"⟩,
        ⟨"help", "Print this message or the help of the given subcommand(s)"⟩]
    ++ ["", "Options:"]
    ++ table [debugLine, helpLine, ⟨"-V, --version", "Print version"⟩]

/-- The help for a command, or for the program. -/
def usage (command : Option String) : String :=
  "\n".intercalate <|
    match command with
    | some "run" => runUsage
    | some "create" => createUsage
    | some "bootstrap" => bootstrapUsage
    | _ => programUsage

namespace ArgumentError

/-- Whether the program has done what it was asked for when it has said this. -/
def isAnswer : ArgumentError → Bool
  | help _ | version => true
  | _ => false

def message : ArgumentError → String
  | help command => usage command
  | version => programName ++ " " ++ programVersion
  | nothing => usage none
  | missingCommand =>
    "error: '" ++ programName ++ "' requires a subcommand but one was not provided"
  | unknownCommand name => "error: unrecognized subcommand '" ++ name ++ "'"
  | unknownArgument text => "error: unexpected argument '" ++ text ++ "' found"
  | missingOperands names =>
    "error: the following required arguments were not provided:\n  " ++ "\n  ".intercalate names
  | missingValue argument =>
    "error: a value is required for '" ++ argument ++ "' but none was supplied"
  | unlistedValue argument value | malformedValue argument value =>
    "error: invalid value '" ++ value ++ "' for '" ++ argument ++ "'"
  | repeated argument => "error: the argument '" ++ argument ++ "' cannot be used multiple times"
  | unexpectedValue argument value =>
    "error: unexpected value '" ++ value ++ "' for '" ++ argument
      ++ "' found; no more were expected"

end ArgumentError

end ControlPlane.Command
