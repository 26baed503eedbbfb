import ControlPlane.Bootstrap.Options
import ControlPlane.Command.Create
import ControlPlane.Command.Surroundings
import ControlPlane.Command.Usage
import ControlPlane.Settings.SocketAddress
import ControlPlane.Settings.VariableFile

/-!
# Executing commands

What the program does with its arguments in its surroundings. Variables come from a file in the
working directory first; a fault in it is only warned of. A command that fails writes nothing to
standard output.
-/

namespace ControlPlane.Command

variable {m : Type → Type} [Monad m]

/-- How the program ends: its exit code, and what it has written to the standard streams. -/
structure Outcome where
  code : Nat
  output : String
  errors : String
  deriving DecidableEq, Repr

/-- What is said of a failure. -/
def complaint (message : String) : String :=
  if message = "" then "" else programName ++ ": " ++ message ++ "\n"

namespace Outcome

def success (output : String) : Outcome := ⟨0, output, ""⟩

def failure (e : ExitError) : Outcome := ⟨e.cause.code, "", complaint e.message⟩

def ofResult : Except ExitError String → Outcome
  | .ok output => success output
  | .error e => failure e

/-- The outcome of arguments that name nothing to do. -/
def ofArgumentError (e : ArgumentError) : Outcome :=
  if e.isAnswer then success (e.message ++ "\n") else failure ⟨.usage, e.message⟩

end Outcome

/-! ### Running -/

/-- Checks everything that is to be known before the control plane can run, in order: the
settings, those of the call over them, and the places to listen at. -/
def checkRun (env : Settings.Environment) (debug : Bool) (a : RunArguments) :
    Except ExitError Unit := do
  let settings ← (Settings.ofEnvironment env).mapError (.ofPlane .configuration)
  let settings ← (settings.overridden ⟨a.xdsAddress, a.metricsAddress, a.workers, debug⟩).mapError
    (.ofPlane .configuration)
  let _ ← (Settings.metricsSocket settings.observability).mapError (.ofPlane .configuration)
  let _ ← (Settings.servingSocket settings.xds).mapError (.ofPlane .failure)

/-! ### Creating -/

/-- The namespace of an object for which none is given. -/
def standardNamespace : String := "default"

/-- The encoded message, from a file or from standard input. -/
def readMessage (w : Surroundings m) (filename : String) : m (Except ExitError Bytes) := do
  if filename = Arguments.standardStream then return .ok (← w.input)
  match ← w.read filename with
  | .ok content => return .ok content
  | .error fault =>
    return .error ⟨.dataError, "Failed to read " ++ filename ++ ": " ++ fault.message⟩

def create [NewerMessages] (w : Surroundings m) (a : CreateArguments) :
    m (Except ExitError String) := do
  match a.versions.selected with
  | .error e => return .error e
  | .ok version =>
    match ← readMessage w a.filename with
    | .error e => return .error e
    | .ok message =>
      let key : ObjectKey := ⟨a.kind, a.space.getD standardNamespace, a.name⟩
      return (buildObject key (version.getD .v3) message (← w.now)).map (renderObject a.format)

/-! ### Bootstrapping -/

/-- An address of the call, with a word for what it is the address of. -/
def readAddress (noun text : String) : Except ExitError Bootstrap.Address :=
  (Bootstrap.Address.parse text).mapError fun e =>
    ⟨.configuration, "invalid " ++ noun ++ " address: " ++ e.message⟩

def bootstrapOptions (host : String) (a : BootstrapArguments) :
    Except ExitError Bootstrap.Options := do
  let protocol ← a.versions.selected
  let management ← readAddress "xDS" a.xdsAddress
  let admin ← readAddress "admin" a.adminAddress
  let node := a.nodeId.getD host
  return ⟨node, node, protocol, a.xdsClusterName, management, admin, a.adminAccessLog,
    a.xdsIncremental⟩

/-- The text of the bootstrap document. -/
def bootstrapText (host : String) (a : BootstrapArguments) : Except ExitError String := do
  let options ← bootstrapOptions host a
  let document ← (Bootstrap.render options).mapError (.ofPlane .configuration)
  return Json.render document ++ "\n"

/-- The name of this host. -/
def findHost (w : Surroundings m) (env : Settings.Environment) : m String := do
  match env "HOSTNAME" with
  | some name => return Bootstrap.hostName (some name)
  | none => return Bootstrap.hostName (← w.hostFile)

def bootstrap (w : Surroundings m) (env : Settings.Environment) (a : BootstrapArguments) :
    m (Except ExitError String) := do
  match bootstrapText (← findHost w env) a with
  | .error e => return .error e
  | .ok text =>
    if a.filename = Arguments.standardStream then return .ok text
    match ← w.write a.filename (Bytes.ofText text) with
    | .ok () => return .ok ""
    | .error fault => return .error ⟨.failure, a.filename ++ ": " ++ fault.message⟩

/-! ### The program -/

/-- The file that variables are set in. -/
def variableFile : String := ".env"

/-- The environment with the variables of the file, and a warning if the file has a fault. -/
def loadVariables (w : Surroundings m) : m (Settings.Environment × String) := do
  let warning (message : String) : String := "Warning: Error loading .env file: " ++ message ++ "\n"
  match ← w.read variableFile with
  | .error (.other message) => return (w.environment, warning message)
  | .error _ => return (w.environment, "")
  | .ok content =>
    match Settings.VariableFile.load w.environment content with
    | (env, none) => return (env, "")
    | (env, some fault) => return (env, warning fault.message)

def perform [NewerMessages] (w : Surroundings m) (env : Settings.Environment) (i : Invocation) :
    m (Except ExitError String) := do
  match i.order with
  | .run a => return (checkRun env i.debug a).map fun () => ""
  | .create a => create w a
  | .bootstrap a => bootstrap w env a

/-- Runs the program with the arguments after its name. -/
def execute [NewerMessages] (w : Surroundings m) (arguments : List String) : m Outcome := do
  let (env, warning) ← loadVariables w
  let outcome ← match Arguments.parse arguments with
    | .error e => pure (Outcome.ofArgumentError e)
    | .ok invocation => Outcome.ofResult <$> perform w env invocation
  return { outcome with errors := warning ++ outcome.errors }

end ControlPlane.Command
