import ControlPlane.Settings.Basic
import ControlPlane.Text.Integer

/-!
# Settings from the environment

Variables with a common beginning of their names replace single settings. One without content
counts as not set. Options of a call replace settings again.
-/

namespace ControlPlane.Settings

/-- The variables of a process. -/
abbrev Environment := String → Option String

/-- What the names of all variables begin with. -/
def variableStart : String := "ENVOY_CONTROLLER_"

def lookUp? (env : Environment) (name : String) : Option String :=
  (env (variableStart ++ name)).filter (· != "")

/-- A setting with a form of its own. The cause of a failure is said with the variable. -/
def parsed {α : Type} (env : Environment) (name : String) (parse : String → Except String α)
    (standard : α) : Except PlaneError α :=
  match lookUp? env name with
  | none => .ok standard
  | some raw =>
    (parse raw).mapError fun cause =>
      .config ("Invalid " ++ variableStart ++ name ++ " '" ++ raw ++ "': " ++ cause)

def parse64 (text : String) : Except String Nat :=
  (Text.Integer.parse64 text).mapError (·.message)

def parse32 (text : String) : Except String Nat :=
  (Text.Integer.parse32 text).mapError (·.message)

def parseBool (text : String) : Except String Bool :=
  if text = "true" then .ok true
  else if text = "false" then .ok false
  else .error "provided string was not `true` or `false`"

def ofEnvironment (env : Environment) : Except PlaneError Settings := do
  let s := standard
  let gracePeriod ← parsed env "XDS_GRACE_PERIOD_SECONDS" parse64 s.xds.gracePeriodSeconds
  let maxStreams ← parsed env "XDS_MAX_CONCURRENT_STREAMS" parse32 s.xds.maxConcurrentStreams
  let workers ← parsed env "WORKERS_PER_KIND" parse64 s.reconciler.workersPerKind
  let base ← parsed env "BACKOFF_BASE_MS" parse64 s.reconciler.backoffBaseMillis
  let max ← parsed env "BACKOFF_MAX_MS" parse64 s.reconciler.backoffMaxMillis
  let retries ← parsed env "MAX_RETRIES" parse32 s.reconciler.maxRetries
  let jsonLogging ← parsed env "JSON_LOGGING" parseBool s.observability.jsonLogging
  let settings : Settings :=
    { xds := ⟨(lookUp? env "XDS_ADDRESS").getD s.xds.address, gracePeriod, maxStreams⟩
      reconciler := ⟨workers, base, max, retries⟩
      observability :=
        ⟨(lookUp? env "LOG_LEVEL").getD s.observability.logLevel, jsonLogging,
          lookUp? env "METRICS_ADDRESS"⟩ }
  settings.validate
  return settings

/-- What a call says about settings. -/
structure Overrides where
  xdsAddress : Option String
  metricsAddress : Option String
  workers : Option Nat
  debug : Bool
  deriving DecidableEq, Repr

def override (s : Settings) (o : Overrides) : Settings where
  xds := { s.xds with address := o.xdsAddress.getD s.xds.address }
  reconciler := { s.reconciler with workersPerKind := o.workers.getD s.reconciler.workersPerKind }
  observability :=
    { s.observability with
      metricsAddress := o.metricsAddress.or s.observability.metricsAddress
      logLevel := if o.debug then "debug" else s.observability.logLevel }

def overridden (s : Settings) (o : Overrides) : Except PlaneError Settings := do
  (s.override o).validate
  return s.override o

end ControlPlane.Settings
