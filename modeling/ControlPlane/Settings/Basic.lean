import ControlPlane.Controller.Backoff
import ControlPlane.Data.Document
import ControlPlane.Store.Fault

/-!
# Settings

What the control plane is told about itself: where it serves discovery, how it reconciles, and
what it reports. Settings are checked as a whole before they are used.
-/

namespace ControlPlane

/-- Where discovery is served, and within which limits. -/
structure ServingSettings where
  address : String
  gracePeriodSeconds : Nat
  maxConcurrentStreams : Nat
  deriving DecidableEq, Repr

structure ReconcilerSettings where
  workersPerKind : Nat
  backoffBaseMillis : Nat
  backoffMaxMillis : Nat
  maxRetries : Nat
  deriving DecidableEq, Repr

structure ObservabilitySettings where
  logLevel : String
  jsonLogging : Bool
  metricsAddress : Option String
  deriving DecidableEq, Repr

structure Settings where
  xds : ServingSettings
  reconciler : ReconcilerSettings
  observability : ObservabilitySettings
  deriving DecidableEq, Repr

namespace Settings

def standard : Settings where
  xds := ⟨"127.0.0.1:18000", 10, Nat.pow 2 20⟩
  reconciler := ⟨2, 5, 60000, 15⟩
  observability := ⟨"info", false, none⟩

def gracePeriod (s : Settings) : Duration :=
  ⟨s.xds.gracePeriodSeconds * Duration.nanosPerSecond⟩

def backoffBase (s : Settings) : Duration := .ofMillis s.reconciler.backoffBaseMillis

def backoffMax (s : Settings) : Duration := .ofMillis s.reconciler.backoffMaxMillis

/-- Whether every value is within its own bounds. -/
def isWithinBounds (s : Settings) : Bool :=
  s.xds.address != "" && 1 ≤ s.xds.gracePeriodSeconds && s.xds.gracePeriodSeconds ≤ 300
    && 1 ≤ s.xds.maxConcurrentStreams
    && 1 ≤ s.reconciler.workersPerKind && s.reconciler.workersPerKind ≤ 64
    && 1 ≤ s.reconciler.backoffBaseMillis && 1 ≤ s.reconciler.backoffMaxMillis
    && 1 ≤ s.reconciler.maxRetries && s.reconciler.maxRetries ≤ 1000
    && s.observability.logLevel != ""

/-- The values by themselves are checked first, then how they go together. -/
def validate (s : Settings) : Except PlaneError Unit :=
  if !s.isWithinBounds then .error (.validation "Validation failed: ")
  else if s.reconciler.backoffMaxMillis < s.reconciler.backoffBaseMillis then
    .error (.validation "Reconciler backoff base cannot exceed the backoff maximum")
  else if s.observability.metricsAddress = some s.xds.address then
    .error (.validation "Metrics and xDS addresses cannot be the same")
  else .ok ()

def toDocument (s : Settings) : Document :=
  .record
    [("xds", .record
      [("address", .text s.xds.address),
        ("grace_period_seconds", .int s.xds.gracePeriodSeconds),
        ("max_concurrent_streams", .int s.xds.maxConcurrentStreams)]),
      ("reconciler", .record
        [("workers_per_kind", .int s.reconciler.workersPerKind),
          ("backoff_base_ms", .int s.reconciler.backoffBaseMillis),
          ("backoff_max_ms", .int s.reconciler.backoffMaxMillis),
          ("max_retries", .int s.reconciler.maxRetries)]),
      ("observability", .record
        [("log_level", .text s.observability.logLevel),
          ("json_logging", .bool s.observability.jsonLogging),
          ("metrics_address", (s.observability.metricsAddress.map Document.text).getD .null)])]

end Settings

end ControlPlane
