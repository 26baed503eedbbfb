import ControlPlane.Data.Decode
import ControlPlane.Settings.Basic

/-!
# Settings from data

Every value must be given but the metrics address.
-/

namespace ControlPlane.Settings

open Decode

structure ServingDraft where
  address : Option String
  gracePeriodSeconds : Option Nat
  maxConcurrentStreams : Option Nat

def servingLayout : Layout ServingDraft ServingSettings where
  name := "XdsConfig"
  fields :=
    [field "address" string fun v d => { d with address := some v },
      field "grace_period_seconds" (unsigned 64 "u64") fun v d =>
        { d with gracePeriodSeconds := some v },
      field "max_concurrent_streams" (unsigned 32 "u32") fun v d =>
        { d with maxConcurrentStreams := some v }]
  draft := ⟨none, none, none⟩
  complete d := do
    return ⟨← need "address" d.address, ← need "grace_period_seconds" d.gracePeriodSeconds,
      ← need "max_concurrent_streams" d.maxConcurrentStreams⟩

structure ReconcilerDraft where
  workersPerKind : Option Nat
  backoffBaseMillis : Option Nat
  backoffMaxMillis : Option Nat
  maxRetries : Option Nat

def reconcilerLayout : Layout ReconcilerDraft ReconcilerSettings where
  name := "ReconcilerConfig"
  fields :=
    [field "workers_per_kind" (unsigned 64 "usize") fun v d =>
        { d with workersPerKind := some v },
      field "backoff_base_ms" (unsigned 64 "u64") fun v d =>
        { d with backoffBaseMillis := some v },
      field "backoff_max_ms" (unsigned 64 "u64") fun v d =>
        { d with backoffMaxMillis := some v },
      field "max_retries" (unsigned 32 "u32") fun v d => { d with maxRetries := some v }]
  draft := ⟨none, none, none, none⟩
  complete d := do
    return ⟨← need "workers_per_kind" d.workersPerKind,
      ← need "backoff_base_ms" d.backoffBaseMillis, ← need "backoff_max_ms" d.backoffMaxMillis,
      ← need "max_retries" d.maxRetries⟩

structure ObservabilityDraft where
  logLevel : Option String
  jsonLogging : Option Bool
  metricsAddress : Option String

def observabilityLayout : Layout ObservabilityDraft ObservabilitySettings where
  name := "ObservabilityConfig"
  fields :=
    [field "log_level" string fun v d => { d with logLevel := some v },
      field "json_logging" bool fun v d => { d with jsonLogging := some v },
      field "metrics_address" (optional string) fun v d => { d with metricsAddress := v }]
  draft := ⟨none, none, none⟩
  complete d := do
    return ⟨← need "log_level" d.logLevel, ← need "json_logging" d.jsonLogging,
      d.metricsAddress⟩
  nullable := ["metrics_address"]

structure Draft where
  xds : Option ServingSettings
  reconciler : Option ReconcilerSettings
  observability : Option ObservabilitySettings

def layout : Layout Draft Settings where
  name := "AppConfig"
  fields :=
    [field "xds" servingLayout.decode fun v d => { d with xds := some v },
      field "reconciler" reconcilerLayout.decode fun v d => { d with reconciler := some v },
      field "observability" observabilityLayout.decode fun v d =>
        { d with observability := some v }]
  draft := ⟨none, none, none⟩
  complete d := do
    return ⟨← need "xds" d.xds, ← need "reconciler" d.reconciler,
      ← need "observability" d.observability⟩

/-- Reads settings; they are not checked yet. -/
def decode : Decoder Settings := layout.decode

end ControlPlane.Settings
