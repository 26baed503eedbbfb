import ControlPlane.Time.Civil
import ControlPlane.Validation.Validate

/-!
# Conditions

An object's status is an ordered list of named conditions. The one named `Accepted` belongs to the
reconciler and records whether the object's payload passed validation; it has a typed view, and
writing it leaves every other condition in place.
-/

namespace ControlPlane

open Time (Timestamp)

inductive ConditionStatus where
  | holds
  | fails
  | unknown
  deriving DecidableEq, Repr

namespace ConditionStatus

def all : List ConditionStatus := [holds, fails, unknown]

def name : ConditionStatus → String
  | holds => "True"
  | fails => "False"
  | unknown => "Unknown"

end ConditionStatus

structure Condition where
  type : String
  status : ConditionStatus
  observedGeneration : Int
  lastTransitionTime : Timestamp
  reason : String
  message : String
  deriving DecidableEq, Repr

/-- The verdict on one generation of an object. -/
structure Acceptance where
  accepted : Bool
  reason : AcceptanceReason
  message : String
  observedGeneration : Int
  /-- When the verdict last changed sides. -/
  transitionTime : Timestamp
  deriving DecidableEq, Repr

namespace Acceptance

/-- The condition type that records the verdict. -/
def conditionType : String := "Accepted"

def accept (generation : Int) (time : Timestamp) : Acceptance :=
  ⟨true, .accepted, "", generation, time⟩

def reject (reason : AcceptanceReason) (message : String) (generation : Int) (time : Timestamp) :
    Acceptance :=
  ⟨false, reason, message, generation, time⟩

/-- Keeps the time of the previous verdict if it was on the same side. -/
def settle (verdict : Acceptance) (previous : Option Acceptance) : Acceptance :=
  match previous with
  | none => verdict
  | some p =>
    if p.accepted = verdict.accepted then { verdict with transitionTime := p.transitionTime }
    else verdict

def toCondition (verdict : Acceptance) : Condition where
  type := conditionType
  status := if verdict.accepted then .holds else .fails
  observedGeneration := verdict.observedGeneration
  lastTransitionTime := verdict.transitionTime
  reason := verdict.reason.name
  message := verdict.message

/-- The reason of a condition; one that cannot be read gives way to the usual one for its side. -/
def readReason (accepted : Bool) (reason : String) : AcceptanceReason :=
  (AcceptanceReason.ofName? reason).getD (if accepted then .accepted else .failedValidation)

def ofCondition? (c : Condition) : Option Acceptance :=
  if c.type ≠ conditionType then none
  else
    let view (accepted : Bool) : Acceptance :=
      ⟨accepted, readReason accepted c.reason, c.message, c.observedGeneration,
        c.lastTransitionTime⟩
    match c.status with
    | .holds => some (view true)
    | .fails => some (view false)
    | .unknown => none

end Acceptance

structure Status where
  conditions : List Condition
  deriving DecidableEq, Repr

namespace Status

def empty : Status := ⟨[]⟩

/-- The first condition of a type. -/
def condition? (s : Status) (type : String) : Option Condition :=
  s.conditions.find? fun c => c.type == type

def accepted? (s : Status) : Option Acceptance :=
  (s.condition? Acceptance.conditionType).bind Acceptance.ofCondition?

/-- Replaces the verdict; every other condition stays in its place. -/
def setAccepted (s : Status) (verdict : Acceptance) : Status :=
  ⟨s.conditions.filter (fun c => c.type != Acceptance.conditionType) ++ [verdict.toCondition]⟩

end Status

end ControlPlane
