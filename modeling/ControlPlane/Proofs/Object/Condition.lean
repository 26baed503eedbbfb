import ControlPlane.Object.Condition
import Mathlib.Tactic

/-! # The verdict in a status

Writing a verdict into a status and reading it back gives the verdict, whatever the status said
before (`accepted?_setAccepted`), and leaves the other conditions as they were
(`others_setAccepted`). -/

namespace ControlPlane

theorem AcceptanceReason.ofName?_name (r : AcceptanceReason) : ofName? r.name = some r := by
  cases r <;> decide +kernel

theorem Acceptance.ofCondition?_toCondition (v : Acceptance) :
    ofCondition? v.toCondition = some v := by
  have hreason : ∀ b : Bool, readReason b v.reason.name = v.reason := fun b => by
    rw [readReason, AcceptanceReason.ofName?_name, Option.getD_some]
  obtain ⟨accepted, reason, message, generation, time⟩ := v
  cases accepted <;> simp only [toCondition, ofCondition?] <;> simp [hreason]

namespace Status

@[simp] theorem condition?_setAccepted (s : Status) (v : Acceptance) :
    (s.setAccepted v).condition? Acceptance.conditionType = some v.toCondition := by
  unfold condition? setAccepted
  rw [List.find?_append, List.find?_eq_none.mpr, Option.none_or]
  · simp [Acceptance.toCondition]
  · intro c hc
    simpa using (List.mem_filter.mp hc).2

/-- A verdict that was written is the one that is read. -/
@[simp] theorem accepted?_setAccepted (s : Status) (v : Acceptance) :
    (s.setAccepted v).accepted? = some v := by
  rw [accepted?, condition?_setAccepted, Option.bind_some, Acceptance.ofCondition?_toCondition]

/-- The conditions that do not belong to the reconciler. -/
def others (s : Status) : List Condition :=
  s.conditions.filter fun c => c.type != Acceptance.conditionType

@[simp] theorem others_setAccepted (s : Status) (v : Acceptance) :
    (s.setAccepted v).others = s.others := by
  simp [others, setAccepted, Acceptance.toCondition, List.filter_filter]

end Status

end ControlPlane
