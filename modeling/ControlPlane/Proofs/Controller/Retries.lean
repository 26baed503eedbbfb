import ControlPlane.Controller.Controller
import ControlPlane.Proofs.Controller.Delays

/-! # Retries

What becomes of a key after a pass depends on how the pass ended and on one number, the failures that
the queue counts for the key (`Persists`).  A pass that lost a race is never the end of its
key, and an error that will not go away always is.  An error that may go away is the end of its key
when the failures have reached the limit.

These failures are not only errors: each lost race counts as one.  So a key is dropped for its errors
after fewer of them than the limit says if it has lost races in between (`Journal.rule_of_turns`).
What is done about other keys does not matter. -/

namespace ControlPlane.Controller

/-- What becomes of a key after a pass. -/
inductive Fate where
  /-- There is nothing left to do. -/
  | settled
  /-- The key is added again after a delay. -/
  | again (delay : Duration)
  /-- The key is left alone until its object changes. -/
  | dropped
deriving DecidableEq, Repr

def Fate.isAgain : Fate → Bool
  | again _ => true
  | settled | dropped => false

/-- What becomes of a key whose pass has ended in this way. -/
def fate (queue : WorkQueue ObjectKey) (key : ObjectKey) (result : PassResult) (maxRetries : ℕ) :
    Fate :=
  match (handleResult queue key result maxRetries).2, result with
  | some delay, _ => .again delay
  | none, .ok .done => .settled
  | none, _ => .dropped

/-! ### Histories -/

/-- What is done with the queue of a controller. -/
inductive Turn where
  /-- A pass for the key has ended. -/
  | handle (key : ObjectKey) (result : PassResult)
  | call (call : WorkQueue.Call ObjectKey)

/-- A pass that was handled, and what became of its key. -/
structure Handled where
  key : ObjectKey
  result : PassResult
  fate : Fate

namespace Handled

/-- The pass ended with an error that may go away. -/
def isError (h : Handled) : Bool :=
  match h.result with
  | .error e => e.isRetryable
  | .ok _ => false

/-- The object had changed when the verdict was to be written. -/
def isLostRace (h : Handled) : Bool :=
  match h.result with
  | .ok .requeue => true
  | .ok .done | .error _ => false

end Handled

/-- A queue with the passes that were handled, the last one first. -/
structure Journal where
  queue : WorkQueue ObjectKey
  handled : List Handled

namespace Journal

def step (maxRetries : ℕ) (j : Journal) : Turn → Journal
  | .handle key result =>
    ⟨(handleResult j.queue key result maxRetries).1,
      ⟨key, result, fate j.queue key result maxRetries⟩ :: j.handled⟩
  | .call c => { j with queue := c.run j.queue }

/-- The journal of a new queue after these turns. -/
def after (base max : Duration) (maxRetries : ℕ) (turns : List Turn) : Journal :=
  turns.foldl (step maxRetries) ⟨.new base max, []⟩

/-- The passes of a key since it was last settled or dropped. -/
def since (j : Journal) (key : ObjectKey) : List Handled :=
  (j.handled.filter fun h => h.key = key).takeWhile fun h => h.fate.isAgain

/-- How many errors were retried since the key was last settled or dropped. -/
def retried (j : Journal) (key : ObjectKey) : ℕ := (j.since key).countP Handled.isError

/-- How many races were lost since the key was last settled or dropped. -/
def lostRaces (j : Journal) (key : ObjectKey) : ℕ := (j.since key).countP Handled.isLostRace

end Journal

/-- The turn handles a pass for the key. -/
def Turn.IsFor (key : ObjectKey) : Turn → Prop
  | handle k _ => k = key
  | call _ => False

instance (key : ObjectKey) (turn : Turn) : Decidable (turn.IsFor key) := by
  cases turn <;> unfold Turn.IsFor <;> infer_instance

/-! ### One pass -/

section one
variable {queue : WorkQueue ObjectKey} {key : ObjectKey} {result : PassResult} {maxRetries : ℕ}

/-- The key is to be tried again. -/
def Persists (queue : WorkQueue ObjectKey) (key : ObjectKey) (maxRetries : ℕ) : PassResult → Prop
  | .ok .requeue => True
  | .ok .done => False
  | .error e => e.isRetryable = true ∧ queue.requeues key < maxRetries

theorem handleResult_of_persists (h : Persists queue key maxRetries result) :
    handleResult queue key result maxRetries =
      ((queue.addRateLimited key).1, some (queue.addRateLimited key).2) := by
  match result, h with
  | .ok .requeue, _ => rfl
  | .error e, ⟨hretryable, hlt⟩ =>
      simp only [handleResult, hretryable, hlt, decide_true, Bool.and_self, if_true]
      rfl

theorem handleResult_of_not_persists (h : ¬Persists queue key maxRetries result) :
    handleResult queue key result maxRetries = (queue.forget key, none) := by
  match result, h with
  | .ok .done, _ => rfl
  | .ok .requeue, h => exact absurd trivial h
  | .error e, h =>
      have hover : ¬(e.isRetryable = true ∧ queue.requeues key < maxRetries) := h
      simp [handleResult, hover]

theorem fate_of_persists (h : Persists queue key maxRetries result) :
    fate queue key result maxRetries = .again (queue.addRateLimited key).2 := by
  unfold fate
  rw [handleResult_of_persists h]

theorem isAgain_fate_iff :
    (fate queue key result maxRetries).isAgain = true ↔ Persists queue key maxRetries result := by
  by_cases h : Persists queue key maxRetries result
  · simp [fate_of_persists h, Fate.isAgain, h]
  · unfold fate
    rw [handleResult_of_not_persists h]
    simp only [h, iff_false]
    split <;> simp_all [Fate.isAgain]

theorem fate_error_of_not_persists {e : PlaneError}
    (h : ¬Persists queue key maxRetries (.error e)) :
    fate queue key (.error e) maxRetries = .dropped := by
  unfold fate
  rw [handleResult_of_not_persists h]

theorem persists_congr {other : WorkQueue ObjectKey}
    (hrequeues : other.requeues key = queue.requeues key) :
    Persists other key maxRetries result ↔ Persists queue key maxRetries result := by
  match result with
  | .ok .done => exact Iff.rfl
  | .ok .requeue => exact Iff.rfl
  | .error e => simp only [Persists, hrequeues]

/-- What becomes of a key is told by the failures that are counted for it. -/
theorem fate_congr {other : WorkQueue ObjectKey} (hbase : other.base = queue.base)
    (hmax : other.max = queue.max) (hrequeues : other.requeues key = queue.requeues key)
    (result : PassResult) (maxRetries : ℕ) :
    fate other key result maxRetries = fate queue key result maxRetries := by
  have hpersists : Persists other key maxRetries result ↔ Persists queue key maxRetries result :=
    persists_congr hrequeues
  have hdelay : (other.addRateLimited key).2 = (queue.addRateLimited key).2 := by
    simp only [WorkQueue.addRateLimited, hbase, hmax, hrequeues]
  by_cases h : Persists queue key maxRetries result
  · rw [fate_of_persists h, fate_of_persists (hpersists.mpr h), hdelay]
  · unfold fate
    rw [handleResult_of_not_persists h, handleResult_of_not_persists (mt hpersists.mp h)]

end one

namespace Journal

/-! ### What a turn comes to -/

section turns
variable {j : Journal} {key k : ObjectKey} {result : PassResult} {maxRetries : ℕ}

theorem step_frame (maxRetries : ℕ) (j : Journal) (turn : Turn) :
    (j.step maxRetries turn).queue.base = j.queue.base ∧
      (j.step maxRetries turn).queue.max = j.queue.max := by
  cases turn with
  | call c => exact (c.run_frame j.queue).2
  | handle key result =>
      by_cases h : Persists j.queue key maxRetries result
      · simp only [step, handleResult_of_persists h]
        exact ⟨rfl, rfl⟩
      · simp only [step, handleResult_of_not_persists h]
        exact ⟨rfl, rfl⟩

/-- What a turn that is for another key, or for none, does to the failures of a key. -/
theorem requeues_step_of_other {turn : Turn} (h : ¬turn.IsFor key) :
    (j.step maxRetries turn).queue.requeues key = j.queue.requeues key := by
  cases turn with
  | call c => exact c.requeues_run j.queue key
  | handle k result =>
      have hkey : ¬key = k := fun heq => h heq.symm
      by_cases hp : Persists j.queue k maxRetries result
      · simp [step, handleResult_of_persists hp, WorkQueue.requeues_addRateLimited, hkey]
      · simp [step, handleResult_of_not_persists hp, WorkQueue.requeues_forget, hkey]

theorem requeues_step_self (result : PassResult) :
    (Persists j.queue key maxRetries result →
      (j.step maxRetries (.handle key result)).queue.requeues key = j.queue.requeues key + 1) ∧
    (¬Persists j.queue key maxRetries result →
      (j.step maxRetries (.handle key result)).queue.requeues key = 0) := by
  constructor
  · intro h
    simp [step, handleResult_of_persists h, WorkQueue.requeues_addRateLimited]
  · intro h
    simp [step, handleResult_of_not_persists h, WorkQueue.requeues_forget]

theorem since_step_of_other {turn : Turn} (h : ¬turn.IsFor key) :
    (j.step maxRetries turn).since key = j.since key := by
  cases turn with
  | call c => rfl
  | handle k result =>
      have hkey : ¬k = key := h
      simp [since, step, hkey]

theorem since_step_self (result : PassResult) :
    (Persists j.queue key maxRetries result → (j.step maxRetries (.handle key result)).since key =
      ⟨key, result, fate j.queue key result maxRetries⟩ :: j.since key) ∧
    (¬Persists j.queue key maxRetries result →
      (j.step maxRetries (.handle key result)).since key = []) := by
  simp only [← isAgain_fate_iff]
  constructor <;> intro h <;> simp [since, step, h]

/-- Every pass after which its key is tried again ended with an error or a lost race. -/
theorem counts_of_persists (h : Persists j.queue key maxRetries result) (fate : Fate) :
    (if Handled.isError ⟨key, result, fate⟩ then 1 else 0) +
      (if Handled.isLostRace ⟨key, result, fate⟩ then 1 else 0) = 1 := by
  match result, h with
  | .ok .requeue, _ => rfl
  | .error e, ⟨hretryable, _⟩ => simp [Handled.isError, Handled.isLostRace, hretryable]

/-- The failures that the queue counts for a key are the retried errors and the lost races. -/
theorem requeues_step (h : j.queue.requeues key = j.retried key + j.lostRaces key) (turn : Turn) :
    (j.step maxRetries turn).queue.requeues key =
      (j.step maxRetries turn).retried key + (j.step maxRetries turn).lostRaces key := by
  by_cases hturn : turn.IsFor key
  swap
  · unfold retried lostRaces
    rw [requeues_step_of_other hturn, since_step_of_other hturn, h]
    rfl
  · cases turn with
    | call c => exact hturn.elim
    | handle k result =>
        obtain rfl : k = key := hturn
        unfold retried lostRaces at h ⊢
        by_cases hp : Persists j.queue k maxRetries result
        · have hone := counts_of_persists hp (fate j.queue k result maxRetries)
          rw [(requeues_step_self result).1 hp, (since_step_self result).1 hp, List.countP_cons,
            List.countP_cons]
          omega
        · rw [(requeues_step_self result).2 hp, (since_step_self result).2 hp]
          rfl

end turns

/-! ### What all turns come to -/

section runs
variable (base max : Duration) (maxRetries : ℕ) (turns : List Turn) (key : ObjectKey)

theorem after_concat (turn : Turn) : after base max maxRetries (turns ++ [turn]) =
    (after base max maxRetries turns).step maxRetries turn := by
  simp [after]

theorem requeues_after : (after base max maxRetries turns).queue.requeues key =
    (after base max maxRetries turns).retried key +
      (after base max maxRetries turns).lostRaces key := by
  induction turns using List.reverseRecOn with
  | nil => rfl
  | append_singleton rest turn ih =>
      rw [after_concat]
      exact requeues_step ih turn

theorem after_frame : (after base max maxRetries turns).queue.base = base ∧
    (after base max maxRetries turns).queue.max = max := by
  induction turns using List.reverseRecOn with
  | nil => exact ⟨rfl, rfl⟩
  | append_singleton rest turn ih =>
      rw [after_concat, (step_frame _ _ turn).1, (step_frame _ _ turn).2]
      exact ih

/-- No more failures are counted for a key than passes were made for it. -/
theorem requeues_le_countP :
    (after base max maxRetries turns).queue.requeues key ≤ turns.countP (·.IsFor key) := by
  induction turns using List.reverseRecOn with
  | nil => exact Nat.le_refl 0
  | append_singleton rest turn ih =>
      rw [after_concat, List.countP_append, List.countP_singleton]
      by_cases hturn : turn.IsFor key
      swap
      · rw [requeues_step_of_other hturn]
        omega
      · rw [if_pos (decide_eq_true hturn)]
        cases turn with
        | call c => exact hturn.elim
        | handle k result =>
            obtain rfl : k = key := hturn
            by_cases hp : Persists (after base max maxRetries rest).queue k maxRetries result
            · rw [(requeues_step_self result).1 hp]
              omega
            · rw [(requeues_step_self result).2 hp]
              omega

/-- Without the passes for other keys, as many failures are counted for the key. -/
theorem requeues_after_filter :
    (after base max maxRetries (turns.filter (·.IsFor key))).queue.requeues key =
      (after base max maxRetries turns).queue.requeues key := by
  induction turns using List.reverseRecOn with
  | nil => rfl
  | append_singleton rest turn ih =>
      rw [List.filter_append, List.filter_singleton, after_concat]
      by_cases hturn : turn.IsFor key
      swap
      · rw [requeues_step_of_other hturn]
        simpa [hturn] using ih
      · simp only [hturn, decide_true, Bool.cond_true, after_concat]
        cases turn with
        | call c => exact hturn.elim
        | handle k result =>
            obtain rfl : k = key := hturn
            have hsame : Persists (after base max maxRetries (rest.filter (·.IsFor k))).queue k
                maxRetries result ↔
                Persists (after base max maxRetries rest).queue k maxRetries result :=
              persists_congr ih
            by_cases hp : Persists (after base max maxRetries rest).queue k maxRetries result
            · rw [(requeues_step_self result).1 hp, (requeues_step_self result).1 (hsame.mpr hp), ih]
            · rw [(requeues_step_self result).2 hp,
                (requeues_step_self result).2 (mt hsame.mp hp)]

/-- What becomes of the key after the next pass. -/
structure Rule (j : Journal) (key : ObjectKey) (maxRetries : ℕ) : Prop where
  lostRace : ∃ delay, fate j.queue key (.ok .requeue) maxRetries = .again delay
  lasting : ∀ e, e.isRetryable = false → fate j.queue key (.error e) maxRetries = .dropped
  /-- The limit is one for errors and lost races together. -/
  limit : ∀ e, e.isRetryable = true → (fate j.queue key (.error e) maxRetries = .dropped ↔
    maxRetries ≤ j.retried key + j.lostRaces key)
  passing : ∀ e, e.isRetryable = true → fate j.queue key (.error e) maxRetries ≠ .dropped →
    ∃ delay, fate j.queue key (.error e) maxRetries = .again delay
  /-- It is a limit for errors alone where the lost races do not take the sum up to it. -/
  errorsAlone : ∀ e, e.isRetryable = true →
    ((fate j.queue key (.error e) maxRetries = .dropped ↔ maxRetries ≤ j.retried key) ↔
      (maxRetries ≤ j.retried key ∨ j.retried key + j.lostRaces key < maxRetries))

theorem rule_of_requeues {j : Journal} {key : ObjectKey}
    (h : j.queue.requeues key = j.retried key + j.lostRaces key) (maxRetries : ℕ) :
    j.Rule key maxRetries := by
  have hlimit : ∀ e : PlaneError, e.isRetryable = true →
      (fate j.queue key (.error e) maxRetries = .dropped ↔ maxRetries ≤ j.queue.requeues key) := by
    intro e he
    by_cases hlt : j.queue.requeues key < maxRetries
    · have hp : Persists j.queue key maxRetries (.error e) := ⟨he, hlt⟩
      simp [fate_of_persists hp, hlt]
    · have hp : ¬Persists j.queue key maxRetries (.error e) := fun hp => hlt hp.2
      simp [fate_error_of_not_persists hp, not_lt.mp hlt]
  constructor
  · exact ⟨_, fate_of_persists trivial⟩
  · intro e he
    apply fate_error_of_not_persists
    intro hp
    rw [hp.1] at he
    cases he
  · intro e he
    rw [hlimit e he, h]
  · intro e he hkept
    rw [ne_eq, hlimit e he, not_le] at hkept
    exact ⟨_, fate_of_persists ⟨he, hkept⟩⟩
  · intro e he
    rw [hlimit e he, h]
    omega

/-- After any passes, one that has lost a race has its key added again, and an error that will not go
away drops it.  An error that may go away drops it exactly if the retried errors and the lost races
since the key was last settled or dropped have reached the limit together, and has it added again
otherwise.  What becomes of the key is the same without the passes for other keys.  The count of
failures fits 32 bits as long as fewer than `2 ^ 32` passes were made for the key. -/
theorem rule_of_turns :
    (after base max maxRetries turns).Rule key maxRetries ∧
      (∀ result, fate (after base max maxRetries (turns.filter (·.IsFor key))).queue key result
        maxRetries = fate (after base max maxRetries turns).queue key result maxRetries) ∧
      (turns.countP (·.IsFor key) < 2 ^ 32 →
        (after base max maxRetries turns).queue.requeues key < 2 ^ 32) := by
  refine ⟨rule_of_requeues (requeues_after base max maxRetries turns key) maxRetries, ?_, ?_⟩
  · intro result
    apply fate_congr
    · rw [(after_frame ..).1, (after_frame ..).1]
    · rw [(after_frame ..).2, (after_frame ..).2]
    · exact requeues_after_filter base max maxRetries turns key
  · intro hfew
    have hle := requeues_le_countP base max maxRetries turns key
    omega

end runs

/-- A key that loses a race, with one retry allowed. -/
def racingKey : ObjectKey := ⟨.listener, "default", "foo"⟩

def afterLostRace : Journal :=
  after (.ofMillis 100) (.ofMillis 1000) 1 [.handle racingKey (.ok .requeue)]

/-- The first error after a lost race drops the key, although no error has been retried yet. -/
theorem dropped_after_lost_race :
    (PlaneError.unavailable "down").isRetryable = true ∧ afterLostRace.retried racingKey = 0 ∧
      fate afterLostRace.queue racingKey (.error (.unavailable "down")) 1 = .dropped := by
  decide

end Journal
end ControlPlane.Controller
