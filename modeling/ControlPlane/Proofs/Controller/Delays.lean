import ControlPlane.Controller.WorkQueue
import Mathlib.Tactic

/-! # Delays along a history

Whatever else is done with a queue, the failures that it counts for a key are the times that the key
was put off since it was last forgotten (`requeues_after`), and this number alone fixes the next
delay (`nanos_nextDelay`).

The delay is to double each time until it reaches the maximum.  It does so for 32 times; then the
factor has reached the greatest 32-bit integer and stays there, and if the maximum lies higher still,
it is never reached.  The module says when the delay is the one that is to be expected, for every
history (`nextDelay_doubles`). -/

namespace ControlPlane

/-! ### Factors and delays -/

/-- The factor of the n-th attempt after the first: the power of two, as far as 32 bits hold it. -/
theorem backoffFactor_succ (n : ℕ) : backoffFactor (n + 1) = min (2 ^ n) (2 ^ 32 - 1) := by
  unfold backoffFactor
  simp only [Nat.pow_eq, Nat.add_sub_cancel]
  split
  · have hle : 2 ^ n ≤ 2 ^ 31 := Nat.pow_le_pow_right (by omega) (by omega)
    omega
  · have hle : 2 ^ 32 ≤ 2 ^ n := Nat.pow_le_pow_right (by omega) (by omega)
    omega

/-- The product does not saturate before it has passed the maximum. -/
theorem nanos_backoff_succ (n : ℕ) (base : Duration) {max : Duration}
    (hmax : max.nanos ≤ Duration.greatest.nanos) :
    (backoff (n + 1) base max).nanos = min (base.nanos * min (2 ^ n) (2 ^ 32 - 1)) max.nanos := by
  unfold backoff Duration.scale
  rw [if_neg (Nat.succ_ne_zero n), backoffFactor_succ]
  dsimp only
  rw [min_assoc, min_eq_right hmax]

/-- Where the factor has stopped growing, the delay is too short, unless there is nothing to
multiply or the maximum has been reached. -/
theorem min_mul_eq_iff (base max n : ℕ) :
    min (base * min (2 ^ n) (2 ^ 32 - 1)) max = min (base * 2 ^ n) max ↔
      n < 32 ∨ base = 0 ∨ max ≤ base * (2 ^ 32 - 1) := by
  by_cases hn : n < 32
  · have hle : 2 ^ n ≤ 2 ^ 31 := Nat.pow_le_pow_right (by omega) (by omega)
    rw [min_eq_left (by omega : 2 ^ n ≤ 2 ^ 32 - 1)]
    simp [hn]
  · have hle : 2 ^ 32 ≤ 2 ^ n := Nat.pow_le_pow_right (by omega) (by omega)
    rw [min_eq_right (by omega : 2 ^ 32 - 1 ≤ 2 ^ n)]
    rcases Nat.eq_zero_or_pos base with rfl | hpos
    · simp
    · have hlt : base * (2 ^ 32 - 1) < base * 2 ^ n := Nat.mul_lt_mul_of_pos_left (by omega) hpos
      omega

namespace WorkQueue

/-! ### Histories -/

/-- What is done with a queue apart from counting failures. -/
inductive Call (κ : Type) where
  | add (key : κ)
  | get
  | done (key : κ)
  | shutdown
deriving DecidableEq, Repr

/-- What is done with a queue. -/
inductive Deed (κ : Type) where
  | call (call : Call κ)
  /-- A key is put off: a failure is counted, and the key is to be added after the delay. -/
  | delay (key : κ)
  | forget (key : κ)
deriving DecidableEq, Repr

/-- The deed is about the failures of the key. -/
def Deed.Counts {κ : Type} (key : κ) (deed : Deed κ) : Prop := deed = delay key ∨ deed = forget key

variable {κ : Type} [DecidableEq κ]

instance (key : κ) (deed : Deed κ) : Decidable (deed.Counts key) :=
  inferInstanceAs (Decidable (deed = .delay key ∨ deed = .forget key))

def Call.run (q : WorkQueue κ) : Call κ → WorkQueue κ
  | add key => q.add key
  | get => match q.get? with
    | none => q
    | some (_, rest) => rest
  | done key => q.done key
  | shutdown => q.shutdown

def Deed.run (q : WorkQueue κ) : Deed κ → WorkQueue κ
  | call c => c.run q
  | delay key => (q.addRateLimited key).1
  | forget key => q.forget key

/-- A queue after all that was done with it. -/
def after (base max : Duration) (history : List (Deed κ)) : WorkQueue κ :=
  history.foldl Deed.run (new base max)

/-- The delay of a key that is put off next. -/
def nextDelay (base max : Duration) (history : List (Deed κ)) (key : κ) : Duration :=
  ((after base max history).addRateLimited key).2

/-- How often a key was put off since it was last forgotten. -/
def streak (key : κ) (history : List (Deed κ)) : ℕ :=
  (history.reverse.takeWhile (· ≠ .forget key)).count (.delay key)

section deeds
variable {q : WorkQueue κ} {key k : κ}

/-! ### What a deed does to the failures -/

/-- The call leaves the queue as it was in all that delays depend on. -/
theorem Call.run_frame (q : WorkQueue κ) (c : Call κ) :
    (c.run q).failures = q.failures ∧ (c.run q).base = q.base ∧ (c.run q).max = q.max := by
  cases c with
  | add key =>
      simp only [run, WorkQueue.add]
      split_ifs <;> exact ⟨rfl, rfl, rfl⟩
  | get =>
      simp only [run, WorkQueue.get?]
      cases q.pending <;> split_ifs <;> exact ⟨rfl, rfl, rfl⟩
  | done key =>
      simp only [run, WorkQueue.done]
      split_ifs <;> exact ⟨rfl, rfl, rfl⟩
  | shutdown => exact ⟨rfl, rfl, rfl⟩

@[simp] theorem Call.requeues_run (q : WorkQueue κ) (c : Call κ) (k : κ) :
    (c.run q).requeues k = q.requeues k := by
  unfold requeues
  rw [(c.run_frame q).1]

/-- What is counted for a key is not looked for among the others. -/
theorem find?_filter_ne (failures : List (κ × ℕ)) (h : k ≠ key) :
    (failures.filter (·.1 ≠ key)).find? (·.1 = k) = failures.find? (·.1 = k) := by
  rw [List.find?_filter]
  congr 1
  funext f
  by_cases hf : f.1 = k
  · simp [hf, h]
  · simp [hf]

theorem requeues_addRateLimited (q : WorkQueue κ) (key k : κ) :
    (q.addRateLimited key).1.requeues k = q.requeues k + if k = key then 1 else 0 := by
  unfold addRateLimited
  by_cases hk : k = key
  · subst hk
    simp [requeues]
  · have hkey : key ≠ k := fun h => hk h.symm
    simp only [requeues, List.find?_cons, hkey, hk, decide_false, if_false, add_zero]
    rw [find?_filter_ne _ hk]

theorem requeues_forget (q : WorkQueue κ) (key k : κ) :
    (q.forget key).requeues k = if k = key then 0 else q.requeues k := by
  unfold forget requeues
  by_cases hk : k = key
  · subst hk
    rw [if_pos rfl, List.find?_eq_none.mpr]
    · rfl
    · intro f hf
      simpa using (List.mem_filter.mp hf).2
  · rw [if_neg hk, find?_filter_ne _ hk]

theorem Deed.requeues_run (q : WorkQueue κ) (deed : Deed κ) (key : κ) :
    (deed.run q).requeues key = if deed = .forget key then 0
      else q.requeues key + if deed = .delay key then 1 else 0 := by
  cases deed with
  | call c => simp [Deed.run]
  | delay k => simp [Deed.run, requeues_addRateLimited, eq_comm]
  | forget k => simp [Deed.run, requeues_forget, eq_comm]

theorem Deed.run_frame (q : WorkQueue κ) (deed : Deed κ) :
    (deed.run q).base = q.base ∧ (deed.run q).max = q.max := by
  cases deed with
  | call c => exact (c.run_frame q).2
  | delay key => exact ⟨rfl, rfl⟩
  | forget key => exact ⟨rfl, rfl⟩

end deeds

/-! ### What a history comes to -/

section histories
variable {base max : Duration} {history more : List (Deed κ)} {deed : Deed κ} {key : κ}

theorem after_concat (base max : Duration) (history : List (Deed κ)) (deed : Deed κ) :
    after base max (history ++ [deed]) = deed.run (after base max history) := by
  simp [after]

theorem after_frame (base max : Duration) (history : List (Deed κ)) :
    (after base max history).base = base ∧ (after base max history).max = max := by
  induction history using List.reverseRecOn with
  | nil => exact ⟨rfl, rfl⟩
  | append_singleton rest deed ih =>
      rw [after_concat, (deed.run_frame _).1, (deed.run_frame _).2]
      exact ih

theorem streak_concat (key : κ) (history : List (Deed κ)) (deed : Deed κ) :
    streak key (history ++ [deed]) =
      if deed = .forget key then 0 else streak key history + if deed = .delay key then 1 else 0 := by
  unfold streak
  rw [List.reverse_append, List.reverse_singleton, List.singleton_append, List.takeWhile_cons]
  by_cases hforget : deed = .forget key
  · simp [hforget]
  · simp [hforget, List.count_cons]

/-- The queue counts for a key how often it was put off since it was last forgotten. -/
theorem requeues_after (base max : Duration) (history : List (Deed κ)) (key : κ) :
    (after base max history).requeues key = streak key history := by
  induction history using List.reverseRecOn with
  | nil => rfl
  | append_singleton rest deed ih =>
      rw [after_concat, Deed.requeues_run, streak_concat, ih]

/-- The next delay depends on the history by one number. -/
theorem nextDelay_eq (base max : Duration) (history : List (Deed κ)) (key : κ) :
    nextDelay base max history key = backoff (streak key history + 1) base max := by
  obtain ⟨hbase, hmax⟩ := after_frame base max history
  unfold nextDelay addRateLimited
  dsimp only
  rw [requeues_after, hbase, hmax]

theorem nanos_nextDelay (base : Duration) (hmax : max.nanos ≤ Duration.greatest.nanos)
    (history : List (Deed κ)) (key : κ) : (nextDelay base max history key).nanos =
      min (base.nanos * min (2 ^ streak key history) (2 ^ 32 - 1)) max.nanos := by
  rw [nextDelay_eq, nanos_backoff_succ _ _ hmax]

theorem streak_le_count (key : κ) (history : List (Deed κ)) :
    streak key history ≤ history.count (.delay key) := by
  rw [← List.count_reverse]
  exact (List.takeWhile_sublist _).count_le _

/-- A key that is not forgotten is counted on. -/
theorem streak_le_append (h : .forget key ∉ more) :
    streak key history ≤ streak key (history ++ more) := by
  induction more using List.reverseRecOn with
  | nil => simp
  | append_singleton rest deed ih =>
      simp only [List.mem_append, List.mem_singleton, not_or] at h
      have hrest := ih h.1
      rw [← List.append_assoc, streak_concat, if_neg (fun heq => h.2 heq.symm)]
      omega

/-- Only what is done about the failures of the key counts. -/
theorem streak_filter (key : κ) (history : List (Deed κ)) :
    streak key (history.filter (·.Counts key)) = streak key history := by
  induction history using List.reverseRecOn with
  | nil => rfl
  | append_singleton rest deed ih =>
      rw [List.filter_append, List.filter_singleton, streak_concat]
      by_cases hcounts : deed.Counts key
      · simp only [hcounts, decide_true, Bool.cond_true]
        rw [streak_concat, ih]
      · have hother := not_or.mp hcounts
        simp [hcounts, ih, hother.1, hother.2]

end histories

/-! ### The law of delays -/

/-- Let a key be put off once more after any history.  With each time that it was put off since it
was last forgotten its delay has doubled, up to the maximum, provided that there were less than 32
such times, that there is no delay at all, or that the maximum is within reach of 32 bits; and in no
other case.  In any case the delays do not decrease until the key is forgotten, they do not exceed
the maximum, the count of failures fits 32 bits as long as the key was put off less than `2 ^ 32`
times, and what is done about other keys makes no difference. -/
theorem nextDelay_doubles (base : Duration) {max : Duration}
    (hmax : max.nanos ≤ Duration.greatest.nanos) (history : List (Deed κ)) (key : κ) :
    ((nextDelay base max history key).nanos =
        min (base.nanos * 2 ^ streak key history) max.nanos ↔
      streak key history < 32 ∨ base.nanos = 0 ∨ max.nanos ≤ base.nanos * (2 ^ 32 - 1)) ∧
    (nextDelay base max history key).nanos =
      min (base.nanos * min (2 ^ streak key history) (2 ^ 32 - 1)) max.nanos ∧
    (∀ more, .forget key ∉ more → (nextDelay base max history key).nanos ≤
      (nextDelay base max (history ++ more) key).nanos) ∧
    (nextDelay base max history key).nanos ≤ max.nanos ∧
    (history.count (.delay key) + 1 < 2 ^ 32 →
      ((after base max history).addRateLimited key).1.requeues key < 2 ^ 32) ∧
    nextDelay base max (history.filter (·.Counts key)) key = nextDelay base max history key := by
  have hdelay (history : List (Deed κ)) := nanos_nextDelay base hmax history key
  refine ⟨?_, hdelay history, ?_, ?_, ?_, ?_⟩
  · rw [hdelay]
    exact min_mul_eq_iff _ _ _
  · intro more hmore
    have hpow : 2 ^ streak key history ≤ 2 ^ streak key (history ++ more) :=
      Nat.pow_le_pow_right (by omega) (streak_le_append hmore)
    have hfactor : min (2 ^ streak key history) (2 ^ 32 - 1) ≤
        min (2 ^ streak key (history ++ more)) (2 ^ 32 - 1) := by omega
    have hproduct := Nat.mul_le_mul_left base.nanos hfactor
    rw [hdelay, hdelay]
    omega
  · rw [hdelay]
    exact min_le_right _ _
  · intro hfew
    have hle := streak_le_count key history
    rw [requeues_addRateLimited, requeues_after, if_pos rfl]
    omega
  · rw [nextDelay_eq, nextDelay_eq, streak_filter]

/-- A key is put off twice and once more after it was forgotten, another one in between. -/
def patchyHistory : List (Deed Char) :=
  [.delay 'a', .delay 'b', .call (.add 'a'), .delay 'a', .forget 'a', .call .get, .delay 'a',
    .delay 'b', .call (.done 'a')]

theorem nextDelay_in_patches :
    (nextDelay (.ofMillis 5) (.ofMillis 60000) patchyHistory 'a') = .ofMillis 10 ∧
      (nextDelay (.ofMillis 5) (.ofMillis 60000) patchyHistory 'a').nanos =
        min ((Duration.ofMillis 5).nanos * 2 ^ streak 'a' patchyHistory)
          (Duration.ofMillis 60000).nanos := by
  have hfits : (Duration.ofMillis 60000).nanos ≤ Duration.greatest.nanos := by decide +kernel
  obtain ⟨hlaw, -⟩ := nextDelay_doubles (.ofMillis 5) hfits patchyHistory 'a'
  have hshort : streak 'a' patchyHistory < 32 := by decide +kernel
  exact ⟨by decide +kernel, hlaw.mpr (Or.inl hshort)⟩

/-- A key that is put off 32 times and never forgotten. -/
def longHistory : List (Deed Char) := List.replicate 32 (.delay 'a')

/-- With a maximum beyond reach the 33rd delay is one unit short of twice the one before. -/
theorem nextDelay_falls_short :
    streak 'a' longHistory = 32 ∧
      (Duration.ofMillis 18446744073709551).nanos ≤ Duration.greatest.nanos ∧
      (nextDelay (.ofMillis 1) (.ofMillis 18446744073709551) longHistory 'a') =
        .ofMillis 4294967295 ∧
      (nextDelay (.ofMillis 1) (.ofMillis 18446744073709551) longHistory 'a').nanos ≠
        min ((Duration.ofMillis 1).nanos * 2 ^ streak 'a' longHistory)
          (Duration.ofMillis 18446744073709551).nanos := by
  decide +kernel

end WorkQueue
end ControlPlane
