import ControlPlane.Controller.Controller
import Mathlib.Tactic

/-! # The work queue keeps what it is given

A key that was added and not yet taken up is dirty; it waits to be handed out unless a worker holds
it, and then it waits as soon as the worker is done.  This is the invariant `Sound`; the lemmas
say what each operation does to the dirty keys and to those that workers hold. -/

namespace ControlPlane.WorkQueue

variable {κ : Type} {q : WorkQueue κ} {key k : κ}

/-- A queue that is not shut down, in which exactly the dirty keys wait that no worker holds, each
once. -/
structure Sound (q : WorkQueue κ) : Prop where
  isOpen : q.isShutDown = false
  waiting : ∀ k, k ∈ q.pending ↔ k ∈ q.dirty ∧ k ∉ q.processing
  apart : q.pending.Nodup

theorem new_sound (base max : Duration) : Sound (new base max : WorkQueue κ) where
  isOpen := rfl
  waiting k := by simp [new]
  apart := List.nodup_nil

/-- A dirty key waits or is held. -/
theorem Sound.dirty_eq_nil (h : q.Sound) (hpending : q.pending = [])
    (hprocessing : q.processing = []) : q.dirty = [] := by
  rw [List.eq_nil_iff_forall_not_mem]
  intro k hk
  have := (h.waiting k).mpr ⟨hk, by rw [hprocessing]; exact List.not_mem_nil⟩
  rw [hpending] at this
  exact List.not_mem_nil this

/-- Failures that are counted or forgotten are nothing to the keys. -/
theorem Sound.of_failures (h : q.Sound) (failures : List (κ × ℕ)) :
    Sound { q with failures := failures } :=
  ⟨h.isOpen, h.waiting, h.apart⟩

variable [DecidableEq κ]

/-! ### Adding -/

@[simp] theorem add_processing (q : WorkQueue κ) (key : κ) :
    (q.add key).processing = q.processing := by
  unfold add
  split
  · rfl
  · split <;> rfl

theorem Sound.mem_dirty_add (h : q.Sound) : k ∈ (q.add key).dirty ↔ k = key ∨ k ∈ q.dirty := by
  unfold add
  rw [h.isOpen]
  split
  · rename_i hmem
    simp only [Bool.false_eq_true, false_or] at hmem
    constructor
    · exact Or.inr
    · rintro (rfl | hk)
      · exact hmem
      · exact hk
  · split <;> exact List.mem_cons

theorem Sound.add (h : q.Sound) (key : κ) : (q.add key).Sound := by
  by_cases hmem : key ∈ q.dirty
  · rwa [WorkQueue.add, if_pos (Or.inr hmem)]
  have hnew : ¬(q.isShutDown = true ∨ key ∈ q.dirty) := by simp [h.isOpen, hmem]
  by_cases hheld : key ∈ q.processing
  · rw [WorkQueue.add, if_neg hnew, if_pos hheld]
    refine ⟨h.isOpen, fun k => ?_, h.apart⟩
    rw [h.waiting k, List.mem_cons]
    constructor
    · exact fun hk => ⟨Or.inr hk.1, hk.2⟩
    · rintro ⟨rfl | hk, hfree⟩
      · exact absurd hheld hfree
      · exact ⟨hk, hfree⟩
  · rw [WorkQueue.add, if_neg hnew, if_neg hheld]
    refine ⟨h.isOpen, fun k => ?_, ?_⟩
    · rw [List.mem_append, h.waiting k, List.mem_singleton, List.mem_cons]
      constructor
      · rintro (hk | rfl)
        · exact ⟨Or.inr hk.1, hk.2⟩
        · exact ⟨Or.inl rfl, hheld⟩
      · rintro ⟨rfl | hk, hfree⟩
        · exact Or.inr rfl
        · exact Or.inl ⟨hk, hfree⟩
    · rw [List.nodup_append]
      refine ⟨h.apart, List.nodup_singleton key, fun a ha b hb => ?_⟩
      rw [List.mem_singleton] at hb
      rintro rfl
      rw [hb] at ha
      exact hmem ((h.waiting key).mp ha).1

/-- What adding keys one after the other comes to. -/
theorem Sound.addMany (h : q.Sound) (keys : List κ) :
    (keys.foldl WorkQueue.add q).Sound ∧
      (keys.foldl WorkQueue.add q).processing = q.processing ∧
      ∀ k, k ∈ (keys.foldl WorkQueue.add q).dirty ↔ k ∈ keys ∨ k ∈ q.dirty := by
  induction keys generalizing q with
  | nil => exact ⟨h, rfl, fun k => by simp⟩
  | cons key rest ih =>
      obtain ⟨hsound, hprocessing, hdirty⟩ := ih (h.add key)
      refine ⟨hsound, hprocessing.trans (add_processing q key), fun k => ?_⟩
      rw [List.foldl_cons, hdirty, h.mem_dirty_add, List.mem_cons]
      tauto

/-! ### Handing out and taking back -/

/-- A key that is handed out was dirty and free; now it is held and not dirty. -/
theorem Sound.get? (h : q.Sound) {t : WorkQueue κ} (hget : q.get? = some (key, t)) :
    t.Sound ∧ key ∈ q.dirty ∧ key ∉ q.processing ∧
      (∀ k, k ∈ t.dirty ↔ k ∈ q.dirty ∧ k ≠ key) ∧
      ∀ k, k ∈ t.processing ↔ k = key ∨ k ∈ q.processing := by
  unfold WorkQueue.get? at hget
  rw [h.isOpen, if_neg Bool.false_ne_true] at hget
  split at hget
  · cases hget
  · rename_i first rest hpending
    obtain ⟨rfl, rfl⟩ := Prod.mk.inj (Option.some.inj hget)
    obtain ⟨hdirty, hfree⟩ := (h.waiting first).mp (hpending ▸ List.mem_cons_self)
    have hapart := h.apart
    rw [hpending, List.nodup_cons] at hapart
    have hheld : ∀ k, k ∈ first :: q.processing.filter (· ≠ first) ↔
        k = first ∨ k ∈ q.processing := by
      intro k
      simp only [List.mem_cons, List.mem_filter, decide_eq_true_eq]
      by_cases hk : k = first
      · simp [hk]
      · simp [hk]
    have hleft : ∀ k, k ∈ q.dirty.filter (· ≠ first) ↔ k ∈ q.dirty ∧ k ≠ first := by
      intro k
      rw [List.mem_filter, decide_eq_true_eq]
    refine ⟨⟨rfl, fun k => ?_, hapart.2⟩, hdirty, hfree, hleft, hheld⟩
    have hwait := h.waiting k
    rw [hpending, List.mem_cons] at hwait
    simp only [hheld, hleft]
    by_cases hk : k = first
    · subst hk
      simpa using hapart.1
    · simpa [hk] using hwait

@[simp] theorem done_dirty (q : WorkQueue κ) (key : κ) : (q.done key).dirty = q.dirty := by
  unfold done
  dsimp only
  split <;> rfl

theorem mem_processing_done : k ∈ (q.done key).processing ↔ k ∈ q.processing ∧ k ≠ key := by
  unfold done
  dsimp only
  split <;> exact List.mem_filter.trans (and_congr_right fun _ => decide_eq_true_iff)

/-- A key that comes back dirty waits again. -/
theorem Sound.done (h : q.Sound) (hkey : key ∈ q.processing) : (q.done key).Sound := by
  have hfree : key ∉ q.pending := fun hmem => ((h.waiting key).mp hmem).2 hkey
  have hleft : ∀ k, k ∈ q.processing.filter (· ≠ key) ↔ k ∈ q.processing ∧ k ≠ key := by
    intro k
    rw [List.mem_filter, decide_eq_true_eq]
  unfold WorkQueue.done
  rw [h.isOpen]
  dsimp only
  split
  · rename_i hdirty
    refine ⟨rfl, fun k => ?_, ?_⟩
    · rw [List.mem_append, h.waiting k, List.mem_singleton, hleft]
      by_cases hk : k = key
      · simpa [hk] using hdirty.1
      · simp [hk]
    · rw [List.nodup_append]
      refine ⟨h.apart, List.nodup_singleton key, fun a ha b hb => ?_⟩
      rw [List.mem_singleton] at hb
      rintro rfl
      exact hfree (hb ▸ ha)
  · rename_i hclean
    refine ⟨rfl, fun k => ?_, h.apart⟩
    rw [h.waiting k, hleft]
    by_cases hk : k = key
    · subst hk
      have : k ∉ q.dirty := fun hmem => hclean ⟨hmem, rfl⟩
      simp [this]
    · simp [hk]

end ControlPlane.WorkQueue
