import ControlPlane.Proofs.Controller.Queue
import ControlPlane.Proofs.Runs

/-! # Workers around a queue

Any number of workers add keys to a queue, take keys from it and give them back, put keys off until
their delays run out, and shut the queue down, in any order (`Crew.step`).  All that is asked of
them is that a worker gives back only what it holds, so it does so once for each key that it got.

Two invariants carry everything.  `Sound` says how the three sets of the queue stand to each other
and to the workers: nothing waits twice, what waits is with nobody, and what is being processed is
what the workers hold.  `Remembers` ties the queue to the moves that were made: a key that a worker
holds is dirty exactly if it was added since the worker got it.  Together they give what a queue
promises to those who use it (`Crew.orderly_of_run`): no key is with two workers, no addition is
lost, and after the shutdown nothing is handed out any more. -/

namespace ControlPlane

/-! ### Queues that are shut down -/

namespace WorkQueue

section shutdown
variable {κ : Type} [DecidableEq κ] {q t : WorkQueue κ} {key k : κ}

@[simp] theorem add_isShutDown (q : WorkQueue κ) (key : κ) :
    (q.add key).isShutDown = q.isShutDown := by
  unfold add
  split
  · rfl
  · split <;> rfl

@[simp] theorem done_isShutDown (q : WorkQueue κ) (key : κ) :
    (q.done key).isShutDown = q.isShutDown := by
  unfold done
  dsimp only
  split <;> rfl

theorem add_of_isShutDown (h : q.isShutDown = true) (key : κ) : q.add key = q := by
  unfold add
  rw [if_pos (Or.inl h)]

theorem get?_of_isShutDown (h : q.isShutDown = true) : q.get? = none := by
  unfold get?
  rw [if_pos h]

theorem isShutDown_of_get? (h : q.get? = some (key, t)) :
    q.isShutDown = false ∧ t.isShutDown = false := by
  have hopen : q.isShutDown = false := by
    rw [← Bool.not_eq_true]
    intro hshut
    rw [get?_of_isShutDown hshut] at h
    cases h
  refine ⟨hopen, ?_⟩
  unfold get? at h
  rw [hopen, if_neg Bool.false_ne_true] at h
  split at h
  · cases h
  · obtain ⟨rfl, rfl⟩ := Prod.mk.inj (Option.some.inj h)
    rfl

theorem done_pending_of_isShutDown (h : q.isShutDown = true) (key : κ) :
    (q.done key).pending = q.pending := by
  unfold done
  simp [h]

omit [DecidableEq κ] in
/-- In an open queue the keys that wait are apart by its order; in another one that has to be known
from before. -/
theorem waiting_apart (hopen : q.isShutDown = false → q.Sound)
    (hshut : q.isShutDown = true → q.pending.Nodup ∧ ∀ k ∈ q.pending, k ∉ q.processing) :
    q.pending.Nodup ∧ ∀ k ∈ q.pending, k ∉ q.processing := by
  cases hq : q.isShutDown with
  | false => exact ⟨(hopen hq).apart, fun k hk => (((hopen hq).waiting k).mp hk).2⟩
  | true => exact hshut hq

end shutdown
end WorkQueue

/-- A work queue with the workers who hold its keys and the keys whose delays have not run out. -/
structure Crew (ω κ : Type) where
  queue : WorkQueue κ
  /-- Who holds which key. -/
  held : List (ω × κ)
  delayed : List κ

namespace Crew

/-! ### Moves -/

inductive Move (ω κ : Type) where
  | add (key : κ)
  /-- A worker asks for a key and gets this one. -/
  | take (worker : ω) (key : κ)
  /-- A worker asks for a key and is told that there will be none. -/
  | dismiss (worker : ω)
  /-- A worker is done with a key. -/
  | giveBack (worker : ω) (key : κ)
  /-- A key is put off. -/
  | delay (key : κ)
  /-- The delay of a key runs out. -/
  | expire (key : κ)
  | forget (key : κ)
  | shutdown
deriving DecidableEq, Repr

/-- The key that a move adds to the queue. -/
def Move.added? {ω κ : Type} : Move ω κ → Option κ
  | add key | expire key => some key
  | take _ _ | dismiss _ | giveBack _ _ | delay _ | forget _ | shutdown => none

variable {ω κ : Type} [DecidableEq ω] [DecidableEq κ]

def new (base max : Duration) : Crew ω κ := ⟨.new base max, [], []⟩

/-- One move, if it can be made.  A worker that asks while nothing waits has to wait. -/
def step (c : Crew ω κ) : Move ω κ → Option (Crew ω κ)
  | .add key => some { c with queue := c.queue.add key }
  | .take worker key =>
    c.queue.get?.bind fun (first, queue) =>
      if first = key then some { c with queue := queue, held := (worker, key) :: c.held } else none
  | .dismiss _ => if c.queue.isShutDown then some c else none
  | .giveBack worker key =>
    if (worker, key) ∈ c.held then
      some { c with queue := c.queue.done key, held := c.held.erase (worker, key) }
    else none
  | .delay key =>
    some { c with queue := (c.queue.addRateLimited key).1, delayed := key :: c.delayed }
  | .expire key =>
    if key ∈ c.delayed then
      some { c with queue := c.queue.add key, delayed := c.delayed.erase key }
    else none
  | .forget key => some { c with queue := c.queue.forget key }
  | .shutdown => some { c with queue := c.queue.shutdown }

/-- The moves one after the other, if all can be made. -/
def run (c : Crew ω κ) (moves : List (Move ω κ)) : Option (Crew ω κ) := moves.foldlM step c

section moves
variable {c d : Crew ω κ} {m : Move ω κ} {worker w : ω} {key k : κ}

theorem step_take (h : c.step (.take worker key) = some d) :
    ∃ queue, c.queue.get? = some (key, queue) ∧
      d = { c with queue := queue, held := (worker, key) :: c.held } := by
  obtain ⟨⟨first, queue⟩, hget, hd⟩ := Option.bind_eq_some_iff.mp h
  dsimp only at hd
  split at hd
  · rename_i hfirst
    subst hfirst
    exact ⟨queue, hget, (Option.some.inj hd).symm⟩
  · cases hd

theorem step_giveBack (h : c.step (.giveBack worker key) = some d) :
    (worker, key) ∈ c.held ∧
      d = { c with queue := c.queue.done key, held := c.held.erase (worker, key) } := by
  rw [step] at h
  split at h
  · rename_i hheld
    exact ⟨hheld, (Option.some.inj h).symm⟩
  · cases h

theorem step_dismiss (h : c.step (.dismiss worker) = some d) :
    c.queue.isShutDown = true ∧ d = c := by
  rw [step] at h
  split at h
  · rename_i hshut
    exact ⟨hshut, (Option.some.inj h).symm⟩
  · cases h

/-- A move that adds a key does nothing else to the queue and the workers. -/
theorem step_added (h : c.step m = some d) (hkey : m.added? = some key) :
    d.queue = c.queue.add key ∧ d.held = c.held := by
  cases m with
  | add k =>
      obtain rfl := Option.some.inj hkey
      obtain rfl := Option.some.inj h
      exact ⟨rfl, rfl⟩
  | expire k =>
      obtain rfl := Option.some.inj hkey
      rw [step] at h
      split at h
      · obtain rfl := Option.some.inj h
        exact ⟨rfl, rfl⟩
      · cases h
  | take | dismiss | giveBack | delay | forget | shutdown => cases hkey

theorem isShutDown_step (h : c.step m = some d) :
    d.queue.isShutDown = true ↔ m = .shutdown ∨ c.queue.isShutDown = true := by
  cases m with
  | add key =>
      obtain rfl := Option.some.inj h
      simp
  | take worker key =>
      obtain ⟨queue, hget, rfl⟩ := step_take h
      obtain ⟨hbefore, hafter⟩ := WorkQueue.isShutDown_of_get? hget
      simp [hbefore, hafter]
  | dismiss worker =>
      obtain ⟨-, rfl⟩ := step_dismiss h
      simp
  | giveBack worker key =>
      obtain ⟨-, rfl⟩ := step_giveBack h
      simp
  | delay key =>
      obtain rfl := Option.some.inj h
      simp [WorkQueue.addRateLimited]
  | expire key =>
      rw [(step_added h rfl).1]
      simp
  | forget key =>
      obtain rfl := Option.some.inj h
      simp [WorkQueue.forget]
  | shutdown =>
      obtain rfl := Option.some.inj h
      simp [WorkQueue.shutdown]

/-- Once the queue is shut down nothing is handed out, and what waits is left as it is. -/
theorem step_of_isShutDown (hshut : c.queue.isShutDown = true) (h : c.step m = some d) :
    d.queue.pending = c.queue.pending ∧ ∀ w k, m ≠ .take w k := by
  cases m with
  | add key =>
      obtain rfl := Option.some.inj h
      simp [WorkQueue.add_of_isShutDown hshut]
  | take worker key =>
      obtain ⟨queue, hget, -⟩ := step_take h
      rw [WorkQueue.get?_of_isShutDown hshut] at hget
      cases hget
  | dismiss worker =>
      obtain ⟨-, rfl⟩ := step_dismiss h
      simp
  | giveBack worker key =>
      obtain ⟨-, rfl⟩ := step_giveBack h
      simp [WorkQueue.done_pending_of_isShutDown hshut]
  | delay key =>
      obtain rfl := Option.some.inj h
      simp [WorkQueue.addRateLimited]
  | expire key =>
      rw [(step_added h rfl).1, WorkQueue.add_of_isShutDown hshut]
      simp
  | forget key =>
      obtain rfl := Option.some.inj h
      simp [WorkQueue.forget]
  | shutdown =>
      obtain rfl := Option.some.inj h
      simp [WorkQueue.shutdown]

theorem run_of_isShutDown {more : List (Move ω κ)} (hshut : c.queue.isShutDown = true)
    (hrun : c.run more = some d) :
    d.queue.pending = c.queue.pending ∧ ∀ w k, .take w k ∉ more := by
  have hkept : d.queue.isShutDown = true ∧ d.queue.pending = c.queue.pending ∧
      ∀ w k, .take w k ∉ more := by
    refine run_induction (P := fun made e => e.queue.isShutDown = true ∧
      e.queue.pending = c.queue.pending ∧ ∀ w k, .take w k ∉ made) ?_ ?_ hrun
    · exact ⟨hshut, rfl, by simp⟩
    · rintro before m after q r - - ⟨hq, hpending, hbefore⟩ hm
      obtain ⟨hleft, hmove⟩ := step_of_isShutDown hq hm
      refine ⟨(isShutDown_step hm).mpr (Or.inr hq), hleft.trans hpending, fun w k hmem => ?_⟩
      rcases List.mem_append.mp hmem with hold | hnew
      · exact hbefore w k hold
      · exact hmove w k (List.mem_singleton.mp hnew).symm
  exact hkept.2

end moves

/-! ### What waits, and what is held -/

/-- Nothing waits twice, what waits is with nobody, and what is processed is what the workers
hold; an open queue is in order. -/
structure Sound (c : Crew ω κ) : Prop where
  nodup : c.queue.pending.Nodup
  free : ∀ k ∈ c.queue.pending, k ∉ c.queue.processing
  held : ∀ k, k ∈ c.queue.processing ↔ ∃ w, (w, k) ∈ c.held
  alone : (c.held.map Prod.snd).Nodup
  queue : c.queue.isShutDown = false → c.queue.Sound

omit [DecidableEq ω] [DecidableEq κ] in
theorem new_sound (base max : Duration) : (new base max : Crew ω κ).Sound where
  nodup := List.nodup_nil
  free k hk := by cases hk
  held k := by simp [new, WorkQueue.new]
  alone := List.nodup_nil
  queue _ := WorkQueue.new_sound base max

section sound
variable {c d : Crew ω κ} {m : Move ω κ} {worker w w' : ω} {key k : κ}

omit [DecidableEq ω] [DecidableEq κ] in
theorem Sound.eq_of_held (h : c.Sound) (hw : (w, k) ∈ c.held) (hw' : (w', k) ∈ c.held) :
    w = w' :=
  congrArg Prod.fst (List.inj_on_of_nodup_map h.alone hw hw' rfl)

omit [DecidableEq ω] [DecidableEq κ] in
/-- A change of the queue that has nothing to do with its workers. -/
theorem Sound.of_queue (h : c.Sound) {queue : WorkQueue κ} {delayed : List κ}
    (hprocessing : queue.processing = c.queue.processing)
    (hopen : queue.isShutDown = false → queue.Sound)
    (hshut : queue.isShutDown = true → queue.pending = c.queue.pending) :
    Sound { c with queue := queue, delayed := delayed } := by
  have hwaiting := WorkQueue.waiting_apart hopen fun hq => by
    rw [hshut hq, hprocessing]
    exact ⟨h.nodup, h.free⟩
  refine ⟨hwaiting.1, hwaiting.2, ?_, h.alone, hopen⟩
  rw [hprocessing]
  exact h.held

omit [DecidableEq ω] in
theorem Sound.add (h : c.Sound) (key : κ) (delayed : List κ) :
    Sound { c with queue := c.queue.add key, delayed := delayed } := by
  apply h.of_queue (WorkQueue.add_processing _ _)
  · intro hopen
    rw [WorkQueue.add_isShutDown] at hopen
    exact (h.queue hopen).add key
  · intro hshut
    rw [WorkQueue.add_isShutDown] at hshut
    rw [WorkQueue.add_of_isShutDown hshut]

omit [DecidableEq ω] in
/-- A worker gets a key that nobody holds. -/
theorem Sound.take (h : c.Sound) (worker : ω) {queue : WorkQueue κ}
    (hget : c.queue.get? = some (key, queue)) :
    Sound { c with queue := queue, held := (worker, key) :: c.held } := by
  have hopen := (WorkQueue.isShutDown_of_get? hget).1
  obtain ⟨hsound, -, hfree, -, hprocessing⟩ := (h.queue hopen).get? hget
  refine ⟨hsound.apart, fun k hk => ((hsound.waiting k).mp hk).2, fun k => ?_, ?_, fun _ => hsound⟩
  · rw [hprocessing, h.held k]
    constructor
    · rintro (rfl | ⟨w, hw⟩)
      · exact ⟨worker, List.mem_cons_self⟩
      · exact ⟨w, List.mem_cons_of_mem _ hw⟩
    · rintro ⟨w, hw⟩
      rcases List.mem_cons.mp hw with heq | hw
      · exact Or.inl (Prod.mk.inj heq).2
      · exact Or.inr ⟨w, hw⟩
  · rw [List.map_cons, List.nodup_cons]
    refine ⟨fun hmem => hfree ((h.held key).mpr ?_), h.alone⟩
    obtain ⟨⟨w, k⟩, hw, rfl⟩ := List.mem_map.mp hmem
    exact ⟨w, hw⟩

/-- What is left to the workers when one of them has given back a key. -/
theorem Sound.mem_held_erase (h : c.Sound) (hheld : (worker, key) ∈ c.held) :
    (w, k) ∈ c.held.erase (worker, key) ↔ (w, k) ∈ c.held ∧ k ≠ key := by
  have hnodup : c.held.Nodup := h.alone.of_map _
  rw [hnodup.mem_erase_iff, and_comm]
  apply and_congr_right
  intro hw
  constructor
  · rintro hne rfl
    exact hne (by rw [h.eq_of_held hw hheld])
  · rintro hne heq
    exact hne (Prod.mk.inj heq).2

theorem Sound.giveBack (h : c.Sound) (hheld : (worker, key) ∈ c.held) :
    Sound { c with queue := c.queue.done key, held := c.held.erase (worker, key) } := by
  have hprocessed : key ∈ c.queue.processing := (h.held key).mpr ⟨worker, hheld⟩
  have hsound : (c.queue.done key).isShutDown = false → (c.queue.done key).Sound := by
    intro hopen
    rw [WorkQueue.done_isShutDown] at hopen
    exact (h.queue hopen).done hprocessed
  have hwaiting := WorkQueue.waiting_apart hsound fun hq => by
    rw [WorkQueue.done_isShutDown] at hq
    rw [WorkQueue.done_pending_of_isShutDown hq]
    refine ⟨h.nodup, fun k hk hin => h.free k hk ?_⟩
    exact (WorkQueue.mem_processing_done.mp hin).1
  refine ⟨hwaiting.1, hwaiting.2, fun k => ?_, ?_, hsound⟩
  · simp only [WorkQueue.mem_processing_done, h.mem_held_erase hheld, h.held k, exists_and_right]
  · exact h.alone.sublist (List.erase_sublist.map Prod.snd)

theorem Sound.step (h : c.Sound) (hm : c.step m = some d) : d.Sound := by
  cases m with
  | add key =>
      obtain rfl := Option.some.inj hm
      exact h.add key c.delayed
  | take worker key =>
      obtain ⟨queue, hget, rfl⟩ := step_take hm
      exact h.take worker hget
  | dismiss worker =>
      obtain ⟨-, rfl⟩ := step_dismiss hm
      exact h
  | giveBack worker key =>
      obtain ⟨hheld, rfl⟩ := step_giveBack hm
      exact h.giveBack hheld
  | delay key =>
      obtain rfl := Option.some.inj hm
      exact h.of_queue rfl (fun hopen => (h.queue hopen).of_failures _) fun _ => rfl
  | expire key =>
      rw [Crew.step] at hm
      split at hm
      · obtain rfl := Option.some.inj hm
        exact h.add key _
      · cases hm
  | forget key =>
      obtain rfl := Option.some.inj hm
      exact h.of_queue rfl (fun hopen => (h.queue hopen).of_failures _) fun _ => rfl
  | shutdown =>
      obtain rfl := Option.some.inj hm
      exact h.of_queue rfl (fun hopen => absurd hopen (by simp [WorkQueue.shutdown])) fun _ => rfl

theorem Sound.run (h : c.Sound) {moves : List (Move ω κ)} (hrun : c.run moves = some d) :
    d.Sound :=
  run_keeps h (fun _ _ _ _ hq hm => hq.step hm) hrun

end sound

/-! ### What was done before -/

/-- The worker got the key and has not given it back. -/
def Holds (moves : List (Move ω κ)) (worker : ω) (key : κ) : Prop :=
  ∃ before after, moves = before ++ .take worker key :: after ∧ .giveBack worker key ∉ after

/-- The worker holds the key, which was added since the worker got it. -/
def AddedSince (moves : List (Move ω κ)) (worker : ω) (key : κ) : Prop :=
  ∃ before after, moves = before ++ .take worker key :: after ∧ .giveBack worker key ∉ after ∧
    ∃ m ∈ after, m.added? = some key

/-- The places of a value in a list that is one longer. -/
theorem exists_split_snoc_iff {α : Type} {P : List α → Prop} {l : List α} {a b : α} :
    (∃ before after, l ++ [b] = before ++ a :: after ∧ P after) ↔
      b = a ∧ P [] ∨ ∃ before after, l = before ++ a :: after ∧ P (after ++ [b]) := by
  constructor
  · rintro ⟨before, after, hsplit, hafter⟩
    rcases List.eq_nil_or_concat after with rfl | ⟨rest, last, rfl⟩
    · obtain ⟨-, hlast⟩ := List.append_inj' hsplit rfl
      exact Or.inl ⟨List.singleton_inj.mp hlast, hafter⟩
    · rw [List.concat_eq_append] at hsplit hafter
      rw [← List.cons_append, ← List.append_assoc] at hsplit
      obtain ⟨hl, hlast⟩ := List.append_inj' hsplit rfl
      rw [← List.singleton_inj.mp hlast] at hafter
      exact Or.inr ⟨before, rest, hl, hafter⟩
  · rintro (⟨rfl, hnil⟩ | ⟨before, after, rfl, hafter⟩)
    · exact ⟨l, [], rfl, hnil⟩
    · exact ⟨before, after ++ [b], by rw [← List.cons_append, ← List.append_assoc], hafter⟩

section remembers
variable {c d : Crew ω κ} {moves : List (Move ω κ)} {m : Move ω κ} {worker w : ω} {key k : κ}

omit [DecidableEq ω] [DecidableEq κ] in
theorem holds_snoc_iff : Holds (moves ++ [m]) w k ↔
    m = .take w k ∨ Holds moves w k ∧ m ≠ .giveBack w k := by
  unfold Holds
  rw [exists_split_snoc_iff]
  apply or_congr
  · simp
  · constructor
    · rintro ⟨before, after, hsplit, hnone⟩
      rw [List.mem_append, not_or, List.mem_singleton] at hnone
      exact ⟨⟨before, after, hsplit, hnone.1⟩, Ne.symm hnone.2⟩
    · rintro ⟨⟨before, after, hsplit, hnone⟩, hm⟩
      refine ⟨before, after, hsplit, ?_⟩
      rw [List.mem_append, not_or, List.mem_singleton]
      exact ⟨hnone, Ne.symm hm⟩

omit [DecidableEq ω] [DecidableEq κ] in
theorem addedSince_snoc_iff : AddedSince (moves ++ [m]) w k ↔
    (AddedSince moves w k ∨ Holds moves w k ∧ m.added? = some k) ∧ m ≠ .giveBack w k := by
  unfold AddedSince Holds
  rw [exists_split_snoc_iff]
  constructor
  · rintro (⟨-, -, m', hm', -⟩ | ⟨before, after, hsplit, hnone, m', hm', hkey⟩)
    · cases hm'
    · rw [List.mem_append, not_or, List.mem_singleton] at hnone
      refine ⟨?_, Ne.symm hnone.2⟩
      rcases List.mem_append.mp hm' with hold | hnew
      · exact Or.inl ⟨before, after, hsplit, hnone.1, m', hold, hkey⟩
      · rw [List.mem_singleton.mp hnew] at hkey
        exact Or.inr ⟨⟨before, after, hsplit, hnone.1⟩, hkey⟩
  · rintro ⟨⟨before, after, hsplit, hnone, m', hm', hkey⟩ | ⟨⟨before, after, hsplit, hnone⟩, hkey⟩,
      hm⟩
    · refine Or.inr ⟨before, after, hsplit, ?_, m', List.mem_append_left _ hm', hkey⟩
      rw [List.mem_append, not_or, List.mem_singleton]
      exact ⟨hnone, Ne.symm hm⟩
    · refine Or.inr ⟨before, after, hsplit, ?_, m, by simp, hkey⟩
      rw [List.mem_append, not_or, List.mem_singleton]
      exact ⟨hnone, Ne.symm hm⟩

omit [DecidableEq ω] [DecidableEq κ] in
theorem AddedSince.holds (h : AddedSince moves w k) : Holds moves w k := by
  obtain ⟨before, after, hsplit, hnone, -⟩ := h
  exact ⟨before, after, hsplit, hnone⟩

/-- The workers hold what they got and have not given back, and while the queue is open a key that
is held is dirty exactly if it was added meanwhile. -/
structure Remembers (moves : List (Move ω κ)) (c : Crew ω κ) : Prop where
  held : ∀ w k, (w, k) ∈ c.held ↔ Holds moves w k
  dirty : c.queue.isShutDown = false → ∀ w k, Holds moves w k →
    (k ∈ c.queue.dirty ↔ AddedSince moves w k)
  isShutDown : c.queue.isShutDown = true ↔ .shutdown ∈ moves

omit [DecidableEq ω] [DecidableEq κ] in
theorem new_remembers (base max : Duration) :
    Remembers [] (new base max : Crew ω κ) where
  held w k := by simp [new, Holds]
  dirty _ w k hholds := by simp [Holds] at hholds
  isShutDown := by simp [new, WorkQueue.new]

theorem Remembers.isShutDown_snoc (h : Remembers moves c) (hm : c.step m = some d) :
    d.queue.isShutDown = true ↔ .shutdown ∈ moves ++ [m] := by
  rw [isShutDown_step hm, h.isShutDown, List.mem_append, List.mem_singleton, or_comm, eq_comm]

theorem isOpen_of_step (hm : c.step m = some d) (hopen : d.queue.isShutDown = false) :
    c.queue.isShutDown = false := by
  rw [← Bool.not_eq_true] at hopen ⊢
  exact fun hshut => hopen ((isShutDown_step hm).mpr (Or.inr hshut))

/-- A move that is neither a key handed out nor one given back. -/
theorem Remembers.of_held (h : Remembers moves c) (hm : c.step m = some d)
    (hheld : d.held = c.held) (htake : ∀ w k, m ≠ .take w k) (hgive : ∀ w k, m ≠ .giveBack w k)
    (hdirty : d.queue.isShutDown = false → ∀ k, k ∈ d.queue.dirty ↔
      k ∈ c.queue.dirty ∨ m.added? = some k) : Remembers (moves ++ [m]) d := by
  have hholds : ∀ w k, Holds (moves ++ [m]) w k ↔ Holds moves w k := by
    intro w k
    simp [holds_snoc_iff, htake w k, hgive w k]
  refine ⟨fun w k => ?_, fun hopen w k hk => ?_, h.isShutDown_snoc hm⟩
  · rw [hheld, h.held, hholds]
  · have hbefore := isOpen_of_step hm hopen
    rw [hholds] at hk
    rw [hdirty hopen, h.dirty hbefore w k hk, addedSince_snoc_iff]
    simp [hk, hgive w k]

/-- A key that is handed out is not dirty, and the worker has had no addition yet. -/
theorem Remembers.take (h : Remembers moves c) (hs : c.Sound)
    (hm : c.step (.take worker key) = some d) : Remembers (moves ++ [.take worker key]) d := by
  have hshut := h.isShutDown_snoc hm
  obtain ⟨queue, hget, rfl⟩ := step_take hm
  have hopen := (WorkQueue.isShutDown_of_get? hget).1
  obtain ⟨-, -, hfree, hdirty, -⟩ := (hs.queue hopen).get? hget
  have hnobody : ∀ w, ¬Holds moves w key := by
    intro w hw
    exact hfree ((hs.held key).mpr ⟨w, (h.held w key).mpr hw⟩)
  refine ⟨fun w k => ?_, fun _ w k hk => ?_, hshut⟩
  · rw [holds_snoc_iff, List.mem_cons, h.held]
    simp [eq_comm]
  · rw [hdirty, addedSince_snoc_iff]
    rcases holds_snoc_iff.mp hk with hnew | ⟨hold, -⟩
    · obtain ⟨-, rfl⟩ := Move.take.inj hnew
      have hnone : ¬AddedSince moves w key := fun hadded => hnobody w hadded.holds
      simp [hnone, Move.added?]
    · have hne : k ≠ key := by
        rintro rfl
        exact hnobody w hold
      rw [h.dirty hopen w k hold]
      simp [hne, Move.added?]

theorem Remembers.giveBack (h : Remembers moves c) (hs : c.Sound)
    (hm : c.step (.giveBack worker key) = some d) :
    Remembers (moves ++ [.giveBack worker key]) d := by
  have hshut := h.isShutDown_snoc hm
  have hbefore := isOpen_of_step hm
  obtain ⟨hheld, rfl⟩ := step_giveBack hm
  refine ⟨fun w k => ?_, fun hopen w k hk => ?_, hshut⟩
  · have hnodup : c.held.Nodup := hs.alone.of_map _
    rw [hnodup.mem_erase_iff, holds_snoc_iff, h.held]
    simp only [reduceCtorEq, false_or, ne_eq, Prod.mk.injEq, Move.giveBack.injEq, and_comm, eq_comm]
  · rcases holds_snoc_iff.mp hk with hnew | ⟨hold, hne⟩
    · cases hnew
    · rw [WorkQueue.done_dirty, h.dirty (hbefore hopen) w k hold, addedSince_snoc_iff]
      simp [hne, Move.added?]

theorem Remembers.step (h : Remembers moves c) (hs : c.Sound) (hm : c.step m = some d) :
    Remembers (moves ++ [m]) d := by
  have hadded : ∀ {key}, m.added? = some key → d.queue.isShutDown = false →
      ∀ k, k ∈ d.queue.dirty ↔ k ∈ c.queue.dirty ∨ m.added? = some k := by
    intro key hkey hopen k
    have hsound := hs.queue (isOpen_of_step hm hopen)
    rw [(step_added hm hkey).1, hsound.mem_dirty_add, hkey, Option.some.injEq, or_comm, eq_comm]
  cases m with
  | add key => exact h.of_held hm (step_added hm rfl).2 (by simp) (by simp) (hadded rfl)
  | expire key => exact h.of_held hm (step_added hm rfl).2 (by simp) (by simp) (hadded rfl)
  | take worker key => exact h.take hs hm
  | giveBack worker key => exact h.giveBack hs hm
  | dismiss worker =>
      apply h.of_held hm (by rw [(step_dismiss hm).2]) (by simp) (by simp)
      simp [(step_dismiss hm).2, Move.added?]
  | delay key =>
      obtain rfl := Option.some.inj hm
      exact h.of_held hm rfl (by simp) (by simp) (by simp [Move.added?, WorkQueue.addRateLimited])
  | forget key =>
      obtain rfl := Option.some.inj hm
      exact h.of_held hm rfl (by simp) (by simp) (by simp [Move.added?, WorkQueue.forget])
  | shutdown =>
      obtain rfl := Option.some.inj hm
      exact h.of_held hm rfl (by simp) (by simp) (by simp [Move.added?, WorkQueue.shutdown])

theorem remembers_of_run {base max : Duration} (hrun : (new base max).run moves = some c) :
    Remembers moves c := by
  apply run_induction (new_remembers base max) _ hrun
  intro before m after q r _ hbefore hq hm
  exact hq.step ((new_sound base max).run hbefore) hm

end remembers

/-! ### No addition is lost -/

section lost
variable {c d : Crew ω κ} {m : Move ω κ} {key : κ}

/-- A dirty key stays dirty until it is handed out. -/
theorem Sound.dirty_step (h : c.Sound) (hm : c.step m = some d)
    (hopen : d.queue.isShutDown = false) (htake : ∀ w, m ≠ .take w key)
    (hkey : key ∈ c.queue.dirty) : key ∈ d.queue.dirty := by
  have hsound := h.queue (isOpen_of_step hm hopen)
  cases m with
  | add k =>
      rw [(step_added hm rfl).1, hsound.mem_dirty_add]
      exact Or.inr hkey
  | expire k =>
      rw [(step_added hm rfl).1, hsound.mem_dirty_add]
      exact Or.inr hkey
  | take worker k =>
      obtain ⟨queue, hget, rfl⟩ := step_take hm
      have hne : key ≠ k := by
        rintro rfl
        exact htake worker rfl
      exact ((hsound.get? hget).2.2.2.1 key).mpr ⟨hkey, hne⟩
  | dismiss worker =>
      obtain ⟨-, rfl⟩ := step_dismiss hm
      exact hkey
  | giveBack worker k =>
      obtain ⟨-, rfl⟩ := step_giveBack hm
      rwa [WorkQueue.done_dirty]
  | delay k | forget k | shutdown =>
      obtain rfl := Option.some.inj hm
      exact hkey

theorem isOpen_of_run {moves : List (Move ω κ)} (hrun : c.run moves = some d)
    (hopen : d.queue.isShutDown = false) : c.queue.isShutDown = false := by
  rw [← Bool.not_eq_true] at hopen ⊢
  intro hshut
  have hkept : d.queue.isShutDown = true :=
    run_keeps (P := fun e => e.queue.isShutDown = true) hshut
      (fun _ _ _ _ hq hm => (isShutDown_step hm).mpr (Or.inr hq)) hrun
  exact hopen hkept

theorem Sound.dirty_run (h : c.Sound) {moves : List (Move ω κ)} (hrun : c.run moves = some d)
    (hopen : d.queue.isShutDown = false) (htake : ∀ w, .take w key ∉ moves)
    (hkey : key ∈ c.queue.dirty) : key ∈ d.queue.dirty := by
  have hkept : d.Sound ∧ (d.queue.isShutDown = false → key ∈ d.queue.dirty) := by
    refine run_keeps (P := fun e => e.Sound ∧ (e.queue.isShutDown = false → key ∈ e.queue.dirty))
      ⟨h, fun _ => hkey⟩ ?_ hrun
    rintro m hmem q r ⟨hq, hdirty⟩ hm
    refine ⟨hq.step hm, fun hr => ?_⟩
    have hnot : ∀ w, m ≠ .take w key := by
      rintro w rfl
      exact htake w hmem
    exact hq.dirty_step hm hr hnot (hdirty (isOpen_of_step hm hr))
  exact hkept.2 hopen

/-- Between the addition of a key and a moment at which the queue is idle the key was handed
out. -/
theorem Sound.taken (h : c.Sound) {after : List (Move ω κ)} (hkey : m.added? = some key)
    (hrun : c.run (m :: after) = some d) (hopen : d.queue.isShutDown = false)
    (hpending : d.queue.pending = []) (hprocessing : d.queue.processing = []) :
    ∃ w, .take w key ∈ after := by
  obtain ⟨e, hm, hrest⟩ := Option.bind_eq_some_iff.mp hrun
  by_contra hnone
  have hbefore := h.queue (isOpen_of_run hrun hopen)
  have hadded : key ∈ e.queue.dirty := by
    rw [(step_added hm hkey).1, hbefore.mem_dirty_add]
    exact Or.inl rfl
  have hdirty := (h.step hm).dirty_run hrest hopen (fun w hw => hnone ⟨w, hw⟩) hadded
  have hidle := (h.run hrun).queue hopen
  rw [hidle.dirty_eq_nil hpending hprocessing] at hdirty
  cases hdirty

end lost

/-! ### What a queue promises -/

/-- What holds of a queue and its workers after some moves. -/
structure Orderly (moves : List (Move ω κ)) (c : Crew ω κ) : Prop where
  /-- No key waits twice. -/
  nodup : c.queue.pending.Nodup
  /-- A key that waits is not being processed. -/
  free : ∀ k ∈ c.queue.pending, k ∉ c.queue.processing
  /-- What is being processed is what the workers hold. -/
  processing : ∀ k, k ∈ c.queue.processing ↔ ∃ w, Holds moves w k
  alone : ∀ w w' k, Holds moves w k → Holds moves w' k → w = w'
  /-- Nobody gets a key that a worker still holds. -/
  exclusive : ∀ w k d, c.step (.take w k) = some d → ∀ w', ¬Holds moves w' k
  isShutDown : c.queue.isShutDown = true ↔ .shutdown ∈ moves
  /-- Before the shutdown a key is dirty if it waits, or was added since its worker got it. -/
  dirty : c.queue.isShutDown = false → ∀ k, k ∈ c.queue.dirty ↔
    k ∈ c.queue.pending ∨ ∃ w, AddedSince moves w k
  /-- Whatever was added has been handed out since if the queue is idle before the shutdown. -/
  taken : c.queue.isShutDown = false → c.queue.pending = [] → c.queue.processing = [] →
    ∀ before m after k, moves = before ++ m :: after → m.added? = some k →
      ∃ w, .take w k ∈ after
  /-- After the shutdown nothing is handed out and what waits is left as it is. -/
  shut : c.queue.isShutDown = true → c.queue.get? = none ∧ ∀ more d, c.run more = some d →
    d.queue.pending = c.queue.pending ∧ ∀ w k, .take w k ∉ more

theorem orderly_of_run {base max : Duration} {moves : List (Move ω κ)} {c : Crew ω κ}
    (hrun : (new base max).run moves = some c) : Orderly moves c := by
  have hs := (new_sound base max).run hrun
  have hr := remembers_of_run hrun
  have hheld : ∀ k, k ∈ c.queue.processing ↔ ∃ w, Holds moves w k := by
    intro k
    simp only [hs.held, hr.held]
  refine ⟨hs.nodup, hs.free, hheld, ?_, ?_, hr.isShutDown, ?_, ?_, ?_⟩
  · intro w w' k hw hw'
    exact hs.eq_of_held ((hr.held w k).mpr hw) ((hr.held w' k).mpr hw')
  · intro w k d hm w' hw'
    obtain ⟨queue, hget, -⟩ := step_take hm
    have hopen := (WorkQueue.isShutDown_of_get? hget).1
    exact ((hs.queue hopen).get? hget).2.2.1 ((hheld k).mpr ⟨w', hw'⟩)
  · intro hopen k
    have hwaiting := (hs.queue hopen).waiting k
    constructor
    · intro hdirty
      by_cases hk : k ∈ c.queue.processing
      · obtain ⟨w, hw⟩ := (hheld k).mp hk
        exact Or.inr ⟨w, (hr.dirty hopen w k hw).mp hdirty⟩
      · exact Or.inl (hwaiting.mpr ⟨hdirty, hk⟩)
    · rintro (hpending | ⟨w, hw⟩)
      · exact (hwaiting.mp hpending).1
      · exact (hr.dirty hopen w k hw.holds).mpr hw
  · rintro hopen hpending hprocessing before m after k rfl hkey
    rw [run, List.foldlM_append] at hrun
    obtain ⟨b, hb, hrest⟩ := Option.bind_eq_some_iff.mp hrun
    exact ((new_sound base max).run hb).taken hkey hrest hopen hpending hprocessing
  · intro hshut
    exact ⟨WorkQueue.get?_of_isShutDown hshut, fun more d hmore => run_of_isShutDown hshut hmore⟩

/-- A key is added while a worker holds it, waits until it is given back and then goes to another
worker; a key whose delay has run out goes to the first one meanwhile. -/
def sharedMoves : List (Move ℕ Char) :=
  [.add 'a', .take 1 'a', .add 'a', .delay 'b', .giveBack 1 'a', .expire 'b', .take 2 'a',
    .take 1 'b', .giveBack 2 'a', .forget 'b', .giveBack 1 'b']

/-- Where these moves lead. -/
def afterSharing : Crew ℕ Char := ((new ⟨5⟩ ⟨9⟩).run sharedMoves).get (by decide +kernel)

theorem orderly_after_sharing :
    Orderly sharedMoves afterSharing ∧ ∃ w, .take w 'a' ∈ sharedMoves.drop 3 := by
  have hrun : (new ⟨5⟩ ⟨9⟩).run sharedMoves = some afterSharing := (Option.some_get _).symm
  have horderly : Orderly sharedMoves afterSharing := orderly_of_run hrun
  have hopen : afterSharing.queue.isShutDown = false := by decide +kernel
  have hpending : afterSharing.queue.pending = [] := by decide +kernel
  have hprocessing : afterSharing.queue.processing = [] := by decide +kernel
  exact ⟨horderly, horderly.taken hopen hpending hprocessing (sharedMoves.take 2) (.add 'a')
    (sharedMoves.drop 3) 'a' rfl rfl⟩

end Crew
end ControlPlane
