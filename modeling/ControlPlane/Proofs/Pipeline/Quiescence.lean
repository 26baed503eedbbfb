import ControlPlane.Proofs.Controller.Undisturbed
import ControlPlane.Proofs.Pipeline.Convergence
import Mathlib.Algebra.Order.BigOperators.Group.Finset
import Mathlib.Data.Prod.Lex
import Mathlib.Order.WellFounded

/-! # Controllers come to rest

A status that is written is told of to every controller and leads to another pass, a resync adds
every key there is, and a conflict brings its key back.  Still the controllers come to rest once no
client writes any more (`Pipeline.rests_of_run`).

What is left to do is measured by three numbers, of which an earlier one outweighs the later ones
(`Pipeline.remaining`).  The first counts the objects whose statuses do not say what is to be said
of them (`ObjectStore.unjudged`).  A pass writes only to such an object, since a new verdict that is
settled against one on record is that one, whatever the time (`Reconcile.judged_settle`), and
afterwards the object is no longer such.  The second measures the events and resyncs that
controllers have still to go through (`Desk.notices`), and no move but the writing of a status adds
to them.  The third measures the keys that wait or are worked on (`Desk.load`).  There a pass may
bring its key back, but only if its object had changed since it was read, and while clients are
silent no new pass can suffer that: nobody but the worker who holds the key writes to its object. -/

namespace ControlPlane

open Time (Timestamp)

/-! ### Verdicts that are news -/

namespace Reconcile

/-- The pass has a verdict that its object's status does not say. -/
def Judged.IsNews (p : Judged) : Prop := p.object.status.accepted? ≠ some p.verdict

section verdicts
variable [NewerMessages] {s : Stores} {key : ObjectKey} {now : Timestamp} {p : Judged}

theorem start_isNews (h : (start key now s).2 = .judged p) : p.IsNews := by
  unfold start begin at h
  cases hget : s.objects.get key with
  | error e =>
      rw [hget] at h
      dsimp only at h
      split at h <;> cases h
  | ok o =>
      rw [hget] at h
      dsimp only at h
      split at h
      · cases h
      · rename_i hnews
        obtain rfl := Progress.judged.inj h
        exact hnews

/-- A pass with news has an object whose status does not say the verdict. -/
theorem Faithful.not_isJudged (hp : Faithful s p) (hnews : p.IsNews) :
    ¬p.object.IsJudged p.key := by
  intro hjudged
  obtain ⟨now, hpass⟩ := hp.judged
  have hverdict : p.verdict = (judge p.key p.object now).1.settle p.object.status.accepted? :=
    congrArg Judged.verdict hpass
  apply hnews
  rw [hverdict]
  exact judged_settle hjudged now

end verdicts
end Reconcile

section unjudged
variable [NewerMessages] {s : Stores} {key : ObjectKey} {p : Reconcile.Judged}

open scoped Classical in
/-- The keys of the objects whose statuses do not say what is to be said of them. -/
noncomputable def ObjectStore.unjudged (s : ObjectStore) : Finset ObjectKey :=
  s.objects.keys.toFinset.filter fun key => ∃ o, s.objects.get? key = some o ∧ ¬o.IsJudged key

theorem ObjectStore.mem_unjudged_iff {s : ObjectStore} :
    key ∈ s.unjudged ↔ ∃ o, s.objects.get? key = some o ∧ ¬o.IsJudged key := by
  classical
  unfold unjudged
  rw [Finset.mem_filter, List.mem_toFinset, Catalog.mem_keys_iff]
  constructor
  · exact fun h => h.2
  · rintro ⟨o, ho, hjudged⟩
    exact ⟨⟨o, ho⟩, o, ho, hjudged⟩

/-- Where a pass writes its verdict, one object less is without it. -/
theorem Reconcile.Faithful.unjudged_lt (hp : Faithful s p) (hnews : p.IsNews)
    (hget : s.objects.objects.get? p.key = some p.object) :
    (s.objects.commit .modified (s.objects.restated p.object p.updated.status)).unjudged.card <
      s.objects.unjudged.card := by
  have hkeyed : s.objects.objects.get? p.object.key = some p.object := hp.keyed ▸ hget
  have htouched := ObjectStore.restated_touched p.updated.status hkeyed
  have hself := ObjectStore.commit_get? (s := s.objects) (o := s.objects.restated p.object
    p.updated.status) .modified
  have hwritten : (s.objects.restated p.object p.updated.status).IsJudged p.key := by
    obtain ⟨time, htime⟩ := hp.verdict
    refine ⟨time, ?_⟩
    have hsaid : p.updated.status.accepted? = some p.verdict :=
      Status.accepted?_setAccepted _ _
    exact hsaid.trans (congrArg some htime)
  apply Finset.card_lt_card
  rw [Finset.ssubset_iff_of_subset]
  · refine ⟨p.key, ObjectStore.mem_unjudged_iff.mpr ⟨_, hget, hp.not_isJudged hnews⟩, ?_⟩
    rw [ObjectStore.mem_unjudged_iff]
    rintro ⟨o, ho, hjudged⟩
    rw [← hp.keyed] at ho
    obtain rfl := Option.some.inj (hself.symm.trans ho)
    exact hjudged hwritten
  · intro k hk
    obtain ⟨o, ho, hjudged⟩ := ObjectStore.mem_unjudged_iff.mp hk
    by_cases hkey : k = p.object.key
    · rw [hkey] at ho hjudged
      obtain rfl := Option.some.inj (hself.symm.trans ho)
      exact absurd (hp.keyed ▸ hwritten) hjudged
    · rw [htouched.others k hkey] at ho
      exact ObjectStore.mem_unjudged_iff.mpr ⟨o, ho, hjudged⟩

end unjudged

/-! ### Work that is left -/

namespace WorkQueue

section dirty
variable {κ : Type} [DecidableEq κ] {q t : WorkQueue κ} {key : κ}

theorem add_dirty_length_le (q : WorkQueue κ) (key : κ) :
    (q.add key).dirty.length ≤ q.dirty.length + 1 := by
  unfold add
  split
  · exact Nat.le_succ _
  · split <;> exact le_of_eq List.length_cons

theorem Sound.dirty_length_lt (h : q.Sound) (hget : q.get? = some (key, t)) :
    t.dirty.length < q.dirty.length := by
  have hdirty : key ∈ q.dirty := (h.get? hget).2.1
  unfold WorkQueue.get? at hget
  rw [h.isOpen, if_neg Bool.false_ne_true] at hget
  split at hget
  · cases hget
  · obtain ⟨rfl, rfl⟩ := Prod.mk.inj (Option.some.inj hget)
    exact List.length_filter_lt_length_iff_exists.mpr ⟨_, hdirty, by simp⟩

end dirty
end WorkQueue

/-- What a worker has still to do with its key, and the key with it if the key comes back.  A pass
comes back if its object is not the stored one. -/
def Work.load (objects : ObjectStore) : Work → ℕ
  | taken _ => 4
  | judged pass => if objects.objects.get? pass.key = some pass.object then 3 else 9
  | ended _ (.ok .requeue) => 8
  | ended _ _ => 2
  | decided _ => 1

/-- How far a resync is from its end. -/
def Resync.left : Resync → ℕ
  | none => 0
  | due => 2
  | listed _ => 1

namespace Desk

/-- The events and the resync that the controller has still to go through. -/
def notices (d : Desk) (objects : ObjectStore) : ℕ :=
  3 * (objects.history.size - d.controller.watch.position) + d.resync.left

/-- The keys that wait, are put off or are worked on. -/
def load (d : Desk) (objects : ObjectStore) : ℕ :=
  5 * d.controller.queue.dirty.length + 6 * d.delayed.length +
    (d.work.map (Work.load objects)).sum

/-- Every open pass has a verdict that its object's status does not say. -/
def IsFresh (d : Desk) : Prop := ∀ pass, Work.judged pass ∈ d.work → pass.IsNews

section moves
variable {d e : Desk} {kind : Kind} {s t : Stores} {m : Move}

/-- The stores stand still and there is less to do at the desk, the notices coming first. -/
structure Lighter (d e : Desk) (objects : ObjectStore) : Prop where
  less : e.notices objects < d.notices objects ∨
    e.notices objects = d.notices objects ∧ e.load objects < d.load objects

theorem Lighter.of_notices {objects : ObjectStore} (h : e.notices objects < d.notices objects) :
    d.Lighter e objects := ⟨Or.inl h⟩

theorem Lighter.of_load {objects : ObjectStore} (hwatch : e.controller.watch = d.controller.watch)
    (hresync : e.resync = d.resync) (h : e.load objects < d.load objects) :
    d.Lighter e objects := by
  refine ⟨Or.inr ⟨?_, h⟩⟩
  unfold notices
  rw [hwatch, hresync]

/-- A worker goes on with its key or is through with it. -/
theorem Lighter.of_work {objects : ObjectStore} {before after : List Work} {w : Work}
    (now : List Work) (hwork : d.work = before ++ w :: after)
    (hnow : e.work = before ++ now ++ after)
    (hwatch : e.controller.watch = d.controller.watch) (hresync : e.resync = d.resync)
    (hdirty : e.controller.queue.dirty = d.controller.queue.dirty)
    (hload : (now.map (Work.load objects)).sum + 6 * e.delayed.length <
      w.load objects + 6 * d.delayed.length) : d.Lighter e objects := by
  refine .of_load hwatch hresync ?_
  unfold load
  rw [hwork, hnow, hdirty]
  simp only [List.map_append, List.map_cons, List.sum_append, List.sum_cons]
  omega

theorem deliver_lighter (hd : d.deliver s = some e) : d.Lighter e s.objects := by
  unfold Desk.deliver at hd
  split at hd
  · rename_i event hresync hevent
    split at hd
    · obtain rfl := Option.some.inj hd
      have hin := (Array.getElem?_eq_some_iff.mp hevent).1
      refine .of_notices ?_
      simp only [notices, Controller.takeEvent]
      omega
    · cases hd
  · cases hd

theorem lag_lighter (hd : d.lag s = some e) : d.Lighter e s.objects := by
  unfold Desk.lag at hd
  dsimp only at hd
  split at hd
  · rename_i hresync
    split at hd
    · cases hd
    · rename_i hlost
      obtain rfl := Option.some.inj hd
      refine .of_notices ?_
      simp only [notices, hresync, Resync.left]
      simp only [Watch.lost] at hlost ⊢
      omega
  · cases hd

theorem list_lighter (hd : d.list s = some e) : d.Lighter e s.objects := by
  unfold Desk.list at hd
  split at hd
  · rename_i hresync
    obtain rfl := Option.some.inj hd
    refine .of_notices ?_
    simp [notices, hresync, Resync.left]
  · cases hd

theorem enqueue_lighter (hd : d.enqueue s = some e) : d.Lighter e s.objects := by
  unfold Desk.enqueue at hd
  split at hd
  · rename_i objects hresync
    obtain rfl := Option.some.inj hd
    refine .of_notices ?_
    simp [notices, hresync, Resync.left, Controller.resync, Controller.addAll]
  · cases hd

variable [NewerMessages]

theorem Sound.take_lighter (h : d.Sound kind s) (hd : d.take = some e) :
    d.Lighter e s.objects := by
  obtain ⟨⟨key, queue⟩, hget, rfl⟩ := Option.map_eq_some_iff.mp hd
  have hlt := h.queue.dirty_length_lt hget
  refine .of_load rfl rfl ?_
  simp only [load, setQueue, List.map_cons, List.sum_cons, Work.load]
  omega

omit [NewerMessages] in
theorem expire_lighter {index : ℕ} (hd : d.expire index = some e) : d.Lighter e s.objects := by
  obtain ⟨key, hkey, rfl⟩ := Option.map_eq_some_iff.mp hd
  have hle := d.controller.queue.add_dirty_length_le key
  obtain ⟨hindex, -⟩ := List.getElem?_eq_some_iff.mp hkey
  have hlength := List.length_eraseIdx_of_lt hindex
  refine .of_load rfl rfl ?_
  simp only [load, setQueue, hlength]
  omega

/-- A pass that begins leaves less to do than the key it was begun for. -/
theorem ofProgress_load_lt (key : ObjectKey) (now : Timestamp) (s : Stores) :
    (Work.ofProgress key (Reconcile.start key now s).2).load s.objects <
      (Work.taken key).load s.objects := by
  have hstart := Reconcile.start_cases key now s
  generalize Reconcile.start key now s = x at hstart ⊢
  cases hstart with
  | gone => simp [Work.ofProgress, Work.load]
  | recorded => simp [Work.ofProgress, Work.load]
  | judged o ho =>
      have hcurrent : s.objects.objects.get? (Reconcile.pass key o now).key =
          some (Reconcile.pass key o now).object := ho
      simp [Work.ofProgress, Work.load, hcurrent]

/-- A pass that ends leaves less to do, or has written its verdict. -/
theorem conclude_load_lt {pass : Reconcile.Judged} (hp : Reconcile.Faithful s pass)
    (hnews : pass.IsNews) :
    (Reconcile.conclude pass s).1.objects.unjudged.card < s.objects.unjudged.card ∨
      (Reconcile.conclude pass s).1.objects = s.objects ∧
        (Work.ended pass.key (Reconcile.conclude pass s).2).load s.objects <
          (Work.judged pass).load s.objects := by
  have hconclude := hp.concluded
  generalize Reconcile.conclude pass s = x at hconclude ⊢
  cases hconclude with
  | gone hget =>
      refine Or.inr ⟨rfl, ?_⟩
      simp [Work.load, hget]
  | late o' hget hne =>
      -- only here the key comes back
      have hother : s.objects.objects.get? pass.key ≠ some pass.object := by
        rw [hget]
        exact fun heq => hne (Option.some.inj heq)
      refine Or.inr ⟨rfl, ?_⟩
      simp [Work.load, hother]
  | same hget =>
      refine Or.inr ⟨rfl, ?_⟩
      simp [Work.load, hget]
  | written hget => exact Or.inl (hp.unjudged_lt hnews hget)

/-- A worker that goes on leaves less to do, or has written a verdict. -/
theorem Sound.advance_lighter (h : d.Sound kind s) (hfresh : d.IsFresh) {worker : ℕ}
    {now : Timestamp} (hd : d.advance s worker now = some (t, e)) :
    t.objects.unjudged.card < s.objects.unjudged.card ∨
      t.objects = s.objects ∧ d.Lighter e s.objects := by
  unfold Desk.advance at hd
  obtain ⟨w, hw, hx⟩ := Option.map_eq_some_iff.mp hd
  obtain ⟨before, after, hwork, hset, herase⟩ := exists_split_of_getElem? hw
  have hmem : w ∈ d.work := by
    rw [hwork]
    simp
  cases w with
  | taken key =>
      obtain ⟨rfl, rfl⟩ := Prod.mk.inj hx
      have hlt := ofProgress_load_lt key now s
      have hbegun : d.work.set worker (.ofProgress key (Reconcile.start key now s).2) =
          before ++ [.ofProgress key (Reconcile.start key now s).2] ++ after :=
        (hset _).trans (by simp)
      refine Or.inr ⟨(Reconcile.start_cases key now s).objects, ?_⟩
      refine .of_work [.ofProgress key (Reconcile.start key now s).2] hwork hbegun rfl rfl rfl ?_
      simpa using hlt
  | judged pass =>
      obtain ⟨rfl, rfl⟩ := Prod.mk.inj hx
      have hfaithful : Reconcile.Faithful s pass := h.works _ hmem
      refine (conclude_load_lt hfaithful (hfresh pass hmem)).imp_right fun ⟨hstill, hlt⟩ => ?_
      have hended : d.work.set worker (.ended pass.key (Reconcile.conclude pass s).2) =
          before ++ [.ended pass.key (Reconcile.conclude pass s).2] ++ after :=
        (hset _).trans (by simp)
      refine ⟨hstill, ?_⟩
      refine .of_work [.ended pass.key (Reconcile.conclude pass s).2] hwork hended rfl rfl rfl ?_
      simpa using hlt
  | ended key result =>
      obtain ⟨rfl, rfl⟩ := Prod.mk.inj hx
      have hdecided : d.work.set worker (.decided key) = before ++ [.decided key] ++ after :=
        (hset _).trans (by simp)
      refine Or.inr ⟨rfl, ?_⟩
      rcases h.works _ hmem with rfl | rfl
      · refine .of_work [.decided key] hwork hdecided rfl rfl rfl ?_
        simp [Work.load]
      · refine .of_work [.decided key] hwork hdecided rfl rfl rfl ?_
        simp [Work.load]
        omega
  | decided key =>
      obtain ⟨rfl, rfl⟩ := Prod.mk.inj hx
      refine Or.inr ⟨rfl, ?_⟩
      refine .of_work [] hwork ?_ rfl rfl (WorkQueue.done_dirty _ _) ?_
      · exact herase.trans (by simp)
      · simp [Work.load, setQueue]

/-- A move at a desk leaves less to do there, or is the writing of a verdict. -/
theorem Sound.step_lighter (h : d.Sound kind s) (hfresh : d.IsFresh)
    (hd : d.step s m = some (t, e)) :
    t.objects.unjudged.card < s.objects.unjudged.card ∨
      t.objects = s.objects ∧ d.Lighter e s.objects := by
  have hstill : ∀ {o : Option Desk}, o.map (s, ·) = some (t, e) → t = s ∧ o = some e := by
    intro o ho
    obtain ⟨e', ho', heq⟩ := Option.map_eq_some_iff.mp ho
    obtain ⟨rfl, rfl⟩ := Prod.mk.inj heq
    exact ⟨rfl, ho'⟩
  cases m with
  | deliver =>
      obtain ⟨rfl, hmove⟩ := hstill hd
      exact Or.inr ⟨rfl, deliver_lighter hmove⟩
  | lag =>
      obtain ⟨rfl, hmove⟩ := hstill hd
      exact Or.inr ⟨rfl, lag_lighter hmove⟩
  | list =>
      obtain ⟨rfl, hmove⟩ := hstill hd
      exact Or.inr ⟨rfl, list_lighter hmove⟩
  | enqueue =>
      obtain ⟨rfl, hmove⟩ := hstill hd
      exact Or.inr ⟨rfl, enqueue_lighter hmove⟩
  | take =>
      obtain ⟨rfl, hmove⟩ := hstill hd
      exact Or.inr ⟨rfl, h.take_lighter hmove⟩
  | advance worker now => exact h.advance_lighter hfresh hd
  | expire index =>
      obtain ⟨rfl, hmove⟩ := hstill hd
      exact Or.inr ⟨rfl, expire_lighter hmove⟩

/-- A pass that is open after a move was open before, or has just begun. -/
theorem IsFresh.step (hfresh : d.IsFresh) (hd : d.step s m = some (t, e)) : e.IsFresh := by
  intro pass hpass
  have hkept : ∀ {o : Option Desk}, o.map (s, ·) = some (t, e) →
      (∀ e', o = some e' → e'.work = d.work) → pass.IsNews := by
    intro o ho hwork
    obtain ⟨e', ho', heq⟩ := Option.map_eq_some_iff.mp ho
    obtain ⟨rfl, rfl⟩ := Prod.mk.inj heq
    rw [hwork _ ho'] at hpass
    exact hfresh pass hpass
  cases m with
  | deliver =>
      refine hkept hd fun e' he => ?_
      unfold Desk.deliver at he
      split at he
      · split at he
        · rw [← Option.some.inj he]
        · cases he
      · cases he
  | lag =>
      refine hkept hd fun e' he => ?_
      unfold Desk.lag at he
      dsimp only at he
      split at he
      · split at he
        · cases he
        · rw [← Option.some.inj he]
      · cases he
  | list =>
      refine hkept hd fun e' he => ?_
      unfold Desk.list at he
      split at he
      · rw [← Option.some.inj he]
      · cases he
  | enqueue =>
      refine hkept hd fun e' he => ?_
      unfold Desk.enqueue at he
      split at he
      · rw [← Option.some.inj he]
      · cases he
  | take =>
      obtain ⟨e', he, heq⟩ := Option.map_eq_some_iff.mp hd
      obtain ⟨rfl, rfl⟩ := Prod.mk.inj heq
      obtain ⟨⟨key, queue⟩, hget, rfl⟩ := Option.map_eq_some_iff.mp he
      rcases List.mem_cons.mp hpass with hnew | hold
      · cases hnew
      · exact hfresh pass hold
  | advance worker now =>
      simp only [Desk.step, Desk.advance] at hd
      obtain ⟨w, hw, hx⟩ := Option.map_eq_some_iff.mp hd
      cases w with
      | taken key =>
          obtain ⟨rfl, rfl⟩ := Prod.mk.inj hx
          rcases List.mem_or_eq_of_mem_set hpass with hold | hnew
          · exact hfresh pass hold
          · cases hprogress : (Reconcile.start key now s).2 with
            | ended result =>
                rw [hprogress] at hnew
                cases hnew
            | judged begun =>
                rw [hprogress] at hnew
                obtain rfl := Work.judged.inj hnew
                exact Reconcile.start_isNews hprogress
      | judged begun =>
          obtain ⟨rfl, rfl⟩ := Prod.mk.inj hx
          rcases List.mem_or_eq_of_mem_set hpass with hold | hnew
          · exact hfresh pass hold
          · cases hnew
      | ended key result =>
          obtain ⟨rfl, rfl⟩ := Prod.mk.inj hx
          rcases List.mem_or_eq_of_mem_set hpass with hold | hnew
          · exact hfresh pass hold
          · cases hnew
      | decided key =>
          obtain ⟨rfl, rfl⟩ := Prod.mk.inj hx
          exact hfresh pass (List.mem_of_mem_eraseIdx hpass)
  | expire index =>
      refine hkept hd fun e' he => ?_
      obtain ⟨key, hkey, rfl⟩ := Option.map_eq_some_iff.mp he
      rfl

/-! ### Standing still -/

/-- A move of a controller that has so many workers, where a key is only taken by an idle one. -/
def stepWith (workers : ℕ) (d : Desk) (s : Stores) (m : Move) : Option (Stores × Desk) :=
  if m = .take ∧ workers ≤ d.work.length then none else d.step s m

/-- At a standstill no move can be made. -/
theorem Sound.step_eq_none (h : d.Sound kind s) (hstill : d.Standstill s) (m : Move) :
    d.step s m = none := by
  have hwork : d.work = [] := by
    rw [List.eq_nil_iff_forall_not_mem]
    intro w hw
    have hheld := (h.held w.key).mpr (List.mem_map_of_mem hw)
    rw [hstill.noProcessing] at hheld
    cases hheld
  have hlost : d.controller.watch.lost s.objects = 0 := by
    rw [Watch.lost, hstill.caughtUp]
    omega
  cases m with
  | deliver => simp [Desk.step, Desk.deliver, hstill.noResync, hstill.caughtUp]
  | lag => simp [Desk.step, Desk.lag, hstill.noResync, hlost]
  | list => simp [Desk.step, Desk.list, hstill.noResync]
  | enqueue => simp [Desk.step, Desk.enqueue, hstill.noResync]
  | take => simp [Desk.step, Desk.take, WorkQueue.get?, hstill.noPending]
  | advance worker now => simp [Desk.step, Desk.advance, hwork]
  | expire index => simp [Desk.step, Desk.expire, hstill.noDelayed]

/-- A controller with a worker that cannot move is at a standstill. -/
theorem Sound.standstill_of_stuck (h : d.Sound kind s) {workers : ℕ} (hworkers : 0 < workers)
    (hstuck : ∀ m, d.stepWith workers s m = none) : d.Standstill s := by
  have hstep : ∀ m, m ≠ .take → d.step s m = none := by
    intro m hm
    have hm' := hstuck m
    rwa [stepWith, if_neg fun hand => hm hand.1] at hm'
  have hwork : d.work = [] := by
    have hadvance := hstep (.advance 0 ⟨0, 0⟩) (by simp)
    cases hlist : d.work with
    | nil => rfl
    | cons w rest => simp [Desk.step, Desk.advance, hlist] at hadvance
  have hnoResync : d.resync = .none := by
    cases hresync : d.resync with
    | none => rfl
    | due =>
        have hlist := hstep .list (by simp)
        simp [Desk.step, Desk.list, hresync] at hlist
    | listed objects =>
        have henqueue := hstep .enqueue (by simp)
        simp [Desk.step, Desk.enqueue, hresync] at henqueue
  refine ⟨?_, hnoResync, ?_, ?_, ?_⟩
  · -- an event that is left would arrive, or be found to be lost
    by_contra hne
    have hlt : d.controller.watch.position < s.objects.history.size :=
      Nat.lt_of_le_of_ne h.position hne
    have hevent := Array.getElem?_eq_getElem hlt
    have hdeliver := hstep .deliver (by simp)
    have hlag := hstep .lag (by simp)
    by_cases hlost : d.controller.watch.lost s.objects = 0
    · simp [Desk.step, Desk.deliver, hnoResync, hevent, hlost] at hdeliver
    · simp [Desk.step, Desk.lag, hnoResync, hlost] at hlag
  · have htake := hstuck .take
    have hidle : ¬workers ≤ d.work.length := by
      rw [hwork, List.length_nil]
      omega
    rw [stepWith, if_neg fun hand => hidle hand.2] at htake
    cases hpending : d.controller.queue.pending with
    | nil => rfl
    | cons key rest =>
        simp [Desk.step, Desk.take, WorkQueue.get?, h.queue.isOpen, hpending] at htake
  · rw [List.eq_nil_iff_forall_not_mem]
    intro key hkey
    have hheld := (h.held key).mp hkey
    rw [hwork] at hheld
    cases hheld
  · have hexpire := hstep (.expire 0) (by simp)
    cases hdelayed : d.delayed with
    | nil => rfl
    | cons key rest => simp [Desk.step, Desk.expire, hdelayed] at hexpire

theorem Sound.stuck_iff (h : d.Sound kind s) {workers : ℕ} (hworkers : 0 < workers) :
    (∀ m, d.stepWith workers s m = none) ↔ d.Standstill s := by
  constructor
  · exact h.standstill_of_stuck hworkers
  · intro hstill m
    rw [stepWith]
    split
    · rfl
    · exact h.step_eq_none hstill m

end moves
end Desk

/-! ### Runs without clients -/

instance : Fintype Kind := ⟨Kind.all.toFinset, fun kind => List.mem_toFinset.mpr kind.mem_all⟩

namespace Pipeline

/-- Everything is in order, and what open passes have to say is news. -/
structure Ready [NewerMessages] (p : Pipeline) : Prop where
  sound : p.Sound
  fresh : ∀ kind, (p.desks kind).IsFresh

/-- What the controllers have still to do. -/
noncomputable def remaining [NewerMessages] (p : Pipeline) : ℕ ×ₗ ℕ ×ₗ ℕ :=
  toLex (p.stores.objects.unjudged.card,
    toLex (∑ kind, (p.desks kind).notices p.stores.objects,
      ∑ kind, (p.desks kind).load p.stores.objects))

section runs
variable [NewerMessages] {p q : Pipeline}

omit [NewerMessages] in
/-- What all desks have to do, when one of them has moved. -/
theorem sum_update_add (desks : Kind → Desk) (kind : Kind) (e : Desk) (f : Desk → ℕ) :
    ∑ k, f (Function.update desks kind e k) + f (desks kind) = ∑ k, f (desks k) + f e := by
  have hothers : ∑ k ∈ Finset.univ.erase kind, f (Function.update desks kind e k) =
      ∑ k ∈ Finset.univ.erase kind, f (desks k) := by
    refine Finset.sum_congr rfl fun k hk => ?_
    rw [Function.update_of_ne (Finset.ne_of_mem_erase hk)]
  rw [← Finset.add_sum_erase _ _ (Finset.mem_univ kind),
    ← Finset.add_sum_erase (a := kind) _ (fun k => f (desks k)) (Finset.mem_univ kind),
    hothers, Function.update_self]
  omega

theorem Ready.step (h : p.Ready) {m : Move} (hm : p.step m = some q) : q.Ready := by
  refine ⟨h.sound.step hm, fun k => ?_⟩
  cases m with
  | client w =>
      obtain rfl := Option.some.inj hm
      exact h.fresh k
  | desk kind m =>
      obtain ⟨⟨t, e⟩, hd, rfl⟩ := Option.map_eq_some_iff.mp hm
      by_cases hk : k = kind
      · subst hk
        simpa using (h.fresh k).step hd
      · simpa [Function.update_of_ne hk] using h.fresh k

theorem Ready.run (h : p.Ready) {moves : List Move} (hrun : p.run moves = some q) : q.Ready := by
  induction moves generalizing p with
  | nil =>
      obtain rfl := Option.some.inj hrun
      exact h
  | cons m rest ih =>
      obtain ⟨p', hm, hrest⟩ := Option.bind_eq_some_iff.mp hrun
      exact ih (h.step hm) hrest

theorem opening_ready (policy : Plane.Policy) {objects : ObjectStore} (h : objects.Reachable) :
    (opening policy objects).Ready where
  sound := opening_sound policy h
  fresh kind pass hpass := by cases hpass

/-- Every move of a controller leaves less to do. -/
theorem Ready.remaining_lt (h : p.Ready) {kind : Kind} {m : Desk.Move}
    (hm : p.step (.desk kind m) = some q) : q.remaining < p.remaining := by
  obtain ⟨⟨t, e⟩, hd, rfl⟩ := Option.map_eq_some_iff.mp hm
  rcases (h.sound.desks kind).step_lighter (h.fresh kind) hd with hwritten | ⟨hstill, hlighter⟩
  · exact Prod.Lex.left _ _ hwritten
  · have hnotices := sum_update_add p.desks kind e (·.notices p.stores.objects)
    have hload := sum_update_add p.desks kind e (·.load p.stores.objects)
    unfold remaining
    dsimp only
    rw [hstill]
    refine Prod.Lex.right _ ?_
    rcases hlighter.less with hless | ⟨hsame, hless⟩
    · exact Prod.Lex.left _ _ (by omega)
    · have hequal : ∑ k, (Function.update p.desks kind e k).notices p.stores.objects =
          ∑ k, (p.desks k).notices p.stores.objects := by omega
      rw [hequal]
      exact Prod.Lex.right _ (by omega)

/-- From every state that a run leads to, the controllers cannot move on for ever unless clients
write, and the moves that they can make end exactly at the standstills. -/
theorem rests_of_run (policy : Plane.Policy) {objects : ObjectStore} {moves : List Move}
    {crew : Kind → ℕ} (h : objects.Reachable)
    (hrun : (opening policy objects).run moves = some p) (hcrew : ∀ kind, 0 < crew kind) :
    (¬∃ states : ℕ → Pipeline, states 0 = p ∧
      ∀ n, ∃ kind m, (states n).step (.desk kind m) = some (states (n + 1))) ∧
    ∀ (later : List (Kind × Desk.Move)) q, p.run (later.map fun m => .desk m.1 m.2) = some q →
      ((∀ kind m, (q.desks kind).stepWith (crew kind) q.stores m = none) ↔
        ∀ kind, (q.desks kind).Standstill q.stores) := by
  have hp := (opening_ready policy h).run hrun
  constructor
  · rintro ⟨states, hfirst, hnext⟩
    have hready : ∀ n, (states n).Ready := by
      intro n
      induction n with
      | zero => exact hfirst ▸ hp
      | succ n ih =>
          obtain ⟨kind, m, hm⟩ := hnext n
          exact ih.step hm
    obtain ⟨n, hn⟩ := WellFounded.not_rel_apply_succ (r := (· < ·)) fun n => (states n).remaining
    obtain ⟨kind, m, hm⟩ := hnext n
    exact hn ((hready n).remaining_lt hm)
  · intro later q hlater
    have hq := hp.run hlater
    exact forall_congr' fun kind => (hq.sound.desks kind).stuck_iff (hcrew kind)

end runs

/-! ### To rest from a conflict -/

/-- The object is updated while a pass for it is open, and no client writes after that. -/
def amidConflict : Pipeline :=
  ((opening briefPolicy .empty).run (conflictMoves.take 7)).get (by decide +kernel)

/-- The pass comes too late and is made again, and the controllers of other kinds have nothing to do
but to hear of it. -/
def restingMoves : List (Kind × Desk.Move) :=
  let worker : Desk.Move := .advance 0 ⟨0, 0⟩
  let ours : List Desk.Move :=
    [worker, worker, worker, .deliver, .expire 0, .take, worker, worker, worker, worker,
      .deliver, .take, worker, worker, worker]
  ours.map (.listener, ·) ++ (Kind.all.erase .listener).flatMap fun kind =>
    [.list, .enqueue, .deliver, .deliver, .deliver].map (kind, ·)

/-- Where these moves lead. -/
def afterRest : Pipeline :=
  (amidConflict.run (restingMoves.map fun m => .desk m.1 m.2)).get (by decide +kernel)

theorem rests_after_conflict :
    (opening briefPolicy .empty).run (conflictMoves.take 7) = some amidConflict ∧
      (¬∃ states : ℕ → Pipeline, states 0 = amidConflict ∧
        ∀ n, ∃ kind m, (states n).step (.desk kind m) = some (states (n + 1))) ∧
      ∀ kind m, (afterRest.desks kind).stepWith 1 afterRest.stores m = none := by
  have hrun : (opening briefPolicy .empty).run (conflictMoves.take 7) = some amidConflict :=
    (Option.some_get _).symm
  have hlater : amidConflict.run (restingMoves.map fun m => .desk m.1 m.2) = some afterRest :=
    (Option.some_get _).symm
  have hcrew : ∀ kind : Kind, 0 < (fun _ => 1 : Kind → ℕ) kind := fun _ => Nat.one_pos
  obtain ⟨hfinite, hend⟩ := rests_of_run briefPolicy ObjectStore.empty_reachable hrun hcrew
  have hstill : ∀ kind, (afterRest.desks kind).Standstill afterRest.stores := by
    decide +kernel
  exact ⟨hrun, hfinite, (hend restingMoves afterRest hlater).mpr hstill⟩

end Pipeline
end ControlPlane
