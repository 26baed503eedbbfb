import ControlPlane.Proofs.Controller.Settling
import ControlPlane.Proofs.Runs

/-! # Passes that run at the same time

Any number of passes run over the two stores, for any keys and also several for one key, while
clients write to the object store.  A pass is cut at its calls to the object store, each of which
may fail, and everybody moves in any order (`Reconcilers.step`).  Nothing is assumed of who starts a
pass and when, so this covers the workers of every controller.

Each half of a pass has its cases, those of a call that is answered (`Started`, `Concluded`) and
those of a call that fails (`Refused`).  Every move keeps the two stores in order, and what an open
pass has read stays true in the sense that its token names it (`Sound.step`). -/

namespace ControlPlane

open Time (Timestamp)

namespace Reconcile

/-- The first half of a pass, whose call may fail. -/
def attempt [NewerMessages] (key : ObjectKey) (now : Timestamp) (failure : Option StoreError)
    (s : Stores) : Stores × Progress :=
  match failure with
  | none => start key now s
  | some e =>
    let (resources, progress) := begin key now (.error e) s.resources
    (⟨s.objects, resources⟩, progress)

/-- The second half of a pass, whose call may fail. -/
def complete (pass : Judged) (failure : Option StoreError) (s : Stores) : Stores × PassResult :=
  match failure with
  | none => conclude pass s
  | some e =>
    let (resources, result) := finish pass (.error e) s.resources
    (⟨s.objects, resources⟩, result)

/-- What a failed call leaves of the stores: all as it was, or all but the resource of the key. -/
inductive Refused (s : Stores) (key : ObjectKey) : Stores → Prop
  | left : Refused s key s
  | removed : Refused s key ⟨s.objects, (s.resources.delete key.resourceName).1⟩

section refused
variable {s t : Stores} {key : ObjectKey}

theorem attempt_error [NewerMessages] (key : ObjectKey) (now : Timestamp) (e : StoreError)
    (s : Stores) : Refused s key (attempt key now (some e) s).1 ∧
      ∃ result, (attempt key now (some e) s).2 = .ended result := by
  unfold attempt begin
  dsimp only
  split
  · exact ⟨.removed, _, rfl⟩
  · exact ⟨.left, _, rfl⟩

theorem complete_error (pass : Judged) (e : StoreError) (s : Stores) :
    Refused s pass.key (complete pass (some e) s).1 := by
  unfold complete finish
  dsimp only
  split
  · exact .left
  · split
    · exact .removed
    · exact .left

theorem Refused.sound [NewerMessages] (h : Refused s key t) (hs : s.Sound) : t.Sound := by
  cases h with
  | left => exact hs
  | removed => exact hs.delete key

theorem Refused.moved (h : Refused s key t) : s.Moved t key := by
  cases h with
  | left => exact ⟨Or.inl rfl, fun _ _ => rfl⟩
  | removed => exact Stores.delete_moved s key

theorem Refused.objects (h : Refused s key t) : t.objects = s.objects := by
  cases h <;> rfl

theorem Refused.stored (h : Refused s key t) {name : ResourceName} {stored : StoredResource}
    (ht : t.resources.resources.get? name = some stored) :
    s.resources.resources.get? name = some stored := by
  cases h with
  | left => exact ht
  | removed => exact ResourceStore.get?_of_delete _ ht

end refused

/-- The pass that a first half leaves open. -/
def Progress.judged? : Progress → Option Judged
  | ended _ => none
  | judged pass => some pass

end Reconcile

/-- Two stores, and the passes that have judged their objects and not yet written the verdicts. -/
structure Reconcilers where
  stores : Stores
  passes : List Reconcile.Judged

namespace Reconcilers

inductive Move where
  /-- A client writes to the object store. -/
  | client (write : ObjectStore.Write)
  /-- A pass begins: it asks for the object of its key and judges it. -/
  | start (key : ObjectKey) (now : Timestamp) (failure : Option StoreError)
  /-- An open pass writes its verdict down and comes to its end. -/
  | finish (index : ℕ) (failure : Option StoreError)
deriving DecidableEq, Repr

/-- One move, if it can be made. -/
def step [NewerMessages] (r : Reconcilers) : Move → Option Reconcilers
  | .client w => some { r with stores := ⟨w.run r.stores.objects, r.stores.resources⟩ }
  | .start key now failure =>
    let (stores, progress) := Reconcile.attempt key now failure r.stores
    some ⟨stores, progress.judged?.toList ++ r.passes⟩
  | .finish index failure =>
    r.passes[index]?.map fun pass =>
      ⟨(Reconcile.complete pass failure r.stores).1, r.passes.eraseIdx index⟩

/-- The moves one after the other, if all can be made. -/
def run [NewerMessages] (r : Reconcilers) (moves : List Move) : Option Reconcilers :=
  moves.foldlM step r

/-- Nothing is served and no pass is open. -/
def opening (objects : ObjectStore) : Reconcilers := ⟨⟨objects, .empty⟩, []⟩

/-- The stores are in order, and every open pass is one for an object as it was read. -/
structure Sound [NewerMessages] (r : Reconcilers) : Prop where
  stores : r.stores.Sound
  passes : ∀ p ∈ r.passes, Reconcile.Faithful r.stores p

theorem opening_sound [NewerMessages] {objects : ObjectStore} (h : objects.Sound) :
    (opening objects).Sound where
  stores := Stores.empty_sound objects h
  passes p hp := by cases hp

section runs
variable [NewerMessages] {r q : Reconcilers} {m : Move}

theorem run_append (r : Reconcilers) (before after : List Move) :
    r.run (before ++ after) = (r.run before).bind fun q => q.run after := by
  simp [run, List.foldlM_append, Option.bind_eq_bind]

theorem step_finish {index : ℕ} {failure : Option StoreError}
    (hm : r.step (.finish index failure) = some q) : ∃ pass, r.passes[index]? = some pass ∧
      pass ∈ r.passes ∧
      q = ⟨(Reconcile.complete pass failure r.stores).1, r.passes.eraseIdx index⟩ := by
  obtain ⟨pass, hpass, rfl⟩ := Option.map_eq_some_iff.mp hm
  exact ⟨pass, hpass, List.mem_of_getElem? hpass, rfl⟩

theorem Sound.client (h : r.Sound) (w : ObjectStore.Write) :
    Sound { r with stores := ⟨w.run r.stores.objects, r.stores.resources⟩ } := by
  rcases w.run_cases h.stores.objects with heq | ht
  · simp only [heq]
    exact h
  · have hmoved : r.stores.Moved ⟨w.run r.stores.objects, r.stores.resources⟩ w.key :=
      ⟨Or.inr ht, fun _ _ => rfl⟩
    exact ⟨h.stores.touched ht, fun p hp => (h.passes p hp).moved hmoved⟩

theorem Sound.start (h : r.Sound) (key : ObjectKey) (now : Timestamp)
    (failure : Option StoreError) :
    Sound ⟨(Reconcile.attempt key now failure r.stores).1,
      (Reconcile.attempt key now failure r.stores).2.judged?.toList ++ r.passes⟩ := by
  cases failure with
  | some e =>
      obtain ⟨hrefused, result, hended⟩ := Reconcile.attempt_error key now e r.stores
      rw [hended]
      exact ⟨hrefused.sound h.stores, fun p hp => (h.passes p hp).moved hrefused.moved⟩
  | none =>
      have hstart := Reconcile.start_cases key now r.stores
      refine ⟨hstart.sound h.stores, fun p hp => ?_⟩
      rcases List.mem_append.mp hp with hnew | hold
      · cases hprogress : (Reconcile.attempt key now none r.stores).2 with
        | ended result =>
            rw [hprogress] at hnew
            cases hnew
        | judged pass =>
            rw [hprogress] at hnew
            obtain rfl := List.mem_singleton.mp hnew
            exact (hstart.faithful h.stores hprogress).2
      · exact (h.passes p hold).moved hstart.moved

theorem Sound.finish (h : r.Sound) {pass : Reconcile.Judged} (hpass : pass ∈ r.passes)
    (index : ℕ) (failure : Option StoreError) :
    Sound ⟨(Reconcile.complete pass failure r.stores).1, r.passes.eraseIdx index⟩ := by
  have hfaithful := h.passes pass hpass
  have hleft : ∀ p ∈ r.passes.eraseIdx index, p ∈ r.passes :=
    fun p hp => List.mem_of_mem_eraseIdx hp
  cases failure with
  | some e =>
      have hrefused := Reconcile.complete_error pass e r.stores
      exact ⟨hrefused.sound h.stores, fun p hp => (h.passes p (hleft p hp)).moved hrefused.moved⟩
  | none =>
      have hconclude := hfaithful.concluded
      exact ⟨hconclude.sound h.stores hfaithful,
        fun p hp => (h.passes p (hleft p hp)).moved (hconclude.moved hfaithful)⟩

theorem Sound.step (h : r.Sound) (hm : r.step m = some q) : q.Sound := by
  cases m with
  | client w =>
      obtain rfl := Option.some.inj hm
      exact h.client w
  | start key now failure =>
      obtain rfl := Option.some.inj hm
      exact h.start key now failure
  | finish index failure =>
      obtain ⟨pass, -, hpass, rfl⟩ := step_finish hm
      exact h.finish hpass index failure

theorem Sound.run (h : r.Sound) {moves : List Move} (hrun : r.run moves = some q) : q.Sound :=
  run_keeps h (fun _ _ _ _ hp hm => hp.step hm) hrun

end runs

/-! ### A run with two passes at once -/

/-- A cluster with these bytes as its payload. -/
def cluster (bytes : Bytes) : Object :=
  .declare .cluster "default" "web" ⟨"type.googleapis.com/envoy.config.cluster.v3.Cluster", bytes⟩

/-- A cluster is accepted and then given a payload without a name, on which two passes start at
once: the one that writes first records the rejection, and the other comes too late. -/
def raceMoves : List Move :=
  let start (seconds : ℕ) : Move := .start (cluster []).key ⟨seconds, 0⟩ none
  [.client (.create ⟨"first", ⟨0, 0⟩⟩ (cluster [10, 1, 97])), start 1, .finish 0 none,
    .client (.update (cluster [])), start 2, start 3, .finish 1 none, .finish 0 none]

/-- Where the first moves of this run lead. -/
def inRace (count : Fin 9) : Reconcilers :=
  ((opening .empty).run (raceMoves.take count)).get (by revert count; decide +kernel)

theorem run_raceMoves (count : Fin 9) :
    (opening .empty).run (raceMoves.take count) = some (inRace count) :=
  (Option.some_get _).symm

end Reconcilers
end ControlPlane
