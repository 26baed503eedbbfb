import ControlPlane.Proofs.Pipeline.Basic

/-! # No change of an object is lost

Every key of a controller's kind is either settled or awaits the controller somewhere: in an event
that has not arrived, in a resync, in the queue, with a worker, or in a delay (`Desk.Awaits`).  The
invariant `Desk.Sound` says this together with what makes it last, which is that the queue hands
out no key twice and that workers hold passes for objects as they were read.  Every move keeps it
(`Pipeline.Sound.step`), so it holds throughout every run (`Pipeline.Sound.run`). -/

namespace ControlPlane

open Time (Timestamp)

/-! ### What a resync looks at -/

section resync
variable [NewerMessages] {s : Stores} {kind : Kind} {key : ObjectKey}

omit [NewerMessages] in
theorem ObjectStore.Sound.mem_list_iff {objects : ObjectStore} (h : objects.Sound) :
    key ∈ (objects.list kind).map (·.key) ↔
      key.kind = kind ∧ ∃ o, objects.objects.get? key = some o := by
  unfold ObjectStore.list
  simp only [List.mem_map, List.mem_filter, decide_eq_true_eq, Catalog.mem_values_iff]
  constructor
  · rintro ⟨o, ⟨⟨k, hk⟩, hkind⟩, rfl⟩
    obtain rfl := h.keyed k o hk
    exact ⟨hkind, o, hk⟩
  · rintro ⟨hkind, o, ho⟩
    obtain rfl := h.keyed key o ho
    exact ⟨o, ⟨⟨_, ho⟩, hkind⟩, rfl⟩

theorem Stores.Sound.mem_storedKeys_iff (h : s.Sound) :
    key ∈ Controller.storedKeys kind s.resources ↔ key.isValid = true ∧ key.kind = kind ∧
      ∃ stored, s.resources.resources.get? key.resourceName = some stored := by
  unfold Controller.storedKeys
  simp only [List.mem_filterMap, ResourceStore.mem_names_iff]
  constructor
  · rintro ⟨name, ⟨stored, hstored, hkind⟩, hparse⟩
    obtain ⟨k, hvalid, rfl, payload, hok⟩ := h.rooted name stored hstored
    rw [ObjectKey.ofResourceName?_resourceName hvalid] at hparse
    obtain rfl := Option.some.inj hparse
    exact ⟨hvalid, (validate_kind hok).symm.trans hkind, stored, hstored⟩
  · rintro ⟨hvalid, hkind, stored, hstored⟩
    refine ⟨_, ⟨stored, hstored, ?_⟩, ObjectKey.ofResourceName?_resourceName hvalid⟩
    obtain ⟨k, hvalid', hname, payload, hok⟩ := h.rooted _ stored hstored
    rw [validate_kind hok, ObjectKey.resourceName_injective hvalid' hvalid hname, hkind]

theorem Stores.Sound.mem_allKeys_iff (h : s.Sound) {objects : List Object} :
    key ∈ Controller.allKeys kind (.ok objects) s.resources ↔
      key ∈ objects.map (·.key) ∨ key.isValid = true ∧ key.kind = kind ∧
        ∃ stored, s.resources.resources.get? key.resourceName = some stored := by
  unfold Controller.allKeys
  rw [Catalog.mem_keys_ofList, ← h.mem_storedKeys_iff]
  simp

end resync

/-! ### What a move of the stores leaves in place -/

section moved
variable {s t : Stores} {key : ObjectKey} {e : Event} {i : ℕ}

theorem Stores.Moved.history (h : s.Moved t key) (he : s.objects.history[i]? = some e) :
    t.objects.history[i]? = some e := by
  rcases h.objects with heq | ht
  · rwa [heq]
  · obtain ⟨change, htold⟩ := ht.told
    have hi := (Array.getElem?_eq_some_iff.mp he).1
    rwa [htold, Array.getElem?_push, if_neg (Nat.ne_of_lt hi)]

theorem Stores.Moved.history_size_le (h : s.Moved t key) :
    s.objects.history.size ≤ t.objects.history.size := by
  rcases h.objects with heq | ht
  · rw [heq]
  · obtain ⟨change, htold⟩ := ht.told
    rw [htold, Array.size_push]
    exact Nat.le_succ _

end moved

namespace Work

/-- The worker will look at its key, or have it added again. -/
def IsOpen : Work → Prop
  | taken _ | judged _ => True
  | ended _ result => result = .ok .requeue
  | decided _ => False

/-- What a worker holds is true of the stores. -/
def Sound [NewerMessages] (s : Stores) : Work → Prop
  | judged pass => Reconcile.Faithful s pass
  | ended _ result => result = .ok .done ∨ result = .ok .requeue
  | taken _ | decided _ => True

theorem Sound.moved [NewerMessages] {s t : Stores} {w : Work} (h : w.Sound s) {key : ObjectKey}
    (hm : s.Moved t key) : w.Sound t := by
  cases w with
  | judged pass => exact Reconcile.Faithful.moved h hm
  | ended key result => exact h
  | taken key => trivial
  | decided key => trivial

end Work

/-- A list around one of its places. -/
theorem exists_split_of_getElem? {α : Type} {l : List α} {i : ℕ} {a : α} (h : l[i]? = some a) :
    ∃ before after, l = before ++ a :: after ∧ (∀ b, l.set i b = before ++ b :: after) ∧
      l.eraseIdx i = before ++ after := by
  obtain ⟨hi, rfl⟩ := List.getElem?_eq_some_iff.mp h
  refine ⟨l.take i, l.drop (i + 1), ?_, fun b => ?_, ?_⟩
  · rw [List.getElem_cons_drop, List.take_append_drop]
  · rw [List.set_eq_take_append_cons_drop, if_pos hi]
  · exact List.eraseIdx_eq_take_drop_succ l i

namespace Desk

/-! ### The invariant -/

/-- The controller has still to look at a key. -/
inductive Awaits (d : Desk) (s : Stores) (key : ObjectKey) : Prop
  | unread (i : ℕ) (e : Event) : d.controller.watch.position ≤ i →
      s.objects.history[i]? = some e → e.key = key → Awaits d s key
  | due : d.resync = .due → Awaits d s key
  /-- The key was listed, or has no object and will be found if anything is served for it. -/
  | listed (objects : List Object) : d.resync = .listed objects →
      key ∈ objects.map (·.key) ∨ s.objects.objects.get? key = none → Awaits d s key
  | dirty : key ∈ d.controller.queue.dirty → Awaits d s key
  | delayed : key ∈ d.delayed → Awaits d s key
  | worked (w : Work) : w ∈ d.work → w.key = key → w.IsOpen → Awaits d s key

/-- The keys that the controller is occupied with. -/
inductive Concerns (d : Desk) (key : ObjectKey) : Prop
  | listed (objects : List Object) : d.resync = .listed objects →
      key ∈ objects.map (·.key) → Concerns d key
  | dirty : key ∈ d.controller.queue.dirty → Concerns d key
  | delayed : key ∈ d.delayed → Concerns d key
  | worked (w : Work) : w ∈ d.work → w.key = key → Concerns d key

structure Sound [NewerMessages] (d : Desk) (kind : Kind) (s : Stores) : Prop where
  serves : d.controller.kind = kind
  queue : d.controller.queue.Sound
  position : d.controller.watch.position ≤ s.objects.history.size
  ours : ∀ key, d.Concerns key → key.isValid = true ∧ key.kind = kind
  held : ∀ key, key ∈ d.controller.queue.processing ↔ key ∈ d.work.map Work.key
  apart : (d.work.map Work.key).Nodup
  works : ∀ w ∈ d.work, w.Sound s
  covered : ∀ key, key.isValid = true → key.kind = kind → d.Awaits s key ∨ s.Settled key

section invariant
variable [NewerMessages] {d e : Desk} {kind : Kind} {s t : Stores} {key k : ObjectKey}

omit [NewerMessages] in
theorem Awaits.moved (h : d.Awaits s k) (hm : s.Moved t key) (hk : k ≠ key) : d.Awaits t k := by
  cases h with
  | unread i e hi he hkey => exact .unread i e hi (hm.history he) hkey
  | due hdue => exact .due hdue
  | listed objects hlisted hor =>
      rw [← hm.get?_of_ne hk] at hor
      exact .listed objects hlisted hor
  | dirty hmem => exact .dirty hmem
  | delayed hmem => exact .delayed hmem
  | worked w hw hkey hopen => exact .worked w hw hkey hopen

omit [NewerMessages] in
/-- A change of an object is told of behind the place of every watcher. -/
theorem awaits_of_touched (hpos : d.controller.watch.position ≤ s.objects.history.size)
    (ht : s.objects.Touched t.objects key) : d.Awaits t key := by
  obtain ⟨change, htold⟩ := ht.told
  exact .unread _ ⟨change, key⟩ hpos (by rw [htold, Array.getElem?_push_size]) rfl

omit [NewerMessages] in
/-- What awaited the controller elsewhere than in its queue, in a delay and with a worker does so
while those alone change. -/
theorem Awaits.transfer (h : d.Awaits s k) (hwatch : e.controller.watch = d.controller.watch)
    (hresync : e.resync = d.resync) (hdirty : k ∈ d.controller.queue.dirty → e.Awaits s k)
    (hdelayed : k ∈ d.delayed → e.Awaits s k)
    (hworked : ∀ w ∈ d.work, w.key = k → w.IsOpen → e.Awaits s k) : e.Awaits s k := by
  cases h with
  | unread i event hi he hkey => exact .unread i event (hwatch ▸ hi) he hkey
  | due hdue => exact .due (hresync.trans hdue)
  | listed objects hlisted hor => exact .listed objects (hresync.trans hlisted) hor
  | dirty hin => exact hdirty hin
  | delayed hin => exact hdelayed hin
  | worked w hw hkey hopen => exact hworked w hw hkey hopen

/-- What happens to other keys leaves a key awaited or settled. -/
theorem Sound.covered_of_ne (h : d.Sound kind s) (hm : s.Moved t key)
    (hvalid : key.isValid = true) (hv : k.isValid = true) (hkind : k.kind = kind)
    (hk : k ≠ key) : d.Awaits t k ∨ t.Settled k := by
  rcases h.covered k hv hkind with hawaits | hsettled
  · exact Or.inl (hawaits.moved hm hk)
  · exact Or.inr (hsettled.moved hm hvalid hv hk)

/-- A desk at which nothing happens while the stores move. -/
theorem Sound.moved (h : d.Sound kind s) (hm : s.Moved t key) (hvalid : key.isValid = true)
    (htold : key.kind = kind → d.Awaits t key ∨ t.Settled key) : d.Sound kind t where
  serves := h.serves
  queue := h.queue
  position := h.position.trans hm.history_size_le
  ours := h.ours
  held := h.held
  apart := h.apart
  works w hw := (h.works w hw).moved hm
  covered k hv hkind := by
    by_cases hk : k = key
    · exact hk ▸ htold (hk ▸ hkind)
    · exact h.covered_of_ne hm hvalid hv hkind hk

/-! ### Moves that add keys -/

/-- A move at which the stores and the workers stand still and keys are added. -/
theorem Sound.added (h : d.Sound kind s) (keys : List ObjectKey)
    (hqueue : e.controller.queue = keys.foldl WorkQueue.add d.controller.queue)
    (hkind : e.controller.kind = d.controller.kind) (hwork : e.work = d.work)
    (hposition : e.controller.watch.position ≤ s.objects.history.size)
    (hours : ∀ key, e.Concerns key → d.Concerns key ∨ key.isValid = true ∧ key.kind = kind)
    (hcovered : ∀ key, key.isValid = true → key.kind = kind → d.Awaits s key →
      e.Awaits s key ∨ s.Settled key) : e.Sound kind s := by
  obtain ⟨hsound, hprocessing, -⟩ := h.queue.addMany keys
  exact {
    serves := hkind.trans h.serves
    queue := hqueue ▸ hsound
    position := hposition
    ours := fun key hkey => (hours key hkey).elim (h.ours key) id
    held := by
      rw [hqueue, hprocessing, hwork]
      exact h.held
    apart := hwork ▸ h.apart
    works := hwork ▸ h.works
    covered := fun key hv hk => (h.covered key hv hk).elim (hcovered key hv hk) Or.inr }

theorem Sound.deliver (h : d.Sound kind s) (hs : s.Sound) (hd : d.deliver s = some e) :
    e.Sound kind s := by
  unfold Desk.deliver at hd
  split at hd
  · rename_i event hresync hevent
    split at hd
    · obtain rfl := Option.some.inj hd
      have hin := (Array.getElem?_eq_some_iff.mp hevent).1
      have hmem : ∀ k, k ∈ (d.controller.takeEvent event).queue.dirty ↔
          k ∈ (if event.key.kind = d.controller.kind then [event.key] else []) ∨
            k ∈ d.controller.queue.dirty := (h.queue.addMany _).2.2
      refine h.added _ rfl rfl rfl hin (fun k hk => ?_) fun k _ hkind hk => Or.inl ?_
      · cases hk with
        | listed objects hlisted hmem => exact Or.inl (.listed objects hlisted hmem)
        | dirty hdirty =>
            rcases (hmem k).mp hdirty with hnew | hold
            · split at hnew
              · rename_i hkind
                obtain rfl := List.mem_singleton.mp hnew
                have hmem := Array.mem_of_getElem? hevent
                exact Or.inr ⟨hs.objects.told event hmem, hkind.trans h.serves⟩
              · cases hnew
            · exact Or.inl (.dirty hold)
        | delayed hmem => exact Or.inl (.delayed hmem)
        | worked w hw hkey => exact Or.inl (.worked w hw hkey)
      · cases hk with
        | unread i e' hi he hkey =>
            by_cases hnow : i = d.controller.watch.position
            · -- this event is the one that arrives
              subst hnow
              obtain rfl := Option.some.inj (hevent.symm.trans he)
              refine .dirty ((hmem k).mpr (Or.inl ?_))
              rw [if_pos (by rw [h.serves, hkey, hkind]), hkey]
              exact List.mem_singleton_self k
            · exact .unread i e' (Nat.lt_of_le_of_ne hi (Ne.symm hnow)) he hkey
        | due hdue => exact absurd (hresync.symm.trans hdue) (by simp)
        | listed objects hlisted => exact absurd (hresync.symm.trans hlisted) (by simp)
        | dirty hdirty => exact .dirty ((hmem k).mpr (Or.inr hdirty))
        | delayed hmem => exact .delayed hmem
        | worked w hw hkey hopen => exact .worked w hw hkey hopen
    · cases hd
  · cases hd

theorem Sound.lag (h : d.Sound kind s) (hd : d.lag s = some e) : e.Sound kind s := by
  unfold Desk.lag at hd
  dsimp only at hd
  split at hd
  · rename_i hresync
    split at hd
    · cases hd
    · obtain rfl := Option.some.inj hd
      refine h.added [] rfl rfl rfl ?_ (fun k hk => ?_) fun k _ _ _ => Or.inl (.due rfl)
      · have := h.position
        simp only [Watch.lost]
        omega
      · cases hk with
        | listed objects hlisted => cases hlisted
        | dirty hdirty => exact Or.inl (.dirty hdirty)
        | delayed hmem => exact Or.inl (.delayed hmem)
        | worked w hw hkey => exact Or.inl (.worked w hw hkey)
  · cases hd

theorem Sound.list (h : d.Sound kind s) (hs : s.Sound) (hd : d.list s = some e) :
    e.Sound kind s := by
  unfold Desk.list at hd
  split at hd
  · rename_i hresync
    obtain rfl := Option.some.inj hd
    refine h.added [] rfl rfl rfl h.position (fun k hk => ?_) fun k hv hkind hk => Or.inl ?_
    · cases hk with
      | listed objects hlisted hmem =>
          obtain rfl := Resync.listed.inj hlisted
          obtain ⟨hkind, o, ho⟩ := hs.objects.mem_list_iff.mp hmem
          exact Or.inr ⟨hs.objects.valid k o ho, hkind.trans h.serves⟩
      | dirty hdirty => exact Or.inl (.dirty hdirty)
      | delayed hmem => exact Or.inl (.delayed hmem)
      | worked w hw hkey => exact Or.inl (.worked w hw hkey)
    · -- a resync that was due covers all keys, and does so when the objects are listed
      refine .listed _ rfl ?_
      cases hget : s.objects.objects.get? k with
      | none => exact Or.inr rfl
      | some o => exact Or.inl (hs.objects.mem_list_iff.mpr ⟨hkind.trans h.serves.symm, o, hget⟩)
  · cases hd

theorem Sound.enqueue (h : d.Sound kind s) (hs : s.Sound) (hd : d.enqueue s = some e) :
    e.Sound kind s := by
  unfold Desk.enqueue at hd
  split at hd
  · rename_i objects hresync
    obtain rfl := Option.some.inj hd
    have hmem := (h.queue.addMany
      (Controller.allKeys d.controller.kind (.ok objects) s.resources)).2.2
    simp only [hs.mem_allKeys_iff, h.serves] at hmem
    refine h.added _ rfl rfl rfl h.position (fun k hk => ?_) fun k hv hkind hk => ?_
    · cases hk with
      | listed objects hlisted => cases hlisted
      | dirty hdirty =>
          rw [Controller.resync, Controller.addAll, h.serves] at hdirty
          rcases (hmem k).mp hdirty with (hlisted | ⟨hv, hkind, -⟩) | hold
          · exact Or.inl (.listed objects hresync hlisted)
          · exact Or.inr ⟨hv, hkind⟩
          · exact Or.inl (.dirty hold)
      | delayed hmem => exact Or.inl (.delayed hmem)
      | worked w hw hkey => exact Or.inl (.worked w hw hkey)
    · have hdirty : ∀ {k}, (k ∈ objects.map (·.key) ∨ k.isValid = true ∧ k.kind = kind ∧
          ∃ stored, s.resources.resources.get? k.resourceName = some stored) ∨
            k ∈ d.controller.queue.dirty → Awaits { d with
              controller := d.controller.resync (.ok objects) s.resources
              resync := .none } s k := by
        intro k hor
        refine .dirty ?_
        rw [Controller.resync, Controller.addAll, h.serves]
        exact (hmem k).mpr hor
      cases hk with
      | unread i e' hi he hkey => exact Or.inl (.unread i e' hi he hkey)
      | due hdue => exact absurd (hresync.symm.trans hdue) (by simp)
      | listed objects' hlisted hor =>
          obtain rfl := Resync.listed.inj (hresync.symm.trans hlisted)
          rcases hor with hmem | hgone
          · exact Or.inl (hdirty (Or.inl (Or.inl hmem)))
          · cases hget : s.resources.resources.get? k.resourceName with
            | some stored =>
                exact Or.inl (hdirty (Or.inl (Or.inr ⟨hv, hkind, stored, hget⟩)))
            | none =>
                -- neither an object nor a resource
                exact Or.inr {
                  gone := fun _ => hget
                  served := fun o r ho => absurd (hgone.symm.trans ho) (by simp)
                  judged := fun o ho => absurd (hgone.symm.trans ho) (by simp) }
      | dirty hmem => exact Or.inl (hdirty (Or.inr hmem))
      | delayed hmem => exact Or.inl (.delayed hmem)
      | worked w hw hkey hopen => exact Or.inl (.worked w hw hkey hopen)
  · cases hd

theorem Sound.expire (h : d.Sound kind s) {index : ℕ} (hd : d.expire index = some e) :
    e.Sound kind s := by
  unfold Desk.expire at hd
  obtain ⟨key, hkey, rfl⟩ := Option.map_eq_some_iff.mp hd
  obtain ⟨before, after, hsplit, -, herase⟩ := exists_split_of_getElem? hkey
  have hmem : ∀ k, k ∈ (d.controller.queue.add key).dirty ↔
      k = key ∨ k ∈ d.controller.queue.dirty := fun k => h.queue.mem_dirty_add
  have hdelayed : ∀ k, k ∈ d.delayed ↔ k = key ∨ k ∈ d.delayed.eraseIdx index := by
    intro k
    rw [herase, hsplit]
    simp only [List.mem_append, List.mem_cons]
    tauto
  refine h.added [key] rfl rfl rfl h.position (fun k hk => Or.inl ?_) fun k _ _ hk => Or.inl ?_
  · cases hk with
    | listed objects hlisted hmem => exact .listed objects hlisted hmem
    | dirty hdirty =>
        rcases (hmem k).mp hdirty with rfl | hold
        · exact .delayed ((hdelayed k).mpr (Or.inl rfl))
        · exact .dirty hold
    | delayed hin => exact .delayed ((hdelayed k).mpr (Or.inr hin))
    | worked w hw hkey => exact .worked w hw hkey
  · refine hk.transfer rfl rfl (fun hin => .dirty ((hmem k).mpr (Or.inr hin))) (fun hin => ?_)
      fun w hw hkey hopen => .worked w hw hkey hopen
    rcases (hdelayed k).mp hin with rfl | hrest
    · exact .dirty ((hmem k).mpr (Or.inl rfl))
    · exact .delayed hrest

/-! ### Moves of the workers -/

theorem Sound.take (h : d.Sound kind s) (hd : d.take = some e) : e.Sound kind s := by
  unfold Desk.take at hd
  obtain ⟨⟨key, queue⟩, hget, rfl⟩ := Option.map_eq_some_iff.mp hd
  obtain ⟨hsound, hkey, hfree, hdirty, hprocessing⟩ := h.queue.get? hget
  exact {
    serves := h.serves
    queue := hsound
    position := h.position
    ours := fun k hk => h.ours k <| by
      cases hk with
      | listed objects hlisted hmem => exact .listed objects hlisted hmem
      | dirty hmem => exact .dirty ((hdirty k).mp hmem).1
      | delayed hmem => exact .delayed hmem
      | worked w hw hwkey =>
          rcases List.mem_cons.mp hw with rfl | hw
          · exact .dirty (hwkey ▸ hkey)
          · exact .worked w hw hwkey
    held := fun k => (hprocessing k).trans <|
      (or_congr_right (h.held k)).trans List.mem_cons.symm
    apart := List.nodup_cons.mpr ⟨fun hmem => hfree ((h.held key).mpr hmem), h.apart⟩
    works := fun w hw => by
      rcases List.mem_cons.mp hw with rfl | hw
      · trivial
      · exact h.works w hw
    covered := fun k hv hkind => (h.covered k hv hkind).imp_left fun hk => by
      refine hk.transfer rfl rfl (fun hin => ?_) (fun hin => .delayed hin)
        fun w hw hkey hopen => .worked w (List.mem_cons_of_mem _ hw) hkey hopen
      by_cases hnow : k = key
      · exact .worked (.taken key) List.mem_cons_self hnow.symm trivial
      · exact .dirty ((hdirty k).mpr ⟨hin, hnow⟩) }

/-- A worker goes on with its key, and the stores move at that key at most. -/
theorem Sound.replaced (h : d.Sound kind s) {before after : List Work} {w : Work}
    (hwork : d.work = before ++ w :: after) (w' : Work) (hkey : w'.key = w.key)
    (failures : List (ObjectKey × ℕ)) (delayed : List ObjectKey)
    (hdelayed : ∀ k, k ∈ delayed ↔ k ∈ d.delayed ∨ k ∈ delayed ∧ k = w.key)
    (he : e = { d.setQueue { d.controller.queue with failures := failures } with
      work := before ++ w' :: after
      delayed := delayed })
    (hm : s.Moved t w.key) (hw : w'.Sound t) (hnow : e.Awaits t w.key ∨ t.Settled w.key) :
    e.Sound kind t := by
  have hkeys : e.work.map Work.key = d.work.map Work.key := by
    rw [he, hwork]
    simp [hkey]
  have hmem : ∀ x, x ∈ e.work → x = w' ∨ x ∈ d.work := by
    intro x hx
    rw [he] at hx
    rw [hwork]
    simp only [List.mem_append, List.mem_cons] at hx ⊢
    tauto
  have hmem' : ∀ x, x ∈ d.work → x = w ∨ x ∈ e.work := by
    intro x hx
    rw [hwork] at hx
    rw [he]
    simp only [List.mem_append, List.mem_cons] at hx ⊢
    tauto
  have hw_mem : w ∈ d.work := by rw [hwork]; simp
  obtain ⟨hvalid, -⟩ := h.ours w.key (.worked w hw_mem rfl)
  subst he
  exact {
    serves := h.serves
    queue := h.queue.of_failures failures
    position := h.position.trans hm.history_size_le
    ours := fun k hk => h.ours k <| by
      cases hk with
      | listed objects hlisted hin => exact .listed objects hlisted hin
      | dirty hin => exact .dirty hin
      | delayed hin =>
          rcases (hdelayed k).mp hin with hold | ⟨-, hnew⟩
          · exact .delayed hold
          · exact .worked w hw_mem hnew.symm
      | worked x hx hxkey =>
          rcases hmem x hx with rfl | hx
          · exact .worked w hw_mem (hkey.symm.trans hxkey)
          · exact .worked x hx hxkey
    held := fun k => by
      rw [hkeys]
      exact h.held k
    apart := hkeys ▸ h.apart
    works := fun x hx => by
      rcases hmem x hx with rfl | hx
      · exact hw
      · exact (h.works x hx).moved hm
    covered := fun k hv hkind => by
      by_cases hk : k = w.key
      · exact hk ▸ hnow
      · refine (h.covered_of_ne hm hvalid hv hkind hk).imp_left fun hawaits => ?_
        refine hawaits.transfer rfl rfl (fun hin => .dirty hin)
          (fun hin => .delayed ((hdelayed k).mpr (Or.inl hin))) fun x hx hxkey hopen => ?_
        rcases hmem' x hx with rfl | hx
        · exact absurd hxkey.symm hk
        · exact .worked x hx hxkey hopen }

theorem Sound.start (h : d.Sound kind s) (hs : s.Sound) {before after : List Work}
    (hwork : d.work = before ++ .taken key :: after) (now : Timestamp) :
    Sound { d with
      work := before ++ .ofProgress key (Reconcile.start key now s).2 :: after } kind
      (Reconcile.start key now s).1 := by
  have hstart := Reconcile.start_cases key now s
  have hmem : Work.taken key ∈ d.work := by rw [hwork]; simp
  have hvalid := (h.ours key (.worked _ hmem rfl)).1
  generalize Reconcile.start key now s = x at hstart ⊢
  cases hprogress : x.2 with
  | ended result =>
      obtain ⟨rfl, hsettled⟩ := hstart.settles hs hvalid hprogress
      exact h.replaced hwork (.ended key (.ok .done)) rfl d.controller.queue.failures d.delayed
        (fun k => by tauto) rfl hstart.moved (Or.inl rfl) (Or.inr hsettled)
  | judged pass =>
      obtain ⟨rfl, hfaithful⟩ := hstart.faithful hs hprogress
      refine h.replaced hwork (.judged pass) rfl d.controller.queue.failures d.delayed
        (fun k => by tauto) rfl hstart.moved hfaithful (Or.inl ?_)
      exact .worked (.judged pass) (by simp [Work.ofProgress]) rfl trivial

theorem Sound.conclude (h : d.Sound kind s) (hs : s.Sound) {before after : List Work}
    {pass : Reconcile.Judged} (hwork : d.work = before ++ .judged pass :: after) :
    Sound { d with work := before ++ .ended pass.key (Reconcile.conclude pass s).2 :: after } kind
      (Reconcile.conclude pass s).1 := by
  have hmem : Work.judged pass ∈ d.work := by rw [hwork]; simp
  have hfaithful : Reconcile.Faithful s pass := h.works _ hmem
  have hconclude := hfaithful.concluded
  generalize Reconcile.conclude pass s = x at hconclude ⊢
  obtain ⟨t, result⟩ := x
  refine h.replaced hwork (.ended pass.key result) rfl d.controller.queue.failures d.delayed
    (fun k => by tauto) rfl (hconclude.moved hfaithful) ?_ ?_
  · exact (hconclude.settles hs hfaithful).elim Or.inr fun hdone => Or.inl hdone.1
  · rcases hconclude.settles hs hfaithful with hagain | ⟨-, hsettled | htouched⟩
    · exact Or.inl (.worked (.ended pass.key result) (by simp) rfl hagain)
    · exact Or.inr hsettled
    · exact Or.inl (awaits_of_touched h.position htouched)

theorem Sound.decide (h : d.Sound kind s) {before after : List Work} {result : PassResult}
    (hwork : d.work = before ++ .ended key result :: after) :
    Sound { d.setQueue
        (Controller.handleResult d.controller.queue key result d.maxRetries).1 with
      work := before ++ .decided key :: after
      delayed := if (Controller.handleResult d.controller.queue key result d.maxRetries).2.isSome
        then key :: d.delayed else d.delayed } kind s := by
  have hmem : Work.ended key result ∈ d.work := by rw [hwork]; simp
  have hstill : s.Moved s key := ⟨Or.inl rfl, fun _ _ => rfl⟩
  rcases h.works _ hmem with rfl | rfl
  · refine h.replaced hwork (.decided key) rfl
      (d.controller.queue.failures.filter (·.1 ≠ key)) d.delayed (fun k => by tauto) rfl hstill
      trivial ?_
    -- the worker has nothing more to do for its key, so that something else covers it
    obtain ⟨hvalid, hkind⟩ := h.ours key (.worked _ hmem rfl)
    refine (h.covered key hvalid hkind).imp_left fun hawaits => ?_
    refine hawaits.transfer rfl rfl (fun hin => .dirty hin) (fun hin => .delayed hin)
      fun x hx hxkey hopen => ?_
    rw [hwork, List.mem_append, List.mem_cons] at hx
    rcases hx with hx | rfl | hx
    · exact .worked x (List.mem_append_left _ hx) hxkey hopen
    · cases hopen
    · exact .worked x (List.mem_append_right _ (List.mem_cons_of_mem _ hx)) hxkey hopen
  · refine h.replaced hwork (.decided key) rfl
      (d.controller.queue.addRateLimited key).1.failures (key :: d.delayed) (fun k => ?_) rfl
      hstill trivial (Or.inl (.delayed List.mem_cons_self))
    rw [List.mem_cons]
    simp only [Work.key]
    tauto

theorem Sound.giveBack (h : d.Sound kind s) {before after : List Work}
    (hwork : d.work = before ++ .decided key :: after) :
    Sound { d.setQueue (d.controller.queue.done key) with work := before ++ after } kind s := by
  have hmem : ∀ x, x ∈ d.work ↔ x = .decided key ∨ x ∈ before ++ after := by
    intro x
    rw [hwork]
    simp only [List.mem_append, List.mem_cons]
    tauto
  have hapart := h.apart
  rw [hwork, List.map_append, List.map_cons, List.nodup_middle, List.nodup_cons,
    ← List.map_append] at hapart
  obtain ⟨hother, hapart⟩ := hapart
  have hkey : key ∈ d.controller.queue.processing :=
    (h.held key).mpr (List.mem_map_of_mem ((hmem _).mpr (Or.inl rfl)))
  exact {
    serves := h.serves
    queue := h.queue.done hkey
    position := h.position
    ours := fun k hk => h.ours k <| by
      cases hk with
      | listed objects hlisted hin => exact .listed objects hlisted hin
      | dirty hin => exact .dirty ((WorkQueue.done_dirty _ key) ▸ hin)
      | delayed hin => exact .delayed hin
      | worked x hx hxkey => exact .worked x ((hmem x).mpr (Or.inr hx)) hxkey
    held := fun k => by
      refine WorkQueue.mem_processing_done.trans ?_
      rw [h.held k, List.mem_map, List.mem_map]
      constructor
      · rintro ⟨⟨x, hx, rfl⟩, hne⟩
        rcases (hmem x).mp hx with rfl | hx
        · exact absurd rfl hne
        · exact ⟨x, hx, rfl⟩
      · rintro ⟨x, hx, rfl⟩
        refine ⟨⟨x, (hmem x).mpr (Or.inr hx), rfl⟩, fun heq => hother ?_⟩
        exact List.mem_map.mpr ⟨x, hx, heq⟩
    apart := hapart
    works := fun x hx => h.works x ((hmem x).mpr (Or.inr hx))
    covered := fun k hv hkind => (h.covered k hv hkind).imp_left fun hawaits => by
      refine hawaits.transfer rfl rfl
        (fun hin => .dirty ((WorkQueue.done_dirty _ key).symm ▸ hin))
        (fun hin => .delayed hin) fun x hx hxkey hopen => ?_
      rcases (hmem x).mp hx with rfl | hx
      · cases hopen
      · exact .worked x hx hxkey hopen }

/-- A worker that goes on keeps its desk in order. -/
theorem Sound.advance (h : d.Sound kind s) (hs : s.Sound) {worker : ℕ} {now : Timestamp}
    (hd : d.advance s worker now = some (t, e)) :
    e.Sound kind t ∧ Stores.Worked kind s t := by
  unfold Desk.advance at hd
  obtain ⟨w, hw, hx⟩ := Option.map_eq_some_iff.mp hd
  obtain ⟨before, after, hwork, hset, herase⟩ := exists_split_of_getElem? hw
  have hmem : w ∈ d.work := by rw [hwork]; simp
  obtain ⟨hvalid, hkind⟩ := h.ours w.key (.worked w hmem rfl)
  cases w with
  | taken key =>
      obtain ⟨rfl, rfl⟩ := Prod.mk.inj hx
      rw [hset]
      exact ⟨h.start hs hwork now, .start key now hvalid hkind⟩
  | judged pass =>
      obtain ⟨rfl, rfl⟩ := Prod.mk.inj hx
      rw [hset]
      exact ⟨h.conclude hs hwork, .conclude pass (h.works _ hmem) hkind⟩
  | ended key result =>
      obtain ⟨rfl, rfl⟩ := Prod.mk.inj hx
      rw [hset]
      exact ⟨h.decide hwork, .idle⟩
  | decided key =>
      obtain ⟨rfl, rfl⟩ := Prod.mk.inj hx
      rw [herase]
      exact ⟨h.giveBack hwork, .idle⟩

/-- A move at a desk keeps the desk in order, and its workers alone move the stores. -/
theorem Sound.step (h : d.Sound kind s) (hs : s.Sound) {m : Move}
    (hd : d.step s m = some (t, e)) :
    e.Sound kind t ∧ Stores.Worked kind s t := by
  have hstill : ∀ {o : Option Desk}, o.map (s, ·) = some (t, e) → t = s ∧ o = some e := by
    intro o ho
    obtain ⟨e', ho', heq⟩ := Option.map_eq_some_iff.mp ho
    obtain ⟨rfl, rfl⟩ := Prod.mk.inj heq
    exact ⟨rfl, ho'⟩
  cases m with
  | deliver =>
      obtain ⟨rfl, hmove⟩ := hstill hd
      exact ⟨h.deliver hs hmove, .idle⟩
  | lag =>
      obtain ⟨rfl, hmove⟩ := hstill hd
      exact ⟨h.lag hmove, .idle⟩
  | list =>
      obtain ⟨rfl, hmove⟩ := hstill hd
      exact ⟨h.list hs hmove, .idle⟩
  | enqueue =>
      obtain ⟨rfl, hmove⟩ := hstill hd
      exact ⟨h.enqueue hs hmove, .idle⟩
  | take =>
      obtain ⟨rfl, hmove⟩ := hstill hd
      exact ⟨h.take hmove, .idle⟩
  | advance worker now => exact h.advance hs hd
  | expire index =>
      obtain ⟨rfl, hmove⟩ := hstill hd
      exact ⟨h.expire hmove, .idle⟩

/-- At a standstill there is nothing left to do for any key of the kind. -/
theorem Sound.settled (h : d.Sound kind s) (hstill : d.Standstill s)
    (hvalid : key.isValid = true) (hkind : key.kind = kind) : s.Settled key := by
  have hdirty := h.queue.dirty_eq_nil hstill.noPending hstill.noProcessing
  rcases h.covered key hvalid hkind with hawaits | hsettled
  · exfalso
    cases hawaits with
    | unread i e hi he hkey =>
        have := (Array.getElem?_eq_some_iff.mp he).1
        rw [hstill.caughtUp] at hi
        omega
    | due hdue => cases hstill.noResync.symm.trans hdue
    | listed objects hlisted => cases hstill.noResync.symm.trans hlisted
    | dirty hin =>
        rw [hdirty] at hin
        cases hin
    | delayed hin =>
        rw [hstill.noDelayed] at hin
        cases hin
    | worked w hw hkey hopen =>
        have := (h.held w.key).mpr (List.mem_map_of_mem hw)
        rw [hstill.noProcessing] at this
        cases this
  · exact hsettled

end invariant

theorem opening_sound [NewerMessages] (policy : Plane.Policy) (objects : ObjectStore)
    (kind : Kind) : (opening policy objects kind).Sound kind ⟨objects, .empty⟩ where
  serves := rfl
  queue := WorkQueue.new_sound _ _
  position := le_refl _
  ours key hkey := by
    cases hkey with
    | listed objects hlisted => cases hlisted
    | dirty hin => cases hin
    | delayed hin => cases hin
    | worked w hw => cases hw
  held key := Iff.rfl
  apart := List.nodup_nil
  works w hw := by cases hw
  covered key _ _ := Or.inl (.due rfl)

end Desk

namespace Pipeline

/-! ### Runs -/

structure Sound [NewerMessages] (p : Pipeline) : Prop where
  stores : p.stores.Sound
  desks : ∀ kind, (p.desks kind).Sound kind p.stores

section runs
variable [NewerMessages] {p q : Pipeline}

theorem Sound.step (h : p.Sound) {m : Move} (hm : p.step m = some q) : q.Sound := by
  cases m with
  | client w =>
      obtain rfl := Option.some.inj hm
      rcases w.run_cases h.stores.objects with heq | ht
      · simp only [heq]
        exact h
      · refine ⟨h.stores.touched ht, fun kind => ?_⟩
        have hmoved : p.stores.Moved ⟨w.run p.stores.objects, p.stores.resources⟩ w.key :=
          ⟨Or.inr ht, fun _ _ => rfl⟩
        exact (h.desks kind).moved hmoved (ht.valid h.stores.objects) fun _ =>
          Or.inl (Desk.awaits_of_touched (h.desks kind).position ht)
  | desk kind m =>
      obtain ⟨⟨t, e⟩, hd, rfl⟩ := Option.map_eq_some_iff.mp hm
      obtain ⟨hsound, hworked⟩ := (h.desks kind).step h.stores hd
      refine ⟨hworked.sound h.stores, fun k => ?_⟩
      by_cases hk : k = kind
      · subst hk
        simpa using hsound
      · simp only [Function.update_of_ne hk]
        rcases hworked.moved with rfl | ⟨key, hvalid, hkind, hmoved⟩
        · exact h.desks k
        · -- the other controllers have nothing to do with the key
          exact (h.desks k).moved hmoved hvalid fun hother =>
            absurd (hother.symm.trans hkind) hk

theorem Sound.run (h : p.Sound) {moves : List Move} (hrun : p.run moves = some q) : q.Sound := by
  induction moves generalizing p with
  | nil =>
      obtain rfl := Option.some.inj hrun
      exact h
  | cons m rest ih =>
      obtain ⟨p', hm, hrest⟩ := Option.bind_eq_some_iff.mp hrun
      exact ih (h.step hm) hrest

theorem opening_sound (policy : Plane.Policy) {objects : ObjectStore} (h : objects.Reachable) :
    (opening policy objects).Sound where
  stores := Stores.empty_sound objects h.sound
  desks := Desk.opening_sound policy objects

end runs
end Pipeline

end ControlPlane
