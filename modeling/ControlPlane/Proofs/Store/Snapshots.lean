import ControlPlane.Proofs.Store.Publications

/-! # Snapshots are what is stored

A publication is rebuilt only when it has to be: a change that nobody listens to leaves a mark, and
a write that changes no resource leaves nothing at all.  Still a publication without the mark
always shows the store as it is (`Current`), since a change either rebuilds it or marks it
(`publish_current`), and the other operations change nothing that is shown.  Whoever asks for a
snapshot has a marked publication rebuilt first, and whoever listens keeps it from being marked, so
both see exactly what is stored, whatever the order of changes, requests, subscriptions and
departures (`Audience.shows_of_run`). -/

namespace ControlPlane

namespace Entry

/-- What a proxy gets to see of an entry. -/
def served (e : Entry) : ResourceName × String × Payload := (e.name, e.envoyName, e.body)

end Entry

namespace ResourceStore

/-! ### What a snapshot is to show -/

/-- The resources of a kind that are stored for a protocol, by name and as they are served. -/
def offered (s : ResourceStore) (p : Protocol) (kind : Kind) :
    List (ResourceName × String × Payload) :=
  (s.resources.entries.filter fun e => e.2.resource.kind = kind ∧ e.2.resource.protocol = p).map
    fun e => (e.1, e.2.resource.envoyName, e.2.resource.payload)

/-- The snapshot shows the store as it is: it has the store's version, and for each kind it lists
one entry for each stored resource, in strictly increasing order of the names, and no other. -/
structure Shows (s : ResourceStore) (p : Protocol) (shown : Snapshot) : Prop where
  version : shown.version = s.version
  protocol : shown.protocol = p
  ordered : ∀ kind, (shown.resources kind).Pairwise fun a b => compare a.name b.name = .lt
  entries : ∀ kind, (shown.resources kind).map Entry.served = s.offered p kind

section shows
variable {s t : ResourceStore} {p q : Protocol} {shown : Snapshot}

theorem build_shows (s : ResourceStore) (p : Protocol) : s.Shows p (s.build p) where
  version := rfl
  protocol := rfl
  ordered kind := (s.build_ordered p).sublist List.filter_sublist
  entries kind := by
    have hpick : ∀ e : ResourceName × StoredResource,
        (decide ((entryOf e.1 e.2).kind = kind) && decide (e.2.resource.protocol = p)) =
          decide (e.2.resource.kind = kind ∧ e.2.resource.protocol = p) := by
      intro e
      rw [← Bool.decide_and]
      rfl
    unfold Snapshot.resources build offered
    rw [List.filter_map, List.filter_filter, List.map_map]
    simp only [Function.comp_def, hpick]
    rfl

/-- To be shown takes the version and what is offered. -/
theorem Shows.congr (h : s.Shows p shown) (hversion : t.version = s.version)
    (hoffered : ∀ kind, t.offered p kind = s.offered p kind) : t.Shows p shown where
  version := h.version.trans hversion.symm
  protocol := h.protocol
  ordered := h.ordered
  entries kind := (h.entries kind).trans (hoffered kind).symm

theorem offered_congr (h : t.resources = s.resources) (p : Protocol) (kind : Kind) :
    t.offered p kind = s.offered p kind := by
  unfold offered
  rw [h]

/-- A write that changes no resource finds the resource stored. -/
theorem resource_of_unchanged {name : ResourceName} {version : ResourceVersion}
    {resource : Resource} (h : s.outcome name version resource = .unchanged) :
    (s.resources.get? name).map (·.resource) = some resource := by
  unfold outcome at h
  split at h
  · cases h
  · rename_i stored hget
    split at h
    · cases h
    · split at h
      · rename_i hsame
        rw [hget, Option.map_some, hsame]
      · cases h

theorem current_refresh (s : ResourceStore) (p : Protocol) :
    ((s.refresh p).publication p).current = s.build p := by
  unfold refresh
  rw [publication_setPublication_self]

/-- What one who asks for a snapshot gets depends on the publication and on what is offered. -/
theorem snapshot_served_congr (hpublication : t.publication p = s.publication p)
    (hversion : t.version = s.version) (hoffered : ∀ kind, t.offered p kind = s.offered p kind) :
    (t.snapshot p).2.version = (s.snapshot p).2.version ∧
      ∀ kind, ((t.snapshot p).2.resources kind).map Entry.served =
        ((s.snapshot p).2.resources kind).map Entry.served := by
  unfold snapshot freshen
  rw [hpublication]
  split
  · dsimp only
    rw [current_refresh, current_refresh]
    refine ⟨hversion, fun kind => ?_⟩
    rw [(build_shows t p).entries, (build_shows s p).entries, hoffered]
  · dsimp only
    rw [hpublication]
    exact ⟨rfl, fun _ => rfl⟩

/-- What is offered does not depend on the versions that the resources came with. -/
theorem offered_put_of_unchanged {name : ResourceName} {version : ResourceVersion}
    {resource : Resource} (h : s.outcome name version resource = .unchanged) (p : Protocol)
    (kind : Kind) : (s.put name version resource).offered p kind = s.offered p kind := by
  have hthere : (s.resources.get? name).map (·.resource) = some resource :=
    resource_of_unchanged h
  have hview : (s.resources.insert name ⟨version, resource⟩).mapWithKey (fun _ x => x.resource) =
      s.resources.mapWithKey (fun _ x => x.resource) := by
    apply Catalog.ext_get?
    intro k
    rw [Catalog.get?_mapWithKey, Catalog.get?_mapWithKey, Catalog.get?_insert]
    by_cases hk : k = name
    · rw [if_pos hk, hk, hthere, Option.map_some]
    · rw [if_neg hk]
  have hoffered : ∀ c : Catalog ResourceName StoredResource,
      (c.entries.filter fun e => e.2.resource.kind = kind ∧ e.2.resource.protocol = p).map
          (fun e => (e.1, e.2.resource.envoyName, e.2.resource.payload)) =
        ((c.mapWithKey fun _ x => x.resource).entries.filter fun e =>
          e.2.kind = kind ∧ e.2.protocol = p).map fun e => (e.1, e.2.envoyName, e.2.payload) := by
    intro c
    unfold Catalog.mapWithKey
    rw [List.filter_map, List.map_map]
    rfl
  unfold offered put
  rw [hoffered, hoffered, hview]

end shows

/-! ### Publications without a mark -/

/-- A publication that is not marked shows the store. -/
def Current (s : ResourceStore) (p : Protocol) : Prop :=
  (s.publication p).isStale = false → s.Shows p (s.publication p).current

section current
variable {s t : ResourceStore} {p : Protocol}

/-- A store in which nothing has changed for a protocol but perhaps its receivers. -/
theorem Current.congr (h : s.Current p)
    (hcurrent : (t.publication p).current = (s.publication p).current)
    (hstale : (t.publication p).isStale = (s.publication p).isStale)
    (hversion : t.version = s.version)
    (hoffered : ∀ kind, t.offered p kind = s.offered p kind) : t.Current p := by
  intro hfresh
  rw [hcurrent]
  exact (h (hstale ▸ hfresh)).congr hversion hoffered

theorem Current.setPublication (h : s.Current p) {q : Protocol} {x : Publication}
    (hcurrent : x.current = (s.publication q).current)
    (hstale : x.isStale = (s.publication q).isStale) : (s.setPublication q x).Current p := by
  have hsame : ((s.setPublication q x).publication p).current = (s.publication p).current ∧
      ((s.setPublication q x).publication p).isStale = (s.publication p).isStale := by
    by_cases hq : p = q
    · subst hq
      rw [publication_setPublication_self]
      exact ⟨hcurrent, hstale⟩
    · rw [publication_setPublication_of_ne _ _ _ _ hq]
      exact ⟨rfl, rfl⟩
  exact h.congr hsame.1 hsame.2 (setPublication_version _ _ _)
    fun kind => offered_congr (setPublication_resources _ _ _) p kind

/-- A publication that has just been rebuilt shows the store. -/
theorem refresh_current_self (s : ResourceStore) (p : Protocol) : (s.refresh p).Current p := by
  intro _
  rw [current_refresh]
  exact (s.build_shows p).congr (refresh_version s p)
    fun kind => offered_congr (refresh_resources s p) p kind

theorem Current.refresh (h : s.Current p) (q : Protocol) : (s.refresh q).Current p := by
  by_cases hq : p = q
  · subst hq
    exact refresh_current_self s p
  · have hpub : (s.refresh q).publication p = s.publication p :=
      publication_setPublication_of_ne _ _ _ _ hq
    exact h.congr (by rw [hpub]) (by rw [hpub]) (refresh_version s q)
      fun kind => offered_congr (refresh_resources s q) p kind

theorem Current.freshen (h : s.Current p) (q : Protocol) : (s.freshen q).Current p := by
  unfold ResourceStore.freshen
  split
  · exact h.refresh q
  · exact h

theorem isStale_freshen (s : ResourceStore) (p : Protocol) :
    ((s.freshen p).publication p).isStale = false := by
  unfold ResourceStore.freshen
  split
  · unfold ResourceStore.refresh
    rw [publication_setPublication_self]
  · rename_i hfresh
    exact Bool.eq_false_iff.mpr hfresh

/-- A publication that is told of a change is marked or rebuilt. -/
theorem announce_current_self (s : ResourceStore) (p : Protocol) : (s.announce p).Current p := by
  unfold announce
  dsimp only
  split
  · intro hfresh
    rw [publication_setPublication_self] at hfresh
    cases hfresh
  · exact refresh_current_self s p

theorem Current.announce (h : s.Current p) (q : Protocol) : (s.announce q).Current p := by
  by_cases hq : p = q
  · subst hq
    exact announce_current_self s p
  · have hpub : (s.announce q).publication p = s.publication p := by
      unfold ResourceStore.announce
      dsimp only
      split
      · exact publication_setPublication_of_ne _ _ _ _ hq
      · exact publication_setPublication_of_ne _ _ _ _ hq
    exact h.congr (by rw [hpub]) (by rw [hpub]) (announce_version s q)
      fun kind => offered_congr (announce_resources s q) p kind

/-- However the store was changed, publishing the change leaves no publication behind. -/
theorem publish_current (s : ResourceStore) (p : Protocol) : s.publish.Current p := by
  unfold publish
  cases p with
  | v2 => exact (announce_current_self _ .v2).announce .v3
  | v3 => exact announce_current_self _ .v3

theorem Current.update (h : s.Current p) (name : ResourceName) (version : ResourceVersion)
    (resource : Resource) : (s.update name version resource).1.Current p := by
  unfold ResourceStore.update
  split
  · exact publish_current _ p
  · rename_i hunchanged
    exact h.congr rfl rfl rfl (offered_put_of_unchanged hunchanged p)
  · exact h

theorem Current.delete (h : s.Current p) (name : ResourceName) : (s.delete name).1.Current p := by
  unfold ResourceStore.delete
  split
  · exact publish_current _ p
  · exact h

theorem Current.subscribe (h : s.Current p) (q : Protocol) : (s.subscribe q).1.Current p := by
  unfold ResourceStore.subscribe
  apply Current.freshen
  exact h.setPublication rfl rfl

theorem Current.unsubscribe (h : s.Current p) (r : Receiver) : (s.unsubscribe r).Current p :=
  h.setPublication rfl rfl

/-- Whoever asks for the snapshot gets the store as it is. -/
theorem Current.snapshot (h : s.Current p) : s.Shows p (s.snapshot p).2 := by
  have hshows : (s.freshen p).Shows p (s.snapshot p).2 := (h.freshen p) (isStale_freshen s p)
  exact hshows.congr (freshen_version s p).symm
    fun kind => (offered_congr (freshen_resources s p) p kind).symm

theorem empty_current (p : Protocol) : empty.Current p := by
  intro _
  cases p <;> exact ⟨rfl, rfl, fun _ => .nil, fun _ => rfl⟩

end current
end ResourceStore

/-! ### A store and those who use it -/

/-- A resource store with the receivers that are live. -/
structure Audience where
  store : ResourceStore
  receivers : List Receiver

namespace Audience

/-- What is asked of a resource store. -/
inductive Request where
  | update (name : ResourceName) (version : ResourceVersion) (resource : Resource)
  | delete (name : ResourceName)
  | snapshot (protocol : Protocol)
  | subscribe (protocol : Protocol)
  /-- A live receiver is dropped. -/
  | drop (receiver : Receiver)
deriving DecidableEq, Repr

/-- What the store answers. -/
inductive Answer where
  | written (outcome : WriteOutcome)
  | deleted (found : Bool)
  | shown (snapshot : Snapshot)
  | subscribed (receiver : Receiver)
  | dropped
deriving DecidableEq, Repr

/-- The answer tells of a change of the stored resources. -/
def Answer.isChange : Answer → Bool
  | written outcome => outcome = .stored
  | deleted found => found
  | shown _ | subscribed _ | dropped => false

/-- A new store that nobody listens to. -/
def empty : Audience := ⟨.empty, []⟩

def step (a : Audience) : Request → Audience × Answer
  | .update name version resource =>
    let (store, outcome) := a.store.update name version resource
    ({ a with store := store }, .written outcome)
  | .delete name =>
    let (store, found) := a.store.delete name
    ({ a with store := store }, .deleted found)
  | .snapshot p =>
    let (store, shown) := a.store.snapshot p
    ({ a with store := store }, .shown shown)
  | .subscribe p =>
    let (store, receiver) := a.store.subscribe p
    (⟨store, receiver :: a.receivers⟩, .subscribed receiver)
  | .drop r =>
    (if r ∈ a.receivers then ⟨a.store.unsubscribe r, a.receivers.erase r⟩ else a, .dropped)

/-- The requests one after the other, with their answers. -/
def run (a : Audience) : List Request → Audience × List Answer
  | [] => (a, [])
  | request :: rest =>
    let (b, answer) := a.step request
    let (c, answers) := b.run rest
    (c, answer :: answers)

/-- How many receivers of a protocol are live. -/
def listeners (a : Audience) (p : Protocol) : ℕ := a.receivers.countP fun r => r.protocol = p

/-- Every publication knows its receivers, and shows the store unless it is marked. -/
structure Sound (a : Audience) : Prop where
  attended : ∀ p, a.store.Attended p (a.listeners p)
  current : ∀ p, a.store.Current p

theorem empty_sound : empty.Sound where
  attended := ResourceStore.empty_attended
  current := ResourceStore.empty_current

section runs
variable {a : Audience} {p : Protocol} {r : Receiver}

theorem Sound.step (h : a.Sound) (request : Request) : (a.step request).1.Sound := by
  cases request with
  | update name version resource =>
      exact ⟨fun p => ((h.attended p).update name version resource).1,
        fun p => (h.current p).update name version resource⟩
  | delete name =>
      exact ⟨fun p => ((h.attended p).delete name).1, fun p => (h.current p).delete name⟩
  | snapshot q =>
      exact ⟨fun p => ((h.attended p).freshen q).1, fun p => (h.current p).freshen q⟩
  | subscribe q =>
      refine ⟨fun p => ?_, fun p => (h.current p).subscribe q⟩
      have hprotocol : (a.store.subscribe q).2.protocol = q := rfl
      have hjoined := ((h.attended p).subscribe q).1
      simp only [Audience.step, listeners, List.countP_cons, hprotocol] at hjoined ⊢
      by_cases hq : q = p
      · simpa [hq] using hjoined
      · simpa [hq] using hjoined
  | drop r =>
      simp only [Audience.step]
      split
      · rename_i hlive
        refine ⟨fun p => ?_, fun p => (h.current p).unsubscribe r⟩
        have hleft := ((h.attended p).unsubscribe r).1
        simp only [listeners, List.countP_erase] at hleft ⊢
        by_cases hq : r.protocol = p
        · simpa [hq, hlive] using hleft
        · simpa [hq] using hleft
      · exact h

theorem Sound.run (h : a.Sound) (requests : List Request) : (a.run requests).1.Sound := by
  induction requests generalizing a with
  | nil => exact h
  | cons request rest ih => exact ih (h.step request)

/-- A live receiver sees the store as it is. -/
theorem Sound.view_shows (h : a.Sound) (hr : r ∈ a.receivers) :
    a.store.Shows r.protocol (a.store.view r) := by
  have hcount : a.listeners r.protocol ≠ 0 := by
    have hpos : 0 < a.listeners r.protocol := List.countP_pos_iff.mpr ⟨r, hr, by simp⟩
    omega
  exact h.current r.protocol ((h.attended r.protocol).fresh hcount)

/-- Each request that is answered with a change takes the next version, and no other does. -/
theorem step_version (a : Audience) (request : Request) :
    (a.step request).1.store.version =
      a.store.version + if (a.step request).2.isChange then 1 else 0 := by
  cases request with
  | update name version resource =>
      have hversion := a.store.update_version name version resource
      simpa [step, Answer.isChange] using hversion
  | delete name => exact a.store.delete_version name
  | snapshot q => simp [step, Answer.isChange, ResourceStore.snapshot]
  | subscribe q => simp [step, Answer.isChange]
  | drop r =>
      simp only [step, Answer.isChange]
      split <;> simp

theorem run_version (a : Audience) (requests : List Request) :
    (a.run requests).1.store.version =
      a.store.version + (a.run requests).2.countP Answer.isChange := by
  induction requests generalizing a with
  | nil => rfl
  | cons request rest ih =>
      simp only [run, List.countP_cons]
      rw [ih, step_version]
      omega

end runs

/-- After any requests to a new store, its version counts the changes that were made, and both
whoever asks for a snapshot and whoever listens see exactly what is stored. -/
theorem shows_of_run (requests : List Request) :
    (empty.run requests).1.store.version = (empty.run requests).2.countP Answer.isChange ∧
      ∀ p, (empty.run requests).1.store.Shows p ((empty.run requests).1.store.snapshot p).2 ∧
        ∀ r ∈ (empty.run requests).1.receivers, r.protocol = p →
          (empty.run requests).1.store.Shows p ((empty.run requests).1.store.view r) := by
  have hsound := empty_sound.run requests
  refine ⟨?_, fun p => ⟨(hsound.current p).snapshot, ?_⟩⟩
  · have hversion := run_version empty requests
    rwa [show empty.store.version = 0 from rfl, Nat.zero_add] at hversion
  · rintro r hr rfl
    exact hsound.view_shows hr

/-- A listener that is served through a protocol. -/
def listener (p : Protocol) : Resource := ⟨.listener, p, "type.googleapis.com/listener", "foo", []⟩

/-- A listener comes while nobody listens to it and moves to another protocol, where somebody comes
too late to have seen either. -/
def lateRequests : List Request :=
  let name : ResourceName := ⟨"default/foo"⟩
  [.update name ⟨"uid", "1"⟩ (listener .v2), .subscribe .v2, .drop ⟨.v2, 0⟩,
    .update name ⟨"uid", "2"⟩ (listener .v3), .update name ⟨"uid", "3"⟩ (listener .v3),
    .update name ⟨"uid", "2"⟩ (listener .v2), .subscribe .v3, .snapshot .v2]

theorem shows_after_late_subscription :
    (empty.run lateRequests).1.store.version = 2 ∧
      ∃ r ∈ (empty.run lateRequests).1.receivers, r.protocol = .v3 ∧
        (empty.run lateRequests).1.store.Shows .v3 ((empty.run lateRequests).1.store.view r) := by
  obtain ⟨hversion, hshows⟩ := shows_of_run lateRequests
  have hchanges : (empty.run lateRequests).2.countP Answer.isChange = 2 := by decide +kernel
  have hlive : ∃ r ∈ (empty.run lateRequests).1.receivers, r.protocol = .v3 := by decide +kernel
  obtain ⟨r, hr, hprotocol⟩ := hlive
  exact ⟨hversion.trans hchanges, r, hr, hprotocol, (hshows .v3).2 r hr hprotocol⟩

end Audience
end ControlPlane
