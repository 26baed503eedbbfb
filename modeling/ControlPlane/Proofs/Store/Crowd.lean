import ControlPlane.Proofs.Runs
import ControlPlane.Proofs.Store.Snapshots

/-! # Writers and readers at the same time

Any number of writers change the stored resources while others ask for snapshots, subscribe and
leave (`Crowd.step`).  A write that changes a resource has two steps.  The first one changes the
entry of its name and takes no lock.  For the second one, the publication of the change, a writer
takes the lock, takes the next version and tells one publication after the other, which is marked or
rebuilt.  Readers take the same lock and have a marked publication rebuilt first.  A rebuild looks
at the entries one by one, and writers go on changing them meanwhile.

The changes are numbered in the order in which they are made, so that what a name has at some moment
is what the last of so many changes of it has left (`latest`).  A call between whose steps nobody
else moves does what the function of the store does (`Crowd.update_undisturbed` and those after
it). -/

namespace ControlPlane

/-! ### Changes and what they come to -/

/-- A change of the stored resources: what a name has from now on, if anything. -/
structure Alteration where
  name : ResourceName
  resource : Option Resource
deriving DecidableEq, Repr

/-- What a name has after some changes. -/
def latest (changes : List Alteration) (name : ResourceName) : Option Resource :=
  changes.foldl (fun r a => if a.name = name then a.resource else r) none

/-- The name had this at some moment after so many changes. -/
def HadSince (changes : List Alteration) (since : ℕ) (name : ResourceName)
    (resource : Option Resource) : Prop :=
  ∃ n, since ≤ n ∧ n ≤ changes.length ∧ latest (changes.take n) name = resource

section changes
variable {changes : List Alteration} {a : Alteration} {name : ResourceName} {since i : ℕ}
  {resource : Option Resource}

theorem latest_concat (changes : List Alteration) (a : Alteration) (name : ResourceName) :
    latest (changes ++ [a]) name = if a.name = name then a.resource else latest changes name := by
  simp [latest]

theorem hadSince_latest (hsince : since ≤ changes.length) :
    HadSince changes since name (latest changes name) :=
  ⟨changes.length, hsince, le_refl _, by rw [List.take_length]⟩

theorem HadSince.concat (h : HadSince changes since name resource) (a : Alteration) :
    HadSince (changes ++ [a]) since name resource := by
  obtain ⟨n, hsince, hn, hlatest⟩ := h
  refine ⟨n, hsince, ?_, ?_⟩
  · rw [List.length_append]
    omega
  · rwa [List.take_append_of_le_length hn]

/-- After a change of a name, it has what this change or a later one has given it. -/
theorem exists_latest (hi : changes[i]? = some a) (hname : a.name = name) :
    ∃ k b, i ≤ k ∧ changes[k]? = some b ∧ b.name = name ∧ latest changes name = b.resource := by
  induction changes using List.reverseRecOn with
  | nil => cases hi
  | append_singleton rest last ih =>
      rw [latest_concat]
      by_cases hlast : last.name = name
      · refine ⟨rest.length, last, ?_, by simp, hlast, if_pos hlast⟩
        have hlt := (List.getElem?_eq_some_iff.mp hi).1
        rw [List.length_append, List.length_singleton] at hlt
        omega
      · rw [if_neg hlast]
        rw [List.getElem?_append] at hi
        split at hi
        · obtain ⟨k, b, hik, hk, hb, hlatest⟩ := ih hi
          refine ⟨k, b, hik, ?_, hb, hlatest⟩
          rw [List.getElem?_append_left (List.getElem?_eq_some_iff.mp hk).1]
          exact hk
        · obtain ⟨hzero, heq⟩ := List.getElem?_eq_some_iff.mp hi
          rw [List.getElem_singleton] at heq
          exact absurd (heq ▸ hname) hlast

/-- What a name had after a change of it comes from this change or a later one. -/
theorem HadSince.exists_change (h : HadSince changes since name resource)
    (hi : changes[i]? = some a) (hname : a.name = name) (hlt : i < since) :
    ∃ k b, i ≤ k ∧ changes[k]? = some b ∧ b.name = name ∧ resource = b.resource := by
  obtain ⟨n, hsince, hn, rfl⟩ := h
  have hbefore : (changes.take n)[i]? = some a := by
    rw [List.getElem?_take_of_lt (hlt.trans_le hsince)]
    exact hi
  obtain ⟨k, b, hik, hk, hb, hlatest⟩ := exists_latest hbefore hname
  refine ⟨k, b, hik, ?_, hb, hlatest⟩
  rw [List.getElem?_take] at hk
  split at hk
  · exact hk
  · cases hk

end changes

/-! ### The crowd -/

/-- On whose behalf a publication is rebuilt. -/
inductive Purpose where
  /-- A change is published, and these protocols do not show it yet. -/
  | commit (change : ℕ) (left : List Protocol)
  | snapshot
  /-- Somebody subscribes who knows of so many sent snapshots. -/
  | subscribe (known : ℕ)

/-- Who holds the lock of the publications, and how far it is. -/
inductive Holder where
  /-- A change is published, and these protocols are still to be told. -/
  | committing (change : ℕ) (left : List Protocol)
  /-- A publication is rebuilt: the names that were looked at, and the resources found. -/
  | rebuilding (purpose : Purpose) (protocol : Protocol) (visited : List ResourceName)
    (found : Catalog ResourceName StoredResource)

/-- The change that the holder publishes, and the protocols that do not show it yet. -/
def Holder.commit? : Holder → Option (ℕ × List Protocol)
  | committing i left | rebuilding (.commit i left) _ _ _ => some (i, left)
  | rebuilding .snapshot _ _ _ | rebuilding (.subscribe _) _ _ _ => none

/-- The protocol that the holder is about to give somebody a receiver of. -/
def Holder.admits? : Holder → Option Protocol
  | rebuilding (.subscribe _) p _ _ => some p
  | rebuilding (.commit _ _) _ _ _ | rebuilding .snapshot _ _ _ | committing _ _ => none

structure Crowd where
  store : ResourceStore
  receivers : List Receiver
  lock : Option Holder
  /-- All changes of stored resources, in their order. -/
  changes : List Alteration
  /-- The changes that are not published yet. -/
  waiting : List ℕ
  /-- The changes whose calls have returned. -/
  returned : List ℕ
  /-- The snapshots that somebody has got or seen, in their order. -/
  seen : List (Protocol × Snapshot)

namespace Crowd

inductive Move where
  /-- The first step of a write. -/
  | update (name : ResourceName) (version : ResourceVersion) (resource : Resource)
  /-- The first step of a removal. -/
  | delete (name : ResourceName)
  /-- A writer takes the lock to publish its change. -/
  | commit (change : ℕ)
  /-- The next protocol is told of the change. -/
  | announce (protocol : Protocol)
  /-- A rebuild looks at a name. -/
  | look (name : ResourceName)
  /-- A rebuild ends and its snapshot is sent out. -/
  | finish
  /-- A writer gives the lock back and returns. -/
  | leave
  | snapshot (protocol : Protocol)
  | subscribe (protocol : Protocol)
  /-- A receiver is looked at. -/
  | view (receiver : Receiver)
  | drop (receiver : Receiver)
deriving DecidableEq, Repr

/-- A change was made and waits to be published. -/
def alter (c : Crowd) (store : ResourceStore) (a : Alteration) : Crowd :=
  { c with
    store := store
    changes := c.changes ++ [a]
    waiting := c.waiting ++ [c.changes.length] }

/-- Somebody gets or sees the current snapshot. -/
def see (c : Crowd) (p : Protocol) : Crowd :=
  { c with seen := c.seen ++ [(p, (c.store.publication p).current)] }

/-- The names that are looked at and what was found, when one name more was looked at. -/
def gather (s : ResourceStore) (p : Protocol) (name : ResourceName)
    (found : Catalog ResourceName StoredResource) : Catalog ResourceName StoredResource :=
  match s.resources.get? name with
  | some stored => if stored.resource.protocol = p then found.insert name stored else found
  | none => found

/-- Sends out a snapshot of what was found. -/
def send (s : ResourceStore) (p : Protocol) (found : Catalog ResourceName StoredResource) :
    ResourceStore :=
  s.setPublication p { s.publication p with
    current :=
      { version := s.version
        protocol := p
        entries := found.entries.map fun e => ResourceStore.entryOf e.1 e.2 }
    isStale := false
    sent := (s.publication p).sent + 1 }

/-- Goes on with what a rebuild was made for. -/
def resume (c : Crowd) (p : Protocol) : Purpose → Crowd
  | .commit i left => { c with lock := some (.committing i (left.erase p)) }
  | .snapshot => Crowd.see { c with lock := none } p
  | .subscribe known =>
    Crowd.see { c with lock := none, receivers := c.receivers ++ [⟨p, known⟩] } p

/-- One move, if it can be made. -/
def step (c : Crowd) : Move → Option Crowd
  | .update name version resource =>
    some (match c.store.outcome name version resource with
      | .stored => c.alter (c.store.put name version resource) ⟨name, some resource⟩
      | .unchanged => { c with store := c.store.put name version resource }
      | .stale => c)
  | .delete name =>
    some (if c.store.resources.contains name then c.alter (c.store.drop name) ⟨name, none⟩ else c)
  | .commit i =>
    match c.lock with
    | none =>
      if i ∈ c.waiting then
        some { c with
          store := { c.store with version := c.store.version + 1 }
          waiting := c.waiting.erase i
          lock := some (.committing i Protocol.all) }
      else none
    | some _ => none
  | .announce p =>
    match c.lock with
    | some (.committing i left) =>
      if p ∈ left then
        some (if (c.store.publication p).receivers = 0 then
          { c with
            store := c.store.setPublication p { c.store.publication p with isStale := true }
            lock := some (.committing i (left.erase p)) }
        else { c with lock := some (.rebuilding (.commit i left) p [] ∅) })
      else none
    | _ => none
  | .look name =>
    match c.lock with
    | some (.rebuilding purpose p visited found) =>
      if name ∈ visited then none
      else some { c with
        lock := some (.rebuilding purpose p (name :: visited) (gather c.store p name found)) }
    | _ => none
  | .finish =>
    match c.lock with
    | some (.rebuilding purpose p visited found) =>
      if ∀ name ∈ c.store.resources.keys, name ∈ visited then
        some (Crowd.resume { c with store := send c.store p found } p purpose)
      else none
    | _ => none
  | .leave =>
    match c.lock with
    | some (.committing i []) => some { c with lock := none, returned := c.returned ++ [i] }
    | _ => none
  | .snapshot p =>
    match c.lock with
    | none =>
      some (if (c.store.publication p).isStale then
        { c with lock := some (.rebuilding .snapshot p [] ∅) }
      else c.see p)
    | some _ => none
  | .subscribe p =>
    match c.lock with
    | none =>
      let x := c.store.publication p
      let d := { c with store := c.store.setPublication p { x with receivers := x.receivers + 1 } }
      some (if x.isStale then { d with lock := some (.rebuilding (.subscribe x.sent) p [] ∅) }
        else Crowd.see { d with receivers := c.receivers ++ [⟨p, x.sent⟩] } p)
    | some _ => none
  | .view r => if r ∈ c.receivers then some (c.see r.protocol) else none
  | .drop r =>
    if r ∈ c.receivers then
      some { c with store := c.store.unsubscribe r, receivers := c.receivers.erase r }
    else none

/-- The moves one after the other, if all can be made. -/
def run (c : Crowd) (moves : List Move) : Option Crowd := moves.foldlM step c

/-- An empty store that nobody uses yet. -/
def opening : Crowd := ⟨.empty, [], none, [], [], [], []⟩

/-! ### Calls that nobody disturbs -/

section undisturbed
variable {c : Crowd} {p : Protocol} {purpose : Purpose} {visited : List ResourceName}
  {found : Catalog ResourceName StoredResource} {i : ℕ} {left : List Protocol}

theorem run_cons {m : Move} {moves : List Move} {d : Crowd} (hm : c.step m = some d) :
    c.run (m :: moves) = d.run moves := by
  rw [run, List.foldlM_cons, hm]
  rfl

theorem run_trans {moves moves' : List Move} {d e : Crowd} (hmoves : c.run moves = some d)
    (hmoves' : d.run moves' = some e) : c.run (moves ++ moves') = some e := by
  rw [run] at hmoves hmoves' ⊢
  rw [List.foldlM_append, hmoves]
  exact hmoves'

theorem get?_gather (s : ResourceStore) (p : Protocol) (name k : ResourceName)
    (hunseen : found.get? name = none) :
    (gather s p name found).get? k =
      if k = name then (s.resources.get? name).filter (·.resource.protocol = p)
      else found.get? k := by
  unfold gather
  cases hget : s.resources.get? name with
  | none =>
      by_cases hk : k = name
      · simp [hk, hunseen]
      · simp [hk]
  | some stored =>
      by_cases hprotocol : stored.resource.protocol = p
      · simp only [hprotocol, if_true]
        rw [Catalog.get?_insert]
        by_cases hk : k = name
        · simp [hk, hprotocol, Option.filter_some]
        · simp [hk]
      · by_cases hk : k = name
        · simp [hk, hunseen, hprotocol, Option.filter_some]
        · simp [hk, hprotocol]

/-- A rebuild looks at one name after the other, and nobody else moves. -/
theorem run_looks {names : List ResourceName}
    (hlock : c.lock = some (.rebuilding purpose p visited found)) (hnodup : names.Nodup)
    (hnew : ∀ name ∈ names, name ∉ visited ∧ found.get? name = none) :
    ∃ visited' found',
      c.run (names.map .look) =
        some { c with lock := some (.rebuilding purpose p visited' found') } ∧
      (∀ name ∈ names, name ∈ visited') ∧ visited ⊆ visited' ∧
      ∀ k, found'.get? k =
        if k ∈ names then (c.store.resources.get? k).filter (·.resource.protocol = p)
        else found.get? k := by
  induction names generalizing c visited found with
  | nil =>
      refine ⟨visited, found, ?_, by simp, List.Subset.refl _, by simp⟩
      rw [← hlock]
      rfl
  | cons name rest ih =>
      obtain ⟨hname, hrest⟩ := List.nodup_cons.mp hnodup
      obtain ⟨hunvisited, hunseen⟩ := hnew name List.mem_cons_self
      have hgather := fun k => get?_gather c.store p name k hunseen
      let next : Crowd := { c with
        lock := some (.rebuilding purpose p (name :: visited) (gather c.store p name found)) }
      have hlook : c.step (.look name) = some next := by
        simp [next, step, hlock, hunvisited]
      have hothers : ∀ k ∈ rest, k ∉ name :: visited ∧
          (gather c.store p name found).get? k = none := by
        intro k hk
        have hne : k ≠ name := fun heq => hname (heq ▸ hk)
        obtain ⟨hk₁, hk₂⟩ := hnew k (List.mem_cons_of_mem _ hk)
        refine ⟨fun hmem => (List.mem_cons.mp hmem).elim hne hk₁, ?_⟩
        rw [hgather, if_neg hne, hk₂]
      obtain ⟨visited', found', hrun, hvisited, hsub, hfound⟩ := ih (c := next) rfl hrest hothers
      refine ⟨visited', found', ?_, ?_, fun k hk => hsub (List.mem_cons_of_mem _ hk), fun k => ?_⟩
      · rw [List.map_cons, run_cons hlook]
        exact hrun
      · intro k hk
        rcases List.mem_cons.mp hk with rfl | hk
        · exact hsub List.mem_cons_self
        · exact hvisited k hk
      · rw [hfound, hgather]
        by_cases hk : k = name
        · simp [hk, hname]
        · simp [hk, next]

/-- A rebuild during which nobody else moves. -/
theorem rebuild_undisturbed (c : Crowd) (purpose : Purpose) (p : Protocol) :
    Crowd.run { c with lock := some (.rebuilding purpose p [] ∅) }
        (c.store.resources.keys.map .look ++ [.finish]) =
      some (resume { c with store := c.store.refresh p } p purpose) := by
  have hnodup : c.store.resources.keys.Nodup := by
    refine List.pairwise_map.mpr (c.store.resources.ordered.imp fun hlt heq => ?_)
    exact Catalog.ne_of_compare hlt (by decide) heq
  obtain ⟨visited, found, hrun, hvisited, -, hfound⟩ :=
    run_looks (c := { c with lock := some (.rebuilding purpose p [] ∅) }) rfl hnodup
      fun name _ => ⟨List.not_mem_nil, rfl⟩
  have hall : found = c.store.resources.filter fun _ x => x.resource.protocol = p := by
    refine Catalog.ext_get? fun k => ?_
    rw [hfound, Catalog.get?_filter]
    split
    · rfl
    · rename_i hk
      have hgone : c.store.resources.get? k = none := by
        rw [Option.eq_none_iff_forall_ne_some]
        exact fun stored hstored => hk (Catalog.mem_keys_iff.mpr ⟨stored, hstored⟩)
      rw [hgone]
      rfl
  have hsend : send c.store p found = c.store.refresh p := by
    rw [hall]
    rfl
  have hfinish : Crowd.step { c with lock := some (.rebuilding purpose p visited found) } .finish =
      some (resume { c with store := c.store.refresh p } p purpose) := by
    simp only [step, if_pos hvisited, hsend]
    cases purpose <;> rfl
  exact run_trans hrun ((run_cons hfinish).trans rfl)

/-- A protocol is told of a change, and nobody else moves. -/
theorem announce_undisturbed (c : Crowd) (i : ℕ) {left : List Protocol} (hp : p ∈ left) :
    ∃ moves, Crowd.run { c with lock := some (.committing i left) } moves = some { c with
      store := c.store.announce p
      lock := some (.committing i (left.erase p)) } := by
  have hstep : Crowd.step { c with lock := some (.committing i left) } (.announce p) =
      some (if (c.store.publication p).receivers = 0 then
        { c with
          store := c.store.setPublication p { c.store.publication p with isStale := true }
          lock := some (.committing i (left.erase p)) }
        else { c with lock := some (.rebuilding (.commit i left) p [] ∅) }) := by
    simp only [step, if_pos hp]
  unfold ResourceStore.announce
  by_cases hnobody : (c.store.publication p).receivers = 0
  · rw [if_pos hnobody] at hstep
    refine ⟨[.announce p], ?_⟩
    rw [run_cons hstep]
    simp only [hnobody, if_true]
    rfl
  · rw [if_neg hnobody] at hstep
    refine ⟨.announce p :: (c.store.resources.keys.map .look ++ [.finish]), ?_⟩
    rw [run_cons hstep]
    simp only [hnobody, if_false]
    exact rebuild_undisturbed c (.commit i left) p

/-- A change is published, and nobody else moves. -/
theorem publish_undisturbed (hlock : c.lock = none) (hi : i ∈ c.waiting) :
    ∃ moves, c.run moves = some { c with
      store := c.store.publish
      lock := none
      waiting := c.waiting.erase i
      returned := c.returned ++ [i] } := by
  let s : ResourceStore := { c.store with version := c.store.version + 1 }
  have hcommit : c.step (.commit i) = some { c with
      store := s
      waiting := c.waiting.erase i
      lock := some (.committing i [.v2, .v3]) } := by
    simp only [step, hlock, if_pos hi]
    rfl
  obtain ⟨first, hfirst⟩ := announce_undisturbed
    { c with store := s, waiting := c.waiting.erase i } i
    (show Protocol.v2 ∈ [Protocol.v2, .v3] by decide)
  obtain ⟨second, hsecond⟩ := announce_undisturbed
    { c with store := s.announce .v2, waiting := c.waiting.erase i } i
    (show Protocol.v3 ∈ [Protocol.v3] by decide)
  refine ⟨.commit i :: (first ++ (second ++ [.leave])), ?_⟩
  rw [run_cons hcommit]
  exact run_trans hfirst (run_trans hsecond rfl)

/-- A write between whose steps nobody else moves is a write of the store. -/
theorem update_undisturbed (hlock : c.lock = none) (name : ResourceName)
    (version : ResourceVersion) (resource : Resource) :
    ∃ moves d, c.run (.update name version resource :: moves) = some d ∧
      d.store = (c.store.update name version resource).1 ∧ d.lock = none ∧
      if (c.store.update name version resource).2 = .stored then
        d.changes = c.changes ++ [⟨name, some resource⟩] ∧
          d.returned = c.returned ++ [c.changes.length]
      else d.changes = c.changes ∧ d.returned = c.returned := by
  unfold ResourceStore.update
  cases houtcome : c.store.outcome name version resource with
  | stored =>
      have hi : c.changes.length ∈ (c.alter (c.store.put name version resource)
          ⟨name, some resource⟩).waiting := by simp [alter]
      obtain ⟨moves, hmoves⟩ := publish_undisturbed (by exact hlock) hi
      have hstep : c.step (.update name version resource) =
          some (c.alter (c.store.put name version resource) ⟨name, some resource⟩) := by
        simp only [step, houtcome]
      exact ⟨moves, _, (run_cons hstep).trans hmoves, rfl, rfl, rfl, rfl⟩
  | unchanged =>
      have hstep : c.step (.update name version resource) =
          some { c with store := c.store.put name version resource } := by
        simp only [step, houtcome]
      exact ⟨[], _, run_cons hstep, rfl, hlock, rfl, rfl⟩
  | stale =>
      have hstep : c.step (.update name version resource) = some c := by
        simp only [step, houtcome]
      exact ⟨[], _, run_cons hstep, rfl, hlock, rfl, rfl⟩

/-- A removal between whose steps nobody else moves is a removal of the store. -/
theorem delete_undisturbed (hlock : c.lock = none) (name : ResourceName) :
    ∃ moves d, c.run (.delete name :: moves) = some d ∧
      d.store = (c.store.delete name).1 ∧ d.lock = none ∧
      if (c.store.delete name).2 then
        d.changes = c.changes ++ [⟨name, none⟩] ∧ d.returned = c.returned ++ [c.changes.length]
      else d.changes = c.changes ∧ d.returned = c.returned := by
  unfold ResourceStore.delete
  by_cases hthere : c.store.resources.contains name
  · have hi : c.changes.length ∈ (c.alter (c.store.drop name) ⟨name, none⟩).waiting := by
      simp [alter]
    obtain ⟨moves, hmoves⟩ := publish_undisturbed (by exact hlock) hi
    have hstep : c.step (.delete name) = some (c.alter (c.store.drop name) ⟨name, none⟩) := by
      simp only [step, if_pos hthere]
    rw [if_pos hthere]
    exact ⟨moves, _, (run_cons hstep).trans hmoves, rfl, rfl, rfl, rfl⟩
  · have hstep : c.step (.delete name) = some c := by
      simp only [step, if_neg hthere]
    rw [if_neg hthere]
    exact ⟨[], _, run_cons hstep, rfl, hlock, rfl, rfl⟩

/-- Somebody asks for a snapshot, and nobody else moves. -/
theorem snapshot_undisturbed (hlock : c.lock = none) (p : Protocol) :
    ∃ moves, c.run (.snapshot p :: moves) = some { c with
      store := (c.store.snapshot p).1
      lock := none
      seen := c.seen ++ [(p, (c.store.snapshot p).2)] } := by
  unfold ResourceStore.snapshot ResourceStore.freshen
  by_cases hstale : (c.store.publication p).isStale
  · have hstep : c.step (.snapshot p) =
        some { c with lock := some (.rebuilding .snapshot p [] ∅) } := by
      simp only [step, hlock, if_pos hstale]
    refine ⟨c.store.resources.keys.map .look ++ [.finish], ?_⟩
    rw [run_cons hstep, if_pos hstale]
    exact rebuild_undisturbed c .snapshot p
  · have hstep : c.step (.snapshot p) = some { c.see p with lock := none } := by
      simp only [step, hlock, if_neg hstale, see]
    refine ⟨[], ?_⟩
    rw [run_cons hstep, if_neg hstale]
    rfl

/-- Somebody subscribes, and nobody else moves. -/
theorem subscribe_undisturbed (hlock : c.lock = none) (p : Protocol) :
    ∃ moves, c.run (.subscribe p :: moves) = some { c with
      store := (c.store.subscribe p).1
      receivers := c.receivers ++ [(c.store.subscribe p).2]
      lock := none
      seen := c.seen ++ [(p, (c.store.subscribe p).1.view (c.store.subscribe p).2)] } := by
  let x := c.store.publication p
  let s := c.store.setPublication p { x with receivers := x.receivers + 1 }
  have hsubscribe : c.store.subscribe p =
      (if x.isStale then s.refresh p else s, ⟨p, x.sent⟩) := by
    have hpub : s.publication p = { x with receivers := x.receivers + 1 } :=
      ResourceStore.publication_setPublication_self _ _ _
    have hfreshen : s.freshen p = if x.isStale then s.refresh p else s := by
      rw [ResourceStore.freshen, hpub]
    rw [← hfreshen]
    rfl
  rw [hsubscribe]
  by_cases hstale : x.isStale
  · have hstep : c.step (.subscribe p) =
        some { c with store := s, lock := some (.rebuilding (.subscribe x.sent) p [] ∅) } := by
      simp only [step, hlock, x, s, if_pos hstale]
    refine ⟨s.resources.keys.map .look ++ [.finish], ?_⟩
    rw [run_cons hstep, if_pos hstale]
    exact rebuild_undisturbed { c with store := s } (.subscribe x.sent) p
  · have hstep : c.step (.subscribe p) = some (Crowd.see { c with
        store := s
        receivers := c.receivers ++ [⟨p, x.sent⟩]
        lock := none } p) := by
      simp only [step, hlock, x, s, if_neg hstale]
    refine ⟨[], ?_⟩
    rw [run_cons hstep, if_neg hstale]
    rfl

end undisturbed
end Crowd
end ControlPlane
