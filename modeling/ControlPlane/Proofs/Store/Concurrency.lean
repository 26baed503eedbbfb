import ControlPlane.Proofs.Store.Upkeep

/-! # Concurrent writers lose nothing

However the steps of writers and readers interleave, what is seen of a protocol never goes back,
whoever looks after a call has returned sees its change or a later one of the name, and whenever no
writer is between its two steps everybody sees exactly what is stored
(`Crowd.consistent_of_run`). -/

namespace ControlPlane

/-- The snapshot has the resource for the name, if it is one of its protocol, and nothing else. -/
def Snapshot.Reflects (shown : Snapshot) (name : ResourceName) (resource : Option Resource) :
    Prop :=
  (shown.entries.filter fun e => e.name = name).map (fun e => (e.kind, e.envoyName, e.body)) =
    (resource.filter fun r => r.protocol = shown.protocol).toList.map
      fun r => (r.kind, r.envoyName, r.payload)

namespace Crowd

section seen
variable {c d : Crowd} {p : Protocol} {a : Alteration} {since i : ℕ} {shown : Snapshot}
  {changes : List Alteration} {found : Catalog ResourceName StoredResource} {name : ResourceName}
  {s : ResourceStore}

/-! ### What a snapshot of what was found shows -/

theorem entries_of_name (found : Catalog ResourceName StoredResource) (name : ResourceName) :
    (found.entries.map fun e => ResourceStore.entryOf e.1 e.2).filter (fun e => e.name = name) =
      ((found.get? name).map (ResourceStore.entryOf name)).toList := by
  have hfilter := Catalog.filter_filterMap_mapWithKey found
    (fun k stored => ((), some (ResourceStore.entryOf k stored))) Entry.name
    (fun k stored e he => by rw [← Option.some.inj he]; rfl) name
  have hentries : (found.mapWithKey fun k stored =>
      ((), some (ResourceStore.entryOf k stored))).values.filterMap (·.2) =
        found.entries.map fun e => ResourceStore.entryOf e.1 e.2 := by
    simp [Catalog.values, Catalog.mapWithKey, List.filterMap_map, Function.comp_def]
  rw [← hentries, hfilter]
  cases found.get? name <;> rfl

theorem Pictures.reflects (h : Pictures changes p since shown) (name : ResourceName) :
    ∃ resource, HadSince changes since name resource ∧ shown.Reflects name resource := by
  obtain ⟨hprotocol, found, hentries, hfinds⟩ := h
  obtain ⟨resource, hhad, hfound⟩ := hfinds name
  refine ⟨resource, hhad, ?_⟩
  unfold Snapshot.Reflects
  rw [hprotocol, hentries, entries_of_name, ← hfound]
  cases found.get? name <;> rfl

/-- What is offered depends on the resources of the protocol alone. -/
theorem offered_of_get? {t : ResourceStore}
    (h : ∀ name, ((t.resources.get? name).map (·.resource)).filter (·.protocol = p) =
      ((s.resources.get? name).map (·.resource)).filter (·.protocol = p)) (kind : Kind) :
    t.offered p kind = s.offered p kind := by
  have hoffered : ∀ r : ResourceStore, r.offered p kind =
      ((((r.resources.mapWithKey fun _ x => x.resource).filter fun _ x => x.protocol = p).entries
        ).filter fun e => e.2.kind = kind).map fun e => (e.1, e.2.envoyName, e.2.payload) := by
    intro r
    unfold ResourceStore.offered Catalog.mapWithKey Catalog.filter
    dsimp only
    rw [List.filter_filter, List.filter_map, List.map_map]
    simp only [Function.comp_def, ← Bool.decide_and]
  have hsame : (t.resources.mapWithKey fun _ x => x.resource).filter (fun _ x => x.protocol = p) =
      (s.resources.mapWithKey fun _ x => x.resource).filter fun _ x => x.protocol = p := by
    refine Catalog.ext_get? fun name => ?_
    rw [Catalog.get?_filter, Catalog.get?_filter, Catalog.get?_mapWithKey, Catalog.get?_mapWithKey]
    exact h name
  rw [hoffered, hoffered, hsame]

/-- What was found of what is stored shows the store. -/
theorem shows_of_found (hprotocol : shown.protocol = p) (hversion : shown.version = s.version)
    (hentries : shown.entries = found.entries.map fun e => ResourceStore.entryOf e.1 e.2)
    (hfound : ∀ name, (found.get? name).map (·.resource) =
      ((s.resources.get? name).map (·.resource)).filter (·.protocol = p)) : s.Shows p shown := by
  have hoffered : ∀ kind,
      s.offered p kind = ({ s with resources := found } : ResourceStore).offered p kind := by
    refine offered_of_get? fun name => ?_
    simp only [hfound, Option.filter_filter, Bool.and_self]
  have hall : ∀ e ∈ found.entries, e.2.resource.protocol = p := by
    intro e he
    have hfilter := hfound e.1
    rw [Catalog.mem_entries_iff.mp he] at hfilter
    have hprotocol := (Option.filter_eq_some_iff.mp hfilter.symm).2
    simpa using hprotocol
  have hshown : shown = ({ s with resources := found } : ResourceStore).build p := by
    obtain ⟨version, protocol, entries⟩ := shown
    obtain rfl := hprotocol
    obtain rfl := hversion
    obtain rfl := hentries
    unfold ResourceStore.build
    rw [List.filter_eq_self.mpr fun e he => decide_eq_true (hall e he)]
  rw [hshown]
  exact (ResourceStore.build_shows _ p).congr rfl hoffered

/-! ### What is shown at any time -/

/-- No writer is between the two steps of its call. -/
def Idle (c : Crowd) : Prop := c.waiting = [] ∧ c.commit? = none

/-- A publication that is not marked shows each change that it was told of, or a later one of the
name. -/
theorem Sound.reflects (h : c.Sound) (hfresh : (c.store.publication p).isStale = false)
    (htold : c.Told p i) (hi : c.changes[i]? = some a) :
    ∃ k b, i ≤ k ∧ c.changes[k]? = some b ∧ b.name = a.name ∧
      (c.store.publication p).current.Reflects a.name b.resource := by
  obtain ⟨since, hpictures, hsince⟩ := (h.kept p).current
  obtain ⟨resource, hhad, hreflects⟩ := hpictures.reflects a.name
  obtain ⟨k, b, hik, hk, hname, rfl⟩ := hhad.exists_change hi rfl (hsince hfresh i htold)
  exact ⟨k, b, hik, hk, hname, hreflects⟩

/-- The version counts the changes that are not waiting. -/
theorem Sound.version_add_waiting (h : c.Sound) :
    c.store.version + c.waiting.length = c.changes.length := by
  have hlength := h.accounts.length_eq
  rw [List.length_append, List.length_range] at hlength
  rw [h.numbered]
  omega

/-- When no writer is between its steps, a publication that is not marked shows what is stored. -/
theorem Sound.current (h : c.Sound) (hidle : c.Idle) (p : Protocol) : c.store.Current p := by
  intro hfresh
  obtain ⟨hwaiting, hcommit⟩ := hidle
  obtain ⟨since, ⟨hprotocol, found, hentries, hfinds⟩, hsince⟩ := (h.kept p).current
  have hnothing : ¬c.Owes p := by
    rintro ⟨i, left, hi, -⟩
    cases hcommit.symm.trans hi
  have hall : ∀ i < c.changes.length, i < since := by
    intro i hi
    have hin := h.accounts.symm.subset (List.mem_range.mpr hi)
    rw [hwaiting, List.nil_append, published, hcommit] at hin
    exact hsince hfresh i (Or.inl (by simpa using hin))
  refine shows_of_found hprotocol ((h.kept p).level hfresh hnothing) hentries fun name => ?_
  obtain ⟨resource, ⟨n, hle, hn, rfl⟩, hfound⟩ := hfinds name
  have hend : n = c.changes.length := by
    by_contra hne
    exact absurd (hall n (Nat.lt_of_le_of_ne hn hne)) (Nat.not_lt.mpr hle)
  rw [hfound, h.stored, hend, List.take_length]

/-- A receiver that is live sees a publication that is not marked. -/
theorem Sound.isStale_of_mem (h : c.Sound) {r : Receiver} (hr : r ∈ c.receivers) :
    (c.store.publication r.protocol).isStale = false :=
  Bool.eq_false_iff.mpr fun hstale => (h.kept r.protocol).unheard hstale r hr rfl

/-- Somebody gets or sees the snapshot of a publication that is not marked, and no change is made
and no call of a writer returns meanwhile. -/
def Sees (c d : Crowd) : Prop :=
  d.changes = c.changes ∧ d.returned = c.returned ∧
    ∃ p, d.seen = c.seen ++ [(p, (d.store.publication p).current)] ∧
      (d.store.publication p).isStale = false

theorem sees_see (hfresh : (c.store.publication p).isStale = false) : c.Sees (c.see p) :=
  ⟨rfl, rfl, p, rfl, hfresh⟩

/-- Who gets or sees a snapshot in a step sees one that is current after the step. -/
theorem Sound.step_seen (h : c.Sound) {m : Move} (hm : c.step m = some d) :
    d.seen = c.seen ∨ c.Sees d := by
  cases m with
  | update name version resource =>
      obtain rfl := Option.some.inj hm
      left
      split <;> rfl
  | delete name =>
      obtain rfl := Option.some.inj hm
      left
      split <;> rfl
  | commit i =>
      simp only [Crowd.step] at hm
      split at hm
      · split at hm
        · obtain rfl := Option.some.inj hm
          exact Or.inl rfl
        · cases hm
      · cases hm
  | announce p =>
      simp only [Crowd.step] at hm
      split at hm
      · split at hm
        · obtain rfl := Option.some.inj hm
          left
          split <;> rfl
        · cases hm
      · cases hm
  | look name =>
      simp only [Crowd.step] at hm
      split at hm
      · split at hm
        · cases hm
        · obtain rfl := Option.some.inj hm
          exact Or.inl rfl
      · cases hm
  | finish =>
      simp only [Crowd.step] at hm
      split at hm
      · rename_i purpose p visited found hlock
        split at hm
        · obtain rfl := Option.some.inj hm
          have hfresh : ((send c.store p found).publication p).isStale = false := by
            rw [publication_send_self]
          cases purpose with
          | commit i left => exact Or.inl rfl
          | snapshot => exact Or.inr ⟨rfl, rfl, p, rfl, hfresh⟩
          | subscribe known => exact Or.inr ⟨rfl, rfl, p, rfl, hfresh⟩
        · cases hm
      · cases hm
  | leave =>
      simp only [Crowd.step] at hm
      split at hm
      · obtain rfl := Option.some.inj hm
        exact Or.inl rfl
      · cases hm
  | snapshot p =>
      simp only [Crowd.step] at hm
      split at hm
      · obtain rfl := Option.some.inj hm
        split
        · exact Or.inl rfl
        · rename_i hfresh
          exact Or.inr (sees_see (Bool.eq_false_iff.mpr hfresh))
      · cases hm
  | subscribe p =>
      simp only [Crowd.step] at hm
      split at hm
      · obtain rfl := Option.some.inj hm
        split
        · exact Or.inl rfl
        · rename_i hfresh
          have hpub := ResourceStore.publication_setPublication_self c.store p
            { c.store.publication p with receivers := (c.store.publication p).receivers + 1 }
          refine Or.inr ⟨rfl, rfl, p, rfl, ?_⟩
          exact (congrArg Publication.isStale hpub).trans (Bool.eq_false_iff.mpr hfresh)
      · cases hm
  | view r =>
      simp only [Crowd.step] at hm
      split at hm
      · rename_i hr
        obtain rfl := Option.some.inj hm
        exact Or.inr (sees_see (h.isStale_of_mem hr))
      · cases hm
  | drop r =>
      simp only [Crowd.step] at hm
      split at hm
      · obtain rfl := Option.some.inj hm
        exact Or.inl rfl
      · cases hm

end seen

/-- However writers and readers interleave: the versions seen of a protocol never go back, and one
version is always one snapshot.  What is seen after a call has returned has the change that the call
made, or a later one of the same name.  When no writer is between its steps, the version counts the
changes, and everybody sees exactly what is stored. -/
theorem consistent_of_run {moves : List Move} {c : Crowd} (hrun : opening.run moves = some c) :
    (c.seen.Pairwise fun a b =>
      a.1 = b.1 → a.2.version ≤ b.2.version ∧ (a.2.version = b.2.version → a.2 = b.2)) ∧
    (∀ m d p shown, c.step m = some d → d.seen = c.seen ++ [(p, shown)] →
      (∀ i ∈ c.returned, ∃ a, c.changes[i]? = some a ∧ ∃ k b, i ≤ k ∧ c.changes[k]? = some b ∧
        b.name = a.name ∧ shown.Reflects a.name b.resource) ∧
      (d.Idle → d.store.Shows p shown)) ∧
    (c.Idle → c.store.version = c.changes.length ∧ ∀ p, c.store.Shows p (c.store.snapshot p).2 ∧
      ∀ r ∈ c.receivers, r.protocol = p → c.store.Shows p (c.store.view r)) := by
  have hsound : c.Sound := opening_sound.run hrun
  refine ⟨hsound.ordered, ?_, fun hidle => ⟨?_, fun p => ⟨?_, ?_⟩⟩⟩
  · intro m d p shown hm hseen
    rcases hsound.step_seen hm with hsame | ⟨hchanges, hreturned, q, hlast, hfresh⟩
    · have hlength := congrArg List.length (hsame.symm.trans hseen)
      rw [List.length_append, List.length_singleton] at hlength
      omega
    · rw [hseen, List.append_cancel_left_eq, List.cons.injEq, Prod.mk.injEq] at hlast
      obtain ⟨⟨rfl, rfl⟩, -⟩ := hlast
      have hafter : d.Sound := hsound.step hm
      refine ⟨fun i hi => ?_, fun hidle => hafter.current hidle p hfresh⟩
      have hlt : i < c.changes.length := hsound.lt_of_published (List.mem_append_left _ hi)
      have htold : d.Told p i := Or.inl (hreturned ▸ hi)
      obtain ⟨a, ha⟩ : ∃ a, c.changes[i]? = some a := ⟨_, List.getElem?_eq_getElem hlt⟩
      refine ⟨a, ha, ?_⟩
      rw [← hchanges] at ha ⊢
      exact hafter.reflects hfresh htold ha
  · have hversion := hsound.version_add_waiting
    rwa [hidle.1] at hversion
  · exact (hsound.current hidle p).snapshot
  · rintro r hr rfl
    exact hsound.current hidle r.protocol (hsound.isStale_of_mem hr)

def firstName : ResourceName := ⟨"default/listener/a"⟩

def secondName : ResourceName := ⟨"default/listener/b"⟩

/-- Somebody listens to v3.  Of two writers the later one publishes first, and while the snapshot is
rebuilt for it a third one moves the resource of the first to v2. -/
def crossing : List Move :=
  [.subscribe .v3, .update firstName ⟨"first", "1"⟩ (Audience.listener .v3),
    .update secondName ⟨"second", "1"⟩ (Audience.listener .v3), .commit 1, .announce .v3,
    .look firstName, .update firstName ⟨"first", "2"⟩ (Audience.listener .v2), .look secondName,
    .finish, .announce .v2, .leave]

/-- The other two publish as well. -/
def settling : List Move :=
  [.commit 2, .announce .v2, .announce .v3, .look secondName, .look firstName, .finish, .leave,
    .commit 0, .announce .v3, .look firstName, .look secondName, .finish, .announce .v2, .leave]

def crossed : Crowd := (opening.run crossing).get (by decide +kernel)

def settled : Crowd := (opening.run (crossing ++ settling)).get (by decide +kernel)

/-- When the second change is published the listener sees it, and in the end everybody sees all. -/
theorem consistent_after_crossing :
    (∃ k b, 1 ≤ k ∧ crossed.changes[k]? = some b ∧ b.name = secondName ∧
      (crossed.store.view ⟨.v3, 0⟩).Reflects secondName b.resource) ∧
    settled.store.version = 3 ∧ settled.store.Shows .v2 (settled.store.snapshot .v2).2 ∧
      settled.store.Shows .v3 (settled.store.view ⟨.v3, 0⟩) := by
  have hcrossed : opening.run crossing = some crossed := (Option.some_get _).symm
  have hsettled : opening.run (crossing ++ settling) = some settled :=
    (Option.some_get _).symm
  obtain ⟨-, hseen, -⟩ := consistent_of_run hcrossed
  obtain ⟨-, -, hidle⟩ := consistent_of_run hsettled
  have hreturned : 1 ∈ crossed.returned := by decide +kernel
  have hsecond : crossed.changes[1]? = some ⟨secondName, some (Audience.listener .v3)⟩ := by
    decide +kernel
  have hlistens : ⟨.v3, 0⟩ ∈ crossed.receivers := by decide +kernel
  have hview : crossed.step (.view ⟨.v3, 0⟩) = some (crossed.see .v3) := by
    simp only [step, if_pos hlistens]
  obtain ⟨a, ha, hreflects⟩ := (hseen _ _ _ _ hview rfl).1 1 hreturned
  obtain rfl := Option.some.inj (ha.symm.trans hsecond)
  have hrests : settled.Idle := ⟨by decide +kernel, by decide +kernel⟩
  have hcount : settled.changes.length = 3 := by decide +kernel
  have hstays : ⟨.v3, 0⟩ ∈ settled.receivers := by decide +kernel
  obtain ⟨hversion, hshows⟩ := hidle hrests
  exact ⟨hreflects, hversion.trans hcount, (hshows .v2).1, (hshows .v3).2 _ hstays rfl⟩

end Crowd
end ControlPlane
