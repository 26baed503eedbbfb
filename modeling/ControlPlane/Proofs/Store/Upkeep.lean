import ControlPlane.Proofs.Store.Crowd

/-! # What publications keep up to

Whatever writers and readers do at the same time, each publication shows every name as it was at
some moment since its last rebuild began, and unless it is marked, every change that it was told of
came before that moment (`Crowd.Kept`).  A rebuild in progress has found every name that it looked
at as it was at some moment since it began, and no change has begun to be published since
(`Crowd.Rebuilds`).  Every step keeps this up (`Crowd.Sound.step`). -/

namespace ControlPlane.Crowd

/-! ### What everybody keeps up -/

/-- The change that is being published, with the protocols that do not show it yet. -/
def commit? (c : Crowd) : Option (ℕ × List Protocol) := c.lock.bind Holder.commit?

/-- The changes whose publication has begun. -/
def published (c : Crowd) : List ℕ := c.returned ++ c.commit?.toList.map Prod.fst

/-- The protocol was told of the change. -/
def Told (c : Crowd) (p : Protocol) (i : ℕ) : Prop :=
  i ∈ c.returned ∨ ∃ left, c.commit? = some (i, left) ∧ p ∉ left

/-- The protocol is still to be told of the change that is being published. -/
def Owes (c : Crowd) (p : Protocol) : Prop := ∃ i left, c.commit? = some (i, left) ∧ p ∈ left

/-- The receivers of a protocol, with the one that is about to be given out. -/
def listeners (c : Crowd) (p : Protocol) : ℕ :=
  c.receivers.countP (fun r => r.protocol = p) +
    if c.lock.bind Holder.admits? = some p then 1 else 0

/-- For a protocol, what was found for a name is what the name had at some moment after so many
changes. -/
def Finds (changes : List Alteration) (p : Protocol) (since : ℕ)
    (found : Catalog ResourceName StoredResource) (name : ResourceName) : Prop :=
  ∃ resource, HadSince changes since name resource ∧
    (found.get? name).map (·.resource) = resource.filter (·.protocol = p)

/-- The snapshot shows each name as it was at some moment after so many changes. -/
structure Pictures (changes : List Alteration) (p : Protocol) (since : ℕ) (shown : Snapshot) :
    Prop where
  protocol : shown.protocol = p
  entries : ∃ found : Catalog ResourceName StoredResource,
    shown.entries = found.entries.map (fun e => ResourceStore.entryOf e.1 e.2) ∧
      ∀ name, Finds changes p since found name

/-- What a publication keeps up to. -/
structure Kept (c : Crowd) (p : Protocol) : Prop where
  /-- Unless it is marked, it shows the changes that it was told of. -/
  current : ∃ since, Pictures c.changes p since (c.store.publication p).current ∧
    ((c.store.publication p).isStale = false → ∀ i, c.Told p i → i < since)
  dated : (c.store.publication p).current.version ≤ c.store.version
  behind : (c.store.publication p).isStale = true ∨ c.Owes p →
    (c.store.publication p).current.version < c.store.version
  level : (c.store.publication p).isStale = false → ¬c.Owes p →
    (c.store.publication p).current.version = c.store.version
  unheard : (c.store.publication p).isStale = true → ∀ r ∈ c.receivers, r.protocol ≠ p
  counted : (c.store.publication p).receivers = c.listeners p
  observed : ∀ shown, (p, shown) ∈ c.seen →
    shown.version ≤ (c.store.publication p).current.version ∧
      (shown.version = (c.store.publication p).current.version →
        shown = (c.store.publication p).current)

/-- A rebuild that began after so many changes. -/
structure Rebuilds (c : Crowd) (since : ℕ) (p : Protocol) (visited : List ResourceName)
    (found : Catalog ResourceName StoredResource) : Prop where
  since_le : since ≤ c.changes.length
  after : ∀ i ∈ c.published, i < since
  looked : ∀ name ∈ visited, Finds c.changes p since found name
  unseen : ∀ name, name ∉ visited → found.get? name = none
  needed : (c.store.publication p).isStale = true ∨ c.Owes p

structure Sound (c : Crowd) : Prop where
  stored : ∀ name, (c.store.resources.get? name).map (·.resource) = latest c.changes name
  /-- Every change waits, or its publication has begun. -/
  accounts : (c.waiting ++ c.published).Perm (List.range c.changes.length)
  numbered : c.store.version = c.published.length
  once : ∀ i left, c.commit? = some (i, left) → left.Nodup
  kept : ∀ p, c.Kept p
  rebuilds : ∀ purpose p visited found, c.lock = some (.rebuilding purpose p visited found) →
    ∃ since, c.Rebuilds since p visited found
  ordered : c.seen.Pairwise fun a b =>
    a.1 = b.1 → a.2.version ≤ b.2.version ∧ (a.2.version = b.2.version → a.2 = b.2)

section invariant
variable {c d : Crowd} {p q : Protocol} {a : Alteration} {since i : ℕ} {shown : Snapshot}
  {name : ResourceName} {visited : List ResourceName} {purpose : Purpose}
  {found : Catalog ResourceName StoredResource}

theorem Finds.concat {changes : List Alteration} (h : Finds changes p since found name)
    (a : Alteration) : Finds (changes ++ [a]) p since found name := by
  obtain ⟨resource, hhad, hfound⟩ := h
  exact ⟨resource, hhad.concat a, hfound⟩

theorem Pictures.concat {changes : List Alteration} (h : Pictures changes p since shown)
    (a : Alteration) : Pictures (changes ++ [a]) p since shown := by
  obtain ⟨hprotocol, found, hentries, hfinds⟩ := h
  exact ⟨hprotocol, found, hentries, fun name => (hfinds name).concat a⟩

theorem Told.mem_published (h : c.Told p i) : i ∈ c.published := by
  unfold published
  rcases h with hreturned | ⟨left, hcommit, -⟩
  · exact List.mem_append_left _ hreturned
  · simp [hcommit]

theorem Sound.lt_of_published (h : c.Sound) (hi : i ∈ c.published) : i < c.changes.length :=
  List.mem_range.mp (h.accounts.subset (List.mem_append_right _ hi))

/-- A publication that shows what it showed, to no one who could not see it, and is told of nothing
new unless a change has begun to be published. -/
theorem Kept.frame (h : c.Kept p)
    (hchanges : d.changes = c.changes ∨ ∃ a, d.changes = c.changes ++ [a])
    (hcurrent : (d.store.publication p).current = (c.store.publication p).current)
    (hstale : (d.store.publication p).isStale = (c.store.publication p).isStale)
    (hcounted : (d.store.publication p).receivers = d.listeners p)
    (hversion : c.store.version ≤ d.store.version)
    (htold : ∀ i, d.Told p i → c.Told p i)
    (howes : d.Owes p → c.Owes p ∨ c.store.version < d.store.version)
    (hlevel : ¬d.Owes p → ¬c.Owes p ∧ d.store.version = c.store.version)
    (hreceivers : ∀ r ∈ d.receivers, r.protocol = p → (c.store.publication p).isStale = true →
      r ∈ c.receivers)
    (hseen : ∀ shown, (p, shown) ∈ d.seen →
      (p, shown) ∈ c.seen ∨ shown = (c.store.publication p).current) : d.Kept p where
  current := by
    obtain ⟨since, hpictures, hfresh⟩ := h.current
    rw [hcurrent, hstale]
    refine ⟨since, ?_, fun hnot i hi => hfresh hnot i (htold i hi)⟩
    rcases hchanges with heq | ⟨a, heq⟩
    · rwa [heq]
    · rw [heq]
      exact hpictures.concat a
  dated := by
    rw [hcurrent]
    exact h.dated.trans hversion
  behind hor := by
    rw [hcurrent]
    rw [hstale] at hor
    rcases hor with hmarked | hdue
    · exact (h.behind (Or.inl hmarked)).trans_le hversion
    · rcases howes hdue with hdue | hlt
      · exact (h.behind (Or.inr hdue)).trans_le hversion
      · exact h.dated.trans_lt hlt
  level hfresh hnot := by
    obtain ⟨hnot, hsame⟩ := hlevel hnot
    rw [hstale] at hfresh
    rw [hcurrent, hsame]
    exact h.level hfresh hnot
  unheard hmarked r hr hprotocol := by
    rw [hstale] at hmarked
    exact h.unheard hmarked r (hreceivers r hr hprotocol hmarked) hprotocol
  counted := hcounted
  observed shown hshown := by
    rw [hcurrent]
    rcases hseen shown hshown with hold | rfl
    · exact h.observed shown hold
    · exact ⟨le_refl _, fun _ => rfl⟩

/-! ### First steps of writes -/

/-- A change is made. -/
theorem Sound.alter (h : c.Sound) {store : ResourceStore}
    (hpublication : ∀ p, store.publication p = c.store.publication p)
    (hversion : store.version = c.store.version)
    (hstored : ∀ name, (store.resources.get? name).map (·.resource) =
      latest (c.changes ++ [a]) name) : (c.alter store a).Sound where
  stored := hstored
  accounts := by
    have hrange : List.range (c.changes.length + 1) =
        List.range c.changes.length ++ [c.changes.length] := List.range_succ
    have hperm : ((c.waiting ++ [c.changes.length]) ++ c.published).Perm
        ((c.waiting ++ c.published) ++ [c.changes.length]) := by
      rw [List.append_assoc, List.append_assoc]
      exact List.Perm.append_left _ List.perm_append_comm
    have hlength : (c.changes ++ [a]).length = c.changes.length + 1 := by simp
    refine hperm.trans ?_
    change List.Perm _ (List.range (c.changes ++ [a]).length)
    rw [hlength, hrange]
    exact h.accounts.append_right _
  numbered := hversion.trans h.numbered
  once := h.once
  kept p := (h.kept p).frame (Or.inr ⟨a, rfl⟩) (congrArg _ (hpublication p))
    (congrArg _ (hpublication p)) ((congrArg _ (hpublication p)).trans (h.kept p).counted)
    hversion.ge (fun _ hi => hi) Or.inl (fun hnot => ⟨hnot, hversion⟩) (fun _ hr _ _ => hr)
    fun _ => Or.inl
  rebuilds purpose p visited found hlock := by
    obtain ⟨since, hrebuilds⟩ := h.rebuilds purpose p visited found hlock
    refine ⟨since, ?_, hrebuilds.after, fun name hname => (hrebuilds.looked name hname).concat a,
      hrebuilds.unseen, ?_⟩
    · exact hrebuilds.since_le.trans (by simp [Crowd.alter])
    · have hneeded := hrebuilds.needed
      rwa [← hpublication] at hneeded
  ordered := h.ordered

/-- A write that takes over a version and changes nothing. -/
theorem Sound.unchanged (h : c.Sound) {store : ResourceStore}
    (hpublication : ∀ p, store.publication p = c.store.publication p)
    (hversion : store.version = c.store.version)
    (hstored : ∀ name, (store.resources.get? name).map (·.resource) =
      (c.store.resources.get? name).map (·.resource)) : Sound { c with store := store } where
  stored name := (hstored name).trans (h.stored name)
  accounts := h.accounts
  numbered := hversion.trans h.numbered
  once := h.once
  kept p := (h.kept p).frame (Or.inl rfl) (congrArg _ (hpublication p))
    (congrArg _ (hpublication p)) ((congrArg _ (hpublication p)).trans (h.kept p).counted)
    hversion.ge (fun _ hi => hi) Or.inl (fun hnot => ⟨hnot, hversion⟩) (fun _ hr _ _ => hr)
    fun _ => Or.inl
  rebuilds purpose p visited found hlock := by
    obtain ⟨since, hrebuilds⟩ := h.rebuilds purpose p visited found hlock
    refine ⟨since, hrebuilds.since_le, hrebuilds.after, hrebuilds.looked, hrebuilds.unseen, ?_⟩
    have hneeded := hrebuilds.needed
    rwa [← hpublication] at hneeded
  ordered := h.ordered

theorem publication_withResources (s : ResourceStore)
    (resources : Catalog ResourceName StoredResource) (p : Protocol) :
    ({ s with resources := resources } : ResourceStore).publication p = s.publication p := by
  cases p <;> rfl

theorem publication_withVersion (s : ResourceStore) (version : ℕ) (p : Protocol) :
    ({ s with version := version } : ResourceStore).publication p = s.publication p := by
  cases p <;> rfl

theorem Sound.update (h : c.Sound) (name : ResourceName) (version : ResourceVersion)
    (resource : Resource) (hd : c.step (.update name version resource) = some d) : d.Sound := by
  have hput : ∀ k, ((c.store.put name version resource).resources.get? k).map (·.resource) =
      if name = k then some resource else (c.store.resources.get? k).map (·.resource) := by
    intro k
    unfold ResourceStore.put
    rw [Catalog.get?_insert]
    by_cases hk : k = name
    · simp [hk]
    · simp [hk, Ne.symm hk]
  obtain rfl := Option.some.inj hd
  cases houtcome : c.store.outcome name version resource with
  | stale => exact h
  | stored =>
      refine h.alter (publication_withResources _ _) rfl fun k => ?_
      rw [hput, latest_concat, h.stored]
  | unchanged =>
      refine h.unchanged (publication_withResources _ _) rfl fun k => ?_
      rw [hput]
      split
      · rename_i hk
        subst hk
        exact (ResourceStore.resource_of_unchanged houtcome).symm
      · rfl

theorem Sound.delete (h : c.Sound) (name : ResourceName) (hd : c.step (.delete name) = some d) :
    d.Sound := by
  obtain rfl := Option.some.inj hd
  split
  · refine h.alter (publication_withResources _ _) rfl fun k => ?_
    rw [latest_concat, ← h.stored]
    unfold ResourceStore.drop
    rw [Catalog.get?_erase]
    by_cases hk : k = name
    · simp [hk]
    · simp [hk, Ne.symm hk]
  · exact h

/-! ### The lock and the publication of a change -/

/-- A writer begins to publish its change, which is behind for every protocol then. -/
theorem Sound.commit (h : c.Sound) (hd : c.step (.commit i) = some d) : d.Sound := by
  simp only [step] at hd
  split at hd
  · rename_i hlock
    split at hd
    · rename_i hi
      obtain rfl := Option.some.inj hd
      have hnone : c.commit? = none := by simp [commit?, hlock]
      have hpublished : c.published = c.returned := by simp [published, hnone]
      have hevery : ∀ p, p ∈ Protocol.all := fun p => by cases p <;> decide
      exact {
        stored := h.stored
        accounts := by
          have hperm : (c.waiting.erase i ++ (c.returned ++ [i])).Perm
              (c.waiting ++ c.returned) := by
            have hfront := (List.perm_cons_erase hi).symm
            refine List.Perm.trans ?_ (hfront.append_right c.returned)
            rw [← List.append_assoc]
            exact List.perm_append_comm
          have haccounts := h.accounts
          rw [hpublished] at haccounts
          exact hperm.trans haccounts
        numbered := by
          have hnumbered := h.numbered
          rw [hpublished] at hnumbered
          simp [published, commit?, Holder.commit?, hnumbered]
        once := fun j left hcommit => by
          obtain ⟨-, rfl⟩ := Prod.mk.inj (Option.some.inj hcommit)
          decide
        kept := fun p => by
          refine (h.kept p).frame (Or.inl rfl) (congrArg _ (publication_withVersion _ _ p))
            (congrArg _ (publication_withVersion _ _ p)) ?_ (Nat.le_succ _) (fun j hj => ?_)
            (fun _ => Or.inr (Nat.lt_succ_self _)) (fun hnot => absurd ⟨i, _, rfl, hevery p⟩ hnot)
            (fun _ hr _ _ => hr) fun _ => Or.inl
          · have hcounted := (h.kept p).counted
            simp only [listeners, hlock] at hcounted
            simpa [listeners, publication_withVersion, Holder.admits?] using hcounted
          · rcases hj with hreturned | ⟨left, hcommit, hleft⟩
            · exact Or.inl hreturned
            · obtain ⟨-, rfl⟩ := Prod.mk.inj (Option.some.inj hcommit)
              exact absurd (hevery p) hleft
        rebuilds := fun purpose p visited found hnow => by cases hnow
        ordered := h.ordered }
    · cases hd
  · cases hd

/-- The holder goes on, or somebody takes the lock, and no publication is concerned. -/
theorem Sound.relock (h : c.Sound) {lock : Option Holder}
    (hcommit : lock.bind Holder.commit? = c.commit?)
    (hadmits : lock.bind Holder.admits? = c.lock.bind Holder.admits?)
    (hrebuilds : ∀ purpose p visited found, lock = some (.rebuilding purpose p visited found) →
      ∃ since, c.Rebuilds since p visited found) : Sound { c with lock := lock } := by
  have hcommit' : ({ c with lock := lock } : Crowd).commit? = c.commit? := hcommit
  have hpublished : ({ c with lock := lock } : Crowd).published = c.published := by
    unfold published
    rw [hcommit']
  have htold : ∀ p i, ({ c with lock := lock } : Crowd).Told p i → c.Told p i := by
    intro p i hi
    unfold Told at hi
    rwa [hcommit'] at hi
  have howes : ∀ p, ({ c with lock := lock } : Crowd).Owes p ↔ c.Owes p := by
    intro p
    unfold Owes
    rw [hcommit']
  exact {
    stored := h.stored
    accounts := hpublished ▸ h.accounts
    numbered := hpublished ▸ h.numbered
    once := fun i left hi => h.once i left (hcommit' ▸ hi)
    kept := fun p => by
      refine (h.kept p).frame (Or.inl rfl) rfl rfl ?_ (le_refl _) (htold p)
        (fun hdue => Or.inl ((howes p).mp hdue)) (fun hnot => ⟨mt (howes p).mpr hnot, rfl⟩)
        (fun _ hr _ _ => hr) fun _ => Or.inl
      rw [(h.kept p).counted]
      unfold listeners
      rw [hadmits]
    rebuilds := fun purpose p visited found hlock => by
      obtain ⟨since, hrebuilds⟩ := hrebuilds purpose p visited found hlock
      exact ⟨since, hrebuilds.since_le, hpublished ▸ hrebuilds.after, hrebuilds.looked,
        hrebuilds.unseen, hrebuilds.needed.imp_right (howes p).mpr⟩
    ordered := h.ordered }

/-- A rebuild that has looked at nothing yet. -/
theorem Sound.begun (h : c.Sound)
    (hneeded : (c.store.publication p).isStale = true ∨ c.Owes p) :
    c.Rebuilds c.changes.length p [] ∅ where
  since_le := le_refl _
  after _ hi := h.lt_of_published hi
  looked name hname := by cases hname
  unseen _ _ := rfl
  needed := hneeded

/-- When one protocol was told, the others were told of what they were told of before. -/
theorem told_of_erase {left : List Protocol} {j : ℕ} (hj : d.Told q j) (hq : q ≠ p)
    (hcommit : c.commit? = some (i, left)) (hrest : d.commit? = some (i, left.erase p))
    (hreturned : d.returned = c.returned) : c.Told q j := by
  rcases hj with hold | ⟨rest, hj, hnot⟩
  · exact Or.inl (hreturned ▸ hold)
  · obtain ⟨rfl, rfl⟩ := Prod.mk.inj (Option.some.inj (hrest.symm.trans hj))
    exact Or.inr ⟨left, hcommit, fun hin => hnot ((List.mem_erase_of_ne hq).mpr hin)⟩

/-- When one protocol was told, the others are owed what they were owed before. -/
theorem owes_of_erase {left : List Protocol} (hq : q ≠ p) (hcommit : c.commit? = some (i, left))
    (hrest : d.commit? = some (i, left.erase p)) : d.Owes q ↔ c.Owes q := by
  unfold Owes
  rw [hcommit, hrest]
  constructor
  · rintro ⟨j, rest, hj, hin⟩
    obtain ⟨rfl, rfl⟩ := Prod.mk.inj (Option.some.inj hj)
    exact ⟨i, left, rfl, (List.mem_erase_of_ne hq).mp hin⟩
  · rintro ⟨j, rest, hj, hin⟩
    obtain ⟨rfl, rfl⟩ := Prod.mk.inj (Option.some.inj hj)
    exact ⟨i, left.erase p, rfl, (List.mem_erase_of_ne hq).mpr hin⟩

/-- A publication that is marked has nobody to show anything to, and is behind. -/
theorem Kept.mark (h : c.Kept p)
    (hpub : d.store.publication p = { c.store.publication p with isStale := true })
    (hchanges : d.changes = c.changes) (hversion : d.store.version = c.store.version)
    (hbehind : (c.store.publication p).current.version < c.store.version)
    (hnobody : ∀ r ∈ d.receivers, r.protocol ≠ p)
    (hcounted : (c.store.publication p).receivers = d.listeners p) (hseen : d.seen = c.seen) :
    d.Kept p := by
  obtain ⟨since, hpictures, -⟩ := h.current
  constructor <;> rw [hpub]
  · exact ⟨since, hchanges ▸ hpictures, fun hnot => by cases hnot⟩
  · exact h.dated.trans hversion.ge
  · exact fun _ => hbehind.trans_eq hversion.symm
  · exact fun hnot => by cases hnot
  · exact fun _ => hnobody
  · exact hcounted
  · rw [hseen]
    exact h.observed

/-- A publication that nobody listens to is marked. -/
theorem Sound.mark (h : c.Sound) {left : List Protocol} (hlock : c.lock = some (.committing i left))
    (hp : p ∈ left) (hnobody : (c.store.publication p).receivers = 0) : Sound { c with
      store := c.store.setPublication p { c.store.publication p with isStale := true }
      lock := some (.committing i (left.erase p)) } := by
  have hcommit : c.commit? = some (i, left) := by simp [commit?, hlock, Holder.commit?]
  have hpublished : c.published = c.returned ++ [i] := by simp [published, hcommit]
  have hlisteners : ∀ q, (c.store.publication q).receivers =
      c.receivers.countP fun r => r.protocol = q := by
    intro q
    rw [(h.kept q).counted]
    simp [listeners, hlock, Holder.admits?]
  exact {
    stored := fun name => by
      rw [ResourceStore.setPublication_resources]
      exact h.stored name
    accounts := by
      have haccounts := h.accounts
      rwa [hpublished] at haccounts
    numbered := by
      have hnumbered := h.numbered
      rw [hpublished] at hnumbered
      exact (ResourceStore.setPublication_version _ _ _).trans hnumbered
    once := fun j rest hj => by
      obtain ⟨-, rfl⟩ := Prod.mk.inj (Option.some.inj hj)
      exact (h.once i left hcommit).erase p
    kept := fun q => by
      have hk := h.kept q
      have hversion := ResourceStore.setPublication_version c.store p
        { c.store.publication p with isStale := true }
      by_cases hq : q = p
      · subst hq
        have hpub := ResourceStore.publication_setPublication_self c.store q
          { c.store.publication q with isStale := true }
        refine hk.mark hpub rfl hversion (hk.behind (Or.inr ⟨i, left, hcommit, hp⟩)) ?_
          (hlisteners q) rfl
        rw [hlisteners, List.countP_eq_zero] at hnobody
        simpa using hnobody
      · have hpub := ResourceStore.publication_setPublication_of_ne c.store q p
          { c.store.publication p with isStale := true } hq
        refine hk.frame (Or.inl rfl) (congrArg _ hpub) (congrArg _ hpub) ?_ hversion.ge
          (fun j hj => told_of_erase hj hq hcommit rfl rfl)
          (fun hdue => Or.inl ((owes_of_erase hq hcommit rfl).mp hdue))
          (fun hnot => ⟨mt (owes_of_erase hq hcommit rfl).mpr hnot, hversion⟩)
          (fun _ hr _ _ => hr) fun _ => Or.inl
        exact (congrArg _ hpub).trans (hlisteners q)
    rebuilds := fun purpose p visited found hnow => by cases hnow
    ordered := h.ordered }

theorem Sound.announce (h : c.Sound) (hd : c.step (.announce p) = some d) : d.Sound := by
  simp only [step] at hd
  split at hd
  · rename_i i left hlock
    have hcommit : c.commit? = some (i, left) := by simp [commit?, hlock, Holder.commit?]
    split at hd
    · rename_i hp
      obtain rfl := Option.some.inj hd
      split
      · rename_i hnobody
        exact h.mark hlock hp hnobody
      · refine h.relock (by rw [hcommit]; rfl) (by rw [hlock]; rfl) ?_
        intro purpose q visited found hnow
        obtain ⟨-, rfl, rfl, rfl⟩ := Holder.rebuilding.inj (Option.some.inj hnow)
        exact ⟨_, h.begun (Or.inr ⟨i, left, hcommit, hp⟩)⟩
    · cases hd
  · cases hd

theorem Sound.leave (h : c.Sound) (hd : c.step .leave = some d) : d.Sound := by
  simp only [step] at hd
  split at hd
  · rename_i i hlock
    have hcommit : c.commit? = some (i, []) := by simp [commit?, hlock, Holder.commit?]
    have hpublished : c.published = c.returned ++ [i] := by simp [published, hcommit]
    obtain rfl := Option.some.inj hd
    exact {
      stored := h.stored
      accounts := by
        have haccounts := h.accounts
        rw [hpublished] at haccounts
        simpa [published, commit?] using haccounts
      numbered := by
        have hnumbered := h.numbered
        rw [hpublished] at hnumbered
        simpa [published, commit?] using hnumbered
      once := fun j left hj => by cases hj
      kept := fun p => by
        refine (h.kept p).frame (Or.inl rfl) rfl rfl ?_ (le_refl _) (fun j hj => ?_)
          (fun hdue => ?_) (fun _ => ⟨fun hdue => ?_, rfl⟩) (fun _ hr _ _ => hr) fun _ => Or.inl
        · rw [(h.kept p).counted]
          simp [listeners, hlock, Holder.admits?]
        · rcases hj with hreturned | ⟨left, hj, -⟩
          · rcases List.mem_append.mp hreturned with hreturned | hlast
            · exact Or.inl hreturned
            · obtain rfl := List.mem_singleton.mp hlast
              exact Or.inr ⟨[], hcommit, List.not_mem_nil⟩
          · cases hj
        · obtain ⟨j, left, hj, -⟩ := hdue
          cases hj
        · obtain ⟨j, left, hj, hin⟩ := hdue
          obtain ⟨-, rfl⟩ := Prod.mk.inj (Option.some.inj (hcommit.symm.trans hj))
          cases hin
      rebuilds := fun purpose p visited found hnow => by cases hnow
      ordered := h.ordered }
  · cases hd

/-! ### Rebuilds -/

/-- A name that is looked at has what the last change of it has left. -/
theorem Sound.finds_latest (h : c.Sound) (hsince : since ≤ c.changes.length)
    (hfound : found.get? name = (c.store.resources.get? name).filter (·.resource.protocol = p)) :
    Finds c.changes p since found name := by
  refine ⟨_, hadSince_latest hsince, ?_⟩
  rw [hfound, ← h.stored]
  cases c.store.resources.get? name with
  | none => rfl
  | some stored =>
      by_cases hprotocol : stored.resource.protocol = p
      · simp [Option.filter_some, hprotocol]
      · simp [Option.filter_some, hprotocol]

theorem Sound.look (h : c.Sound) (hd : c.step (.look name) = some d) : d.Sound := by
  simp only [step] at hd
  split at hd
  · rename_i purpose p visited found hlock
    split at hd
    · cases hd
    · rename_i hname
      obtain rfl := Option.some.inj hd
      obtain ⟨since, hrebuilds⟩ := h.rebuilds purpose p visited found hlock
      have hgather := fun k => get?_gather c.store p name k (hrebuilds.unseen name hname)
      refine h.relock ?_ ?_ ?_
      · rw [commit?, hlock]
        cases purpose <;> rfl
      · rw [hlock]
        cases purpose <;> rfl
      · intro purpose' p' visited' found' hnow
        obtain ⟨-, rfl, rfl, rfl⟩ := Holder.rebuilding.inj (Option.some.inj hnow)
        refine ⟨since, hrebuilds.since_le, hrebuilds.after, fun k hk => ?_, fun k hk => ?_,
          hrebuilds.needed⟩
        · by_cases hnew : k = name
          · subst hnew
            exact h.finds_latest hrebuilds.since_le (by rw [hgather, if_pos rfl])
          · obtain ⟨resource, hhad, hfound⟩ :=
              hrebuilds.looked k ((List.mem_cons.mp hk).resolve_left hnew)
            refine ⟨resource, hhad, ?_⟩
            rw [hgather, if_neg hnew, hfound]
        · obtain ⟨hne, hk⟩ := not_or.mp fun hor => hk (List.mem_cons.mpr hor)
          rw [hgather, if_neg hne]
          exact hrebuilds.unseen k hk
  · cases hd

/-- When all names were looked at that have a resource, each was found as it was at some moment of
the rebuild. -/
theorem Sound.finds (h : c.Sound) (hrebuilds : c.Rebuilds since p visited found)
    (hall : ∀ name ∈ c.store.resources.keys, name ∈ visited) (name : ResourceName) :
    Finds c.changes p since found name := by
  by_cases hname : name ∈ visited
  · exact hrebuilds.looked name hname
  · have hgone : c.store.resources.get? name = none := by
      rw [Option.eq_none_iff_forall_ne_some]
      exact fun stored hstored => hname (hall name (Catalog.mem_keys_iff.mpr ⟨stored, hstored⟩))
    refine h.finds_latest hrebuilds.since_le ?_
    rw [hgone, hrebuilds.unseen name hname]
    rfl

theorem ordered_concat (hordered : c.seen.Pairwise fun a b =>
      a.1 = b.1 → a.2.version ≤ b.2.version ∧ (a.2.version = b.2.version → a.2 = b.2))
    (hkept : d.Kept p) (hseen : d.seen = c.seen ++ [(p, (d.store.publication p).current)]) :
    d.seen.Pairwise fun a b =>
      a.1 = b.1 → a.2.version ≤ b.2.version ∧ (a.2.version = b.2.version → a.2 = b.2) := by
  have hobserved := hkept.observed
  rw [hseen] at hobserved ⊢
  refine List.pairwise_append.mpr ⟨hordered, List.pairwise_singleton _ _, ?_⟩
  rintro ⟨q, shown⟩ hold b hb hq
  obtain rfl := List.mem_singleton.mp hb
  obtain rfl : q = p := hq
  exact hobserved shown (List.mem_append_left _ hold)

theorem publication_send_self (s : ResourceStore) (p : Protocol)
    (found : Catalog ResourceName StoredResource) :
    (send s p found).publication p = { s.publication p with
      current :=
        { version := s.version
          protocol := p
          entries := found.entries.map fun e => ResourceStore.entryOf e.1 e.2 }
      isStale := false
      sent := (s.publication p).sent + 1 } :=
  ResourceStore.publication_setPublication_self _ _ _

theorem publication_send_of_ne (s : ResourceStore) (hq : q ≠ p)
    (found : Catalog ResourceName StoredResource) :
    (send s p found).publication q = s.publication q :=
  ResourceStore.publication_setPublication_of_ne _ _ _ _ hq

/-- A publication that was rebuilt is told of no change that it could not have seen. -/
theorem Sound.kept_sent (h : c.Sound) (hrebuilds : c.Rebuilds since p visited found)
    (hfinds : ∀ name, Finds c.changes p since found name) (hchanges : d.changes = c.changes)
    (hstore : d.store = send c.store p found) (htold : ∀ i, d.Told p i → i ∈ c.published)
    (howes : ¬d.Owes p) (hcounted : c.listeners p = d.listeners p)
    (hseen : ∀ shown, (p, shown) ∈ d.seen →
      (p, shown) ∈ c.seen ∨ shown = (d.store.publication p).current) : d.Kept p := by
  have hk := h.kept p
  have hpub := publication_send_self c.store p found
  have hversion : (send c.store p found).version = c.store.version :=
    ResourceStore.setPublication_version _ _ _
  rw [hstore] at hseen
  constructor <;> rw [hstore, hpub]
  · refine ⟨since, ⟨rfl, found, rfl, ?_⟩, fun _ i hi => hrebuilds.after i (htold i hi)⟩
    rw [hchanges]
    exact hfinds
  · exact hversion.ge
  · rintro (hmarked | hdue)
    · cases hmarked
    · exact absurd hdue howes
  · exact fun _ _ => hversion.symm
  · exact fun hmarked => by cases hmarked
  · exact hk.counted.trans hcounted
  · intro shown hshown
    rcases hseen shown hshown with hold | rfl
    · -- what was seen before is older, since the publication was behind
      have hlt := (hk.observed shown hold).1.trans_lt (hk.behind hrebuilds.needed)
      exact ⟨hlt.le, fun heq => absurd heq hlt.ne⟩
    · rw [hpub]
      exact ⟨le_refl _, fun _ => rfl⟩

/-- A rebuild ends, and its protocol shows the change that is published, if any. -/
theorem Sound.sent (h : c.Sound) (hrebuilds : c.Rebuilds since p visited found)
    (hfinds : ∀ name, Finds c.changes p since found name)
    (hstore : d.store = send c.store p found) (hchanges : d.changes = c.changes)
    (hwaiting : d.waiting = c.waiting) (hpublished : d.published = c.published)
    (htold : ∀ q, q ≠ p → ∀ i, d.Told q i → c.Told q i)
    (howes : ∀ q, d.Owes q ↔ q ≠ p ∧ c.Owes q)
    (honce : ∀ i left, d.commit? = some (i, left) → left.Nodup)
    (hlisteners : ∀ q, d.listeners q = c.listeners q)
    (hreceivers : ∀ r ∈ d.receivers, r.protocol ≠ p → r ∈ c.receivers)
    (hseen : d.seen = c.seen ∨ d.seen = c.seen ++ [(p, (d.store.publication p).current)])
    (hlock : ∀ purpose q visited found, d.lock ≠ some (.rebuilding purpose q visited found)) :
    d.Sound := by
  have hversion : d.store.version = c.store.version := by
    rw [hstore]
    exact ResourceStore.setPublication_version _ _ _
  have hnew : ∀ q shown, (q, shown) ∈ d.seen →
      (q, shown) ∈ c.seen ∨ q = p ∧ shown = (d.store.publication p).current := by
    intro q shown hshown
    rcases hseen with heq | heq
    · exact Or.inl (heq ▸ hshown)
    · rw [heq] at hshown
      refine (List.mem_append.mp hshown).imp_right fun hlast => ?_
      exact Prod.mk.inj (List.mem_singleton.mp hlast)
  have hkept : ∀ q, d.Kept q := by
    intro q
    by_cases hq : q = p
    · subst hq
      exact h.kept_sent hrebuilds hfinds hchanges hstore
        (fun i hi => hpublished ▸ hi.mem_published) (fun hdue => ((howes q).mp hdue).1 rfl)
        (hlisteners q).symm fun shown hshown => (hnew q shown hshown).imp_right And.right
    · have hpub : d.store.publication q = c.store.publication q := by
        rw [hstore]
        exact publication_send_of_ne c.store hq found
      refine (h.kept q).frame (Or.inl hchanges) (congrArg _ hpub) (congrArg _ hpub) ?_ hversion.ge
        (htold q hq) (fun hdue => Or.inl ((howes q).mp hdue).2)
        (fun hnot => ⟨fun hdue => hnot ((howes q).mpr ⟨hq, hdue⟩), hversion⟩)
        (fun r hr hprotocol _ => ?_) fun shown hshown => ?_
      · rw [hpub, (h.kept q).counted, hlisteners]
      · exact hreceivers r hr fun heq => hq (hprotocol.symm.trans heq)
      · exact (hnew q shown hshown).imp_right fun hand => absurd hand.1 hq
  exact {
    stored := fun name => by
      rw [hstore, hchanges]
      unfold send
      rw [ResourceStore.setPublication_resources]
      exact h.stored name
    accounts := by
      rw [hwaiting, hpublished, hchanges]
      exact h.accounts
    numbered := by
      rw [hversion, hpublished]
      exact h.numbered
    once := honce
    kept := hkept
    rebuilds := fun purpose q visited found hnow => absurd hnow (hlock purpose q visited found)
    ordered := by
      rcases hseen with heq | heq
      · rw [heq]
        exact h.ordered
      · exact ordered_concat h.ordered (hkept p) heq }

/-- A rebuild on behalf of a reader ends. -/
theorem Sound.sent_reader (h : c.Sound) (hrebuilds : c.Rebuilds since p visited found)
    (hfinds : ∀ name, Finds c.changes p since found name) (hcommit : c.commit? = none)
    (hstore : d.store = send c.store p found) (hchanges : d.changes = c.changes)
    (hwaiting : d.waiting = c.waiting) (hreturned : d.returned = c.returned)
    (hlock : d.lock = none) (hlisteners : ∀ q, d.listeners q = c.listeners q)
    (hreceivers : ∀ r ∈ d.receivers, r.protocol ≠ p → r ∈ c.receivers)
    (hseen : d.seen = c.seen ++ [(p, (d.store.publication p).current)]) : d.Sound := by
  have hnone : d.commit? = none := by simp [commit?, hlock]
  have hnothing : ∀ q, ¬c.Owes q ∧ ¬d.Owes q := by
    intro q
    unfold Owes
    rw [hcommit, hnone]
    simp
  refine h.sent hrebuilds hfinds hstore hchanges hwaiting ?_ (fun q _ i hi => ?_) (fun q => ?_)
    (fun i left hi => ?_) hlisteners hreceivers (Or.inr hseen) ?_
  · rw [published, published, hreturned, hnone, hcommit]
  · unfold Told at hi ⊢
    rwa [hreturned, hnone, ← hcommit] at hi
  · exact iff_of_false (hnothing q).2 fun hand => (hnothing q).1 hand.2
  · cases hnone.symm.trans hi
  · simp [hlock]

theorem Sound.finish (h : c.Sound) (hd : c.step .finish = some d) : d.Sound := by
  simp only [step] at hd
  split at hd
  · rename_i purpose p visited found hlock
    split at hd
    · rename_i hall
      obtain rfl := Option.some.inj hd
      obtain ⟨since, hrebuilds⟩ := h.rebuilds purpose p visited found hlock
      have hfinds := h.finds hrebuilds hall
      cases purpose with
      | commit i left =>
          have hcommit : c.commit? = some (i, left) := by simp [commit?, hlock, Holder.commit?]
          have hnodup := h.once i left hcommit
          refine h.sent hrebuilds hfinds rfl rfl rfl ?_ (fun q hq j hj => ?_) (fun q => ?_)
            (fun j rest hj => ?_) (fun q => ?_) (fun _ hr _ => hr) (Or.inl rfl) (by simp [resume])
          · simp [published, hlock, commit?, resume, Holder.commit?]
          · exact told_of_erase hj hq hcommit rfl rfl
          · by_cases hq : q = p
            · subst hq
              refine ⟨?_, fun hand => absurd rfl hand.1⟩
              rintro ⟨j, rest, hj, hrest⟩
              obtain ⟨-, rfl⟩ := Prod.mk.inj (Option.some.inj hj)
              exact absurd hrest hnodup.not_mem_erase
            · exact (owes_of_erase hq hcommit rfl).trans (and_iff_right hq).symm
          · obtain ⟨-, rfl⟩ := Prod.mk.inj (Option.some.inj hj)
            exact hnodup.erase p
          · simp [listeners, hlock, resume, Holder.admits?]
      | snapshot =>
          have hcommit : c.commit? = none := by simp [commit?, hlock, Holder.commit?]
          refine h.sent_reader hrebuilds hfinds hcommit rfl rfl rfl rfl rfl (fun q => ?_)
            (fun _ hr _ => hr) rfl
          simp [listeners, hlock, resume, see, Holder.admits?]
      | subscribe known =>
          have hcommit : c.commit? = none := by simp [commit?, hlock, Holder.commit?]
          refine h.sent_reader hrebuilds hfinds hcommit rfl rfl rfl rfl rfl (fun q => ?_)
            (fun r hr hprotocol => ?_) rfl
          · simp [listeners, hlock, resume, see, Holder.admits?, List.countP_append,
              List.countP_singleton]
          · rcases List.mem_append.mp hr with hr | hlast
            · exact hr
            · obtain rfl := List.mem_singleton.mp hlast
              exact absurd rfl hprotocol
    · cases hd
  · cases hd

/-! ### Readers -/

/-- Somebody gets or sees a snapshot. -/
theorem Sound.see (h : c.Sound) (p : Protocol) : (c.see p).Sound := by
  have hkept : ∀ q, (c.see p).Kept q := by
    intro q
    refine (h.kept q).frame (Or.inl rfl) rfl rfl (h.kept q).counted (le_refl _) (fun _ hi => hi)
      Or.inl (fun hnot => ⟨hnot, rfl⟩) (fun _ hr _ _ => hr) fun shown hshown => ?_
    refine (List.mem_append.mp hshown).imp_right fun hlast => ?_
    obtain ⟨rfl, rfl⟩ := Prod.mk.inj (List.mem_singleton.mp hlast)
    rfl
  exact { h with
    kept := hkept
    rebuilds := fun purpose q visited found hlock => by
      obtain ⟨since, hrebuilds⟩ := h.rebuilds purpose q visited found hlock
      exact ⟨since, hrebuilds.since_le, hrebuilds.after, hrebuilds.looked, hrebuilds.unseen,
        hrebuilds.needed⟩
    ordered := ordered_concat h.ordered (hkept p) rfl }

theorem Sound.snapshot (h : c.Sound) (hd : c.step (.snapshot p) = some d) : d.Sound := by
  simp only [step] at hd
  split at hd
  · rename_i hlock
    obtain rfl := Option.some.inj hd
    split
    · rename_i hstale
      refine h.relock (by rw [commit?, hlock]; rfl) (by rw [hlock]; rfl) ?_
      intro purpose q visited found hnow
      obtain ⟨-, rfl, rfl, rfl⟩ := Holder.rebuilding.inj (Option.some.inj hnow)
      exact ⟨_, h.begun (Or.inl hstale)⟩
    · exact h.see p
  · cases hd

/-- Somebody comes or goes. -/
theorem Sound.setReceivers (h : c.Sound) {count : ℕ} {receivers : List Receiver}
    {lock : Option Holder} (hcommit : lock.bind Holder.commit? = c.commit?)
    (hrebuilds : ∀ purpose q visited found, lock = some (.rebuilding purpose q visited found) →
      ∃ since, c.Rebuilds since q visited found)
    (hreceivers : ∀ r ∈ receivers, (c.store.publication r.protocol).isStale = true →
      r ∈ c.receivers)
    (hcount : count = Crowd.listeners { c with receivers := receivers, lock := lock } p)
    (hothers : ∀ q, q ≠ p → c.listeners q =
      Crowd.listeners { c with receivers := receivers, lock := lock } q) :
    Sound { c with
      store := c.store.setPublication p { c.store.publication p with receivers := count }
      receivers := receivers
      lock := lock } := by
  generalize hstore : c.store.setPublication p { c.store.publication p with receivers := count } =
    store
  have hresources : store.resources = c.store.resources := by
    rw [← hstore]
    exact ResourceStore.setPublication_resources _ _ _
  have hversion : store.version = c.store.version := by
    rw [← hstore]
    exact ResourceStore.setPublication_version _ _ _
  have hpublication : ∀ q, (store.publication q).current = (c.store.publication q).current ∧
      (store.publication q).isStale = (c.store.publication q).isStale ∧
      (store.publication q).receivers =
        Crowd.listeners { c with receivers := receivers, lock := lock } q := by
    intro q
    rw [← hstore]
    by_cases hq : q = p
    · subst hq
      rw [ResourceStore.publication_setPublication_self]
      exact ⟨rfl, rfl, hcount⟩
    · rw [ResourceStore.publication_setPublication_of_ne _ _ _ _ hq]
      exact ⟨rfl, rfl, (h.kept q).counted.trans (hothers q hq)⟩
  have htold : ∀ q, (c.Told q = fun i => i ∈ c.returned ∨
      ∃ left, lock.bind Holder.commit? = some (i, left) ∧ q ∉ left) := by
    intro q
    rw [hcommit]
    rfl
  have howes : ∀ q, c.Owes q = ∃ i left, lock.bind Holder.commit? = some (i, left) ∧ q ∈ left := by
    intro q
    rw [hcommit]
    rfl
  have hpublished : c.published =
      c.returned ++ (lock.bind Holder.commit?).toList.map Prod.fst := by
    rw [hcommit]
    rfl
  exact {
    stored := fun name => by
      dsimp only
      rw [hresources]
      exact h.stored name
    accounts := by
      have haccounts := h.accounts
      rwa [hpublished] at haccounts
    numbered := by
      have hnumbered := h.numbered
      rw [hpublished] at hnumbered
      exact hversion.trans hnumbered
    once := fun i left hi => h.once i left (hcommit.symm.trans hi)
    kept := fun q => by
      obtain ⟨hcurrent, hstale, hcounted⟩ := hpublication q
      refine (h.kept q).frame (Or.inl rfl) hcurrent hstale hcounted hversion.ge (fun i hi => ?_)
        (fun hdue => Or.inl ?_) (fun hnot => ⟨?_, hversion⟩) (fun r hr hprotocol hmarked => ?_)
        fun _ => Or.inl
      · rw [htold]
        exact hi
      · rw [howes]
        exact hdue
      · rw [howes]
        exact hnot
      · exact hreceivers r hr (hprotocol ▸ hmarked)
    rebuilds := fun purpose q visited found hlock => by
      obtain ⟨since, hrebuilds⟩ := hrebuilds purpose q visited found hlock
      refine ⟨since, hrebuilds.since_le, ?_, hrebuilds.looked, hrebuilds.unseen, ?_⟩
      · have hafter := hrebuilds.after
        rwa [hpublished] at hafter
      · have hneeded := hrebuilds.needed
        rwa [howes, ← (hpublication q).2.1] at hneeded
    ordered := h.ordered }

theorem Sound.subscribe (h : c.Sound) (hd : c.step (.subscribe p) = some d) : d.Sound := by
  simp only [step] at hd
  split at hd
  · rename_i hlock
    obtain rfl := Option.some.inj hd
    have hcommit : c.commit? = none := by simp [commit?, hlock]
    have hcounted : ∀ q, (c.store.publication q).receivers =
        c.receivers.countP fun r => r.protocol = q := by
      intro q
      rw [(h.kept q).counted]
      simp [listeners, hlock]
    split
    · rename_i hstale
      refine h.setReceivers hcommit.symm ?_ (fun _ hr _ => hr) ?_ fun q hq => ?_
      · intro purpose q visited found hnow
        obtain ⟨-, rfl, rfl, rfl⟩ := Holder.rebuilding.inj (Option.some.inj hnow)
        exact ⟨_, h.begun (Or.inl hstale)⟩
      · rw [hcounted]
        simp [listeners, Holder.admits?]
      · simp [listeners, hlock, Holder.admits?, Ne.symm hq]
    · rename_i hfresh
      refine (h.setReceivers rfl h.rebuilds (fun r hr hmarked => ?_) ?_ fun q hq => ?_).see p
      · rcases List.mem_append.mp hr with hold | hlast
        · exact hold
        · obtain rfl := List.mem_singleton.mp hlast
          exact absurd hmarked hfresh
      · rw [hcounted]
        simp [listeners, hlock, List.countP_append]
      · simp [listeners, List.countP_append, Ne.symm hq]
  · cases hd

theorem Sound.drop (h : c.Sound) {r : Receiver} (hd : c.step (.drop r) = some d) : d.Sound := by
  simp only [step] at hd
  split at hd
  · rename_i hr
    obtain rfl := Option.some.inj hd
    have hpos : 0 < c.receivers.countP fun other => other.protocol = r.protocol :=
      List.countP_pos_iff.mpr ⟨r, hr, by simp⟩
    refine h.setReceivers rfl h.rebuilds (fun _ hother _ => List.mem_of_mem_erase hother) ?_
      fun q hq => ?_
    · rw [(h.kept r.protocol).counted]
      simp only [listeners, List.countP_erase, hr]
      simp only [decide_true, and_self, if_true]
      omega
    · simp [listeners, List.countP_erase, Ne.symm hq]
  · cases hd

/-- Every step keeps everything up. -/
theorem Sound.step (h : c.Sound) {m : Move} (hm : c.step m = some d) : d.Sound := by
  cases m with
  | update name version resource => exact h.update name version resource hm
  | delete name => exact h.delete name hm
  | commit i => exact h.commit hm
  | announce p => exact h.announce hm
  | look name => exact h.look hm
  | finish => exact h.finish hm
  | leave => exact h.leave hm
  | snapshot p => exact h.snapshot hm
  | subscribe p => exact h.subscribe hm
  | view r =>
      simp only [Crowd.step] at hm
      split at hm
      · obtain rfl := Option.some.inj hm
        exact h.see r.protocol
      · cases hm
  | drop r => exact h.drop hm

end invariant

theorem opening_sound : opening.Sound where
  stored name := rfl
  accounts := List.Perm.refl _
  numbered := rfl
  once i left hi := by cases hi
  kept p := by
    have hpub : (ResourceStore.empty.publication p) = .initial p := by cases p <;> rfl
    constructor <;> rw [show opening.store = .empty from rfl, hpub]
    · refine ⟨0, ⟨rfl, ∅, rfl, fun name => ⟨none, hadSince_latest (le_refl _), rfl⟩⟩, ?_⟩
      rintro - i (hi | ⟨left, hi, -⟩)
      · cases hi
      · cases hi
    · exact le_refl _
    · rintro (hmarked | ⟨i, left, hi, -⟩)
      · cases hmarked
      · cases hi
    · exact fun _ _ => rfl
    · exact fun hmarked => by cases hmarked
    · rfl
    · exact fun shown hshown => by cases hshown
  rebuilds purpose p visited found hlock := by cases hlock
  ordered := .nil

theorem Sound.run {c d : Crowd} (h : c.Sound) {moves : List Move} (hrun : c.run moves = some d) :
    d.Sound :=
  run_keeps h (fun _ _ _ _ hq hm => hq.step hm) hrun

end ControlPlane.Crowd
