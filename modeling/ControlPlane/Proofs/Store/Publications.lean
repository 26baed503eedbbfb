import ControlPlane.Proofs.Store.Resources
import Mathlib.Logic.Function.Basic

/-! # Publications and their listeners

A publication that somebody listens to is never stale, so what its listeners see is the current
snapshot (`Attended.snapshot_eq`).  Whatever happens to the store and to the other listeners, it
shows a listener nothing new, or a snapshot of no older version that counts as news (`Later`).
Every operation of the store and of its listeners
keeps this up (`Hall.Sound.step`). -/

namespace ControlPlane.ResourceStore

/-! ### One publication at a time -/

section publication
variable (s : ResourceStore) (p q : Protocol) (x : Publication)

@[simp] theorem publication_setPublication_self : (s.setPublication p x).publication p = x := by
  cases p <;> rfl

@[simp] theorem publication_setPublication_of_ne (h : p ≠ q) :
    (s.setPublication q x).publication p = s.publication p := by
  cases p <;> cases q <;> first | rfl | exact absurd rfl h

end publication

/-- The publication of a protocol with so many listeners. -/
structure Attended (s : ResourceStore) (p : Protocol) (count : ℕ) : Prop where
  receivers : (s.publication p).receivers = count
  fresh : count ≠ 0 → (s.publication p).isStale = false
  dated : (s.publication p).current.version ≤ s.version
  ordered : (s.publication p).current.entries.Pairwise fun a b => compare a.name b.name = .lt

/-- A listener sees what it saw before, or there is news for it. -/
structure Later (s t : ResourceStore) (p : Protocol) : Prop where
  version_le : (s.publication p).current.version ≤ (t.publication p).current.version
  news : ((t.publication p).current = (s.publication p).current ∧
      (t.publication p).sent = (s.publication p).sent) ∨
    (s.publication p).sent < (t.publication p).sent

section operations
variable {s t u : ResourceStore} {p : Protocol} {count : ℕ}

theorem Later.of_eq (h : t.publication p = s.publication p) : Later s t p :=
  ⟨by rw [h], Or.inl ⟨by rw [h], by rw [h]⟩⟩

theorem Later.trans (hst : Later s t p) (htu : Later t u p) : Later s u p where
  version_le := hst.version_le.trans htu.version_le
  news := by
    rcases hst.news with ⟨hcurrent, hsent⟩ | hlt <;> rcases htu.news with ⟨hcurrent', hsent'⟩ | hlt'
    · exact Or.inl ⟨hcurrent'.trans hcurrent, hsent'.trans hsent⟩
    · exact Or.inr (hsent ▸ hlt')
    · exact Or.inr (hsent' ▸ hlt)
    · exact Or.inr (hlt.trans hlt')

theorem Later.sent_le (h : Later s t p) : (s.publication p).sent ≤ (t.publication p).sent := by
  rcases h.news with ⟨-, hsent⟩ | hlt
  · exact le_of_eq hsent.symm
  · exact hlt.le

theorem Attended.of_eq (h : s.Attended p count) (hpub : t.publication p = s.publication p)
    (hversion : s.version ≤ t.version) : t.Attended p count where
  receivers := by rw [hpub, h.receivers]
  fresh := by rw [hpub]; exact h.fresh
  dated := by rw [hpub]; exact h.dated.trans hversion
  ordered := by rw [hpub]; exact h.ordered

/-- What is built from the store is in the order of the names. -/
theorem build_ordered (s : ResourceStore) (p : Protocol) :
    (s.build p).entries.Pairwise fun a b => compare a.name b.name = .lt := by
  unfold build
  rw [List.pairwise_map]
  exact (s.resources.ordered.sublist List.filter_sublist).imp fun h => h

theorem Attended.refresh (h : s.Attended p count) (q : Protocol) :
    (s.refresh q).Attended p count ∧ Later s (s.refresh q) p := by
  by_cases hq : p = q
  · subst hq
    have hpub : (s.refresh p).publication p = { s.publication p with
        current := s.build p, isStale := false, sent := (s.publication p).sent + 1 } :=
      publication_setPublication_self _ _ _
    refine ⟨⟨by rw [hpub]; exact h.receivers, fun _ => by rw [hpub], ?_, ?_⟩, ⟨?_, Or.inr ?_⟩⟩
    · rw [hpub, refresh_version]
      exact le_refl _
    · rw [hpub]
      exact s.build_ordered p
    · rw [hpub]
      exact h.dated
    · rw [hpub]
      exact Nat.lt_succ_self _
  · have hpub : (s.refresh q).publication p = s.publication p :=
      publication_setPublication_of_ne _ _ _ _ hq
    exact ⟨h.of_eq hpub (by rw [refresh_version]), .of_eq hpub⟩

theorem Attended.freshen (h : s.Attended p count) (q : Protocol) :
    (s.freshen q).Attended p count ∧ Later s (s.freshen q) p := by
  unfold ResourceStore.freshen
  split
  · exact h.refresh q
  · exact ⟨h, .of_eq rfl⟩

theorem Attended.announce (h : s.Attended p count) (q : Protocol) :
    (s.announce q).Attended p count ∧ Later s (s.announce q) p := by
  unfold ResourceStore.announce
  dsimp only
  split
  · rename_i hnobody
    by_cases hq : p = q
    · subst hq
      have hpub := publication_setPublication_self s p { s.publication p with isStale := true }
      refine ⟨⟨by rw [hpub]; exact h.receivers, fun hcount => ?_, ?_, ?_⟩, ⟨by rw [hpub], ?_⟩⟩
      · exact absurd (h.receivers.symm.trans hnobody) hcount
      · rw [hpub, setPublication_version]
        exact h.dated
      · rw [hpub]
        exact h.ordered
      · exact Or.inl ⟨by rw [hpub], by rw [hpub]⟩
    · have hpub := publication_setPublication_of_ne s p q
        { s.publication q with isStale := true } hq
      exact ⟨h.of_eq hpub (by rw [setPublication_version]), .of_eq hpub⟩
  · exact h.refresh q

theorem Attended.publish (h : s.Attended p count) :
    s.publish.Attended p count ∧ Later s s.publish p := by
  have h1 : Attended { s with version := s.version + 1 } p count := h.of_eq rfl (Nat.le_succ _)
  have hl1 : Later s { s with version := s.version + 1 } p := .of_eq rfl
  obtain ⟨h2, hl2⟩ := h1.announce .v2
  obtain ⟨h3, hl3⟩ := h2.announce .v3
  exact ⟨h3, (hl1.trans hl2).trans hl3⟩

theorem Attended.update (h : s.Attended p count) (name : ResourceName) (version : ResourceVersion)
    (resource : Resource) : (s.update name version resource).1.Attended p count ∧
      Later s (s.update name version resource).1 p := by
  have hput : (s.put name version resource).Attended p count := h.of_eq rfl (le_refl _)
  have hlput : Later s (s.put name version resource) p := .of_eq rfl
  unfold ResourceStore.update
  split
  · obtain ⟨ht, hl⟩ := hput.publish
    exact ⟨ht, hlput.trans hl⟩
  · exact ⟨hput, hlput⟩
  · exact ⟨h, .of_eq rfl⟩

theorem Attended.delete (h : s.Attended p count) (name : ResourceName) :
    (s.delete name).1.Attended p count ∧ Later s (s.delete name).1 p := by
  have hdrop : (s.drop name).Attended p count := h.of_eq rfl (le_refl _)
  have hldrop : Later s (s.drop name) p := .of_eq rfl
  unfold ResourceStore.delete
  split
  · obtain ⟨ht, hl⟩ := hdrop.publish
    exact ⟨ht, hldrop.trans hl⟩
  · exact ⟨h, .of_eq rfl⟩

/-- A store of which a protocol has another number of listeners. -/
theorem Attended.setReceivers (h : s.Attended p count) (q : Protocol) {n : ℕ}
    (hfresh : q = p → n ≠ 0 → (s.publication p).isStale = false) :
    (s.setPublication q { s.publication q with receivers := n }).Attended p
        (if q = p then n else count) ∧
      Later s (s.setPublication q { s.publication q with receivers := n }) p := by
  by_cases hq : q = p
  · subst hq
    have hpub := publication_setPublication_self s q { s.publication q with receivers := n }
    rw [if_pos rfl]
    refine ⟨⟨by rw [hpub], fun hn => ?_, ?_, ?_⟩,
      ⟨by rw [hpub], Or.inl ⟨by rw [hpub], by rw [hpub]⟩⟩⟩
    · rw [hpub]
      exact hfresh rfl hn
    · rw [hpub, setPublication_version]
      exact h.dated
    · rw [hpub]
      exact h.ordered
  · have hpub := publication_setPublication_of_ne s p q { s.publication q with receivers := n }
      (Ne.symm hq)
    rw [if_neg hq]
    exact ⟨h.of_eq hpub (by rw [setPublication_version]), .of_eq hpub⟩

/-- Whoever starts to listen makes the publication fresh. -/
theorem Attended.subscribe (h : s.Attended p count) (q : Protocol) :
    (s.subscribe q).1.Attended p (if q = p then count + 1 else count) ∧
      Later s (s.subscribe q).1 p := by
  unfold ResourceStore.subscribe ResourceStore.freshen
  dsimp only
  rw [publication_setPublication_self]
  split
  · rename_i hstale
    by_cases hq : q = p
    · subst hq
      have hpub : ((s.setPublication q { s.publication q with
            receivers := (s.publication q).receivers + 1 }).refresh q).publication q =
          { s.publication q with
            receivers := (s.publication q).receivers + 1
            current := (s.setPublication q { s.publication q with
              receivers := (s.publication q).receivers + 1 }).build q
            isStale := false
            sent := (s.publication q).sent + 1 } := by
        unfold ResourceStore.refresh
        simp only [publication_setPublication_self]
      rw [if_pos rfl]
      refine ⟨⟨?_, fun _ => by rw [hpub], ?_, ?_⟩, ⟨?_, Or.inr ?_⟩⟩
      · rw [hpub, ← h.receivers]
      · rw [hpub, refresh_version]
        exact le_refl _
      · rw [hpub]
        exact build_ordered _ q
      · rw [hpub]
        exact h.dated.trans (le_of_eq (setPublication_version s q _).symm)
      · rw [hpub]
        exact Nat.lt_succ_self _
    · obtain ⟨h1, hl1⟩ := h.setReceivers q (n := (s.publication q).receivers + 1)
        fun heq => absurd heq hq
      rw [if_neg hq] at h1 ⊢
      obtain ⟨h2, hl2⟩ := h1.refresh q
      exact ⟨h2, hl1.trans hl2⟩
  · rename_i hfresh
    have hset := h.setReceivers q (n := (s.publication q).receivers + 1) fun heq _ =>
      heq ▸ Bool.eq_false_iff.mpr hfresh
    by_cases hq : q = p
    · subst hq
      rwa [if_pos rfl, h.receivers] at hset ⊢
    · rwa [if_neg hq] at hset ⊢

theorem Attended.unsubscribe (h : s.Attended p count) (r : Receiver) :
    (s.unsubscribe r).Attended p (if r.protocol = p then count - 1 else count) ∧
      Later s (s.unsubscribe r) p := by
  have hset := h.setReceivers r.protocol (n := (s.publication r.protocol).receivers - 1)
    fun heq hn => h.fresh <| by
      rw [← h.receivers, ← heq]
      omega
  unfold ResourceStore.unsubscribe
  dsimp only
  by_cases hq : r.protocol = p
  · subst hq
    rwa [if_pos rfl, h.receivers] at hset ⊢
  · rwa [if_neg hq] at hset ⊢

/-- What a listener sees is the current snapshot. -/
theorem Attended.snapshot_eq (h : s.Attended p count) (hcount : count ≠ 0) :
    s.snapshot p = (s, (s.publication p).current) := by
  unfold ResourceStore.snapshot ResourceStore.freshen
  rw [h.fresh hcount, if_neg Bool.false_ne_true]

theorem empty_attended (p : Protocol) : empty.Attended p 0 := by
  cases p <;> exact ⟨rfl, fun h => absurd rfl h, le_refl _, .nil⟩

end operations

end ControlPlane.ResourceStore

namespace ControlPlane

/-! ### The store and its listeners -/

/-- A resource store, and how many listen to each of its publications. -/
structure Hall where
  store : ResourceStore
  listeners : Protocol → ℕ

namespace Hall

/-- What happens to a store and its listeners. -/
inductive Move where
  | write (name : ResourceName) (version : ResourceVersion) (resource : Resource)
  | remove (name : ResourceName)
  /-- Somebody asks for the current snapshot. -/
  | read (protocol : Protocol)
  | join (protocol : Protocol)
  | leave (receiver : Receiver)
deriving DecidableEq, Repr

def empty : Hall := ⟨.empty, fun _ => 0⟩

def step (h : Hall) : Move → Hall
  | .write name version resource => { h with store := (h.store.update name version resource).1 }
  | .remove name => { h with store := (h.store.delete name).1 }
  | .read p => { h with store := (h.store.snapshot p).1 }
  | .join p =>
    ⟨(h.store.subscribe p).1, Function.update h.listeners p (h.listeners p + 1)⟩
  | .leave r =>
    ⟨h.store.unsubscribe r, Function.update h.listeners r.protocol (h.listeners r.protocol - 1)⟩

/-- Every publication is attended by those who listen to it. -/
def Sound (h : Hall) : Prop := ∀ p, h.store.Attended p (h.listeners p)

theorem empty_sound : empty.Sound := ResourceStore.empty_attended

theorem Sound.step {h : Hall} (hs : h.Sound) (m : Move) :
    (h.step m).Sound ∧ ∀ p, h.store.Later (h.step m).store p := by
  cases m with
  | write name version resource =>
      exact ⟨fun p => ((hs p).update name version resource).1,
        fun p => ((hs p).update name version resource).2⟩
  | remove name => exact ⟨fun p => ((hs p).delete name).1, fun p => ((hs p).delete name).2⟩
  | read q => exact ⟨fun p => ((hs p).freshen q).1, fun p => ((hs p).freshen q).2⟩
  | join q =>
      refine ⟨fun p => ?_, fun p => ((hs p).subscribe q).2⟩
      have hjoin := ((hs p).subscribe q).1
      by_cases hq : q = p
      · subst hq
        rw [if_pos rfl] at hjoin
        simpa [Hall.step] using hjoin
      · rw [if_neg hq] at hjoin
        simpa [Hall.step, Function.update_of_ne (Ne.symm hq)] using hjoin
  | leave r =>
      refine ⟨fun p => ?_, fun p => ((hs p).unsubscribe r).2⟩
      have hleave := ((hs p).unsubscribe r).1
      by_cases hq : r.protocol = p
      · subst hq
        rw [if_pos rfl] at hleave
        simpa [Hall.step] using hleave
      · rw [if_neg hq] at hleave
        simpa [Hall.step, Function.update_of_ne (Ne.symm hq)] using hleave

theorem Sound.run {h : Hall} (hs : h.Sound) (moves : List Move) :
    (moves.foldl Hall.step h).Sound := by
  induction moves generalizing h with
  | nil => exact hs
  | cons m rest ih => exact ih (hs.step m).1

end Hall

end ControlPlane
