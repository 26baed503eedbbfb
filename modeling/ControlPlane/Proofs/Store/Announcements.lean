import ControlPlane.Proofs.Store.Lives
import Mathlib.Data.List.Induction

/-! # Writes are whole and told of

What a write does is said by one relation (`Outcome`), with a case for each way in which it can go.
A write that fails, or that brings nothing new, leaves the store as it was; every other write
changes the object of its key and is told of by one event (`Announced`).  Along a series of writes
the generation of an object then counts the payloads that it has had since it was created
(`Lived`). -/

namespace ControlPlane.ObjectStore

/-! ### Ways in which a write can go -/

namespace Write

/-- What the caller of a write gets: the object as it is stored then, or an error. -/
def answer (s : ObjectStore) : Write → Except StoreError (Option Object)
  | create stamp o => (s.create stamp o).map fun x => some x.1
  | update o => (s.update o).map fun x => some x.1
  | updateStatus o => (s.updateStatus o).map fun x => some x.1
  | delete k => (s.delete k).map fun _ => none

/-- What a write is told of as. -/
def change : Write → Change
  | create _ _ => .added
  | update _ | updateStatus _ => .modified
  | delete _ => .deleted

/-- The write names what is stored already. -/
def IsIdle (s : ObjectStore) : Write → Prop
  | update o => ∃ stored, s.objects.get? o.key = some stored ∧ stored.spec = o.spec
  | updateStatus o => ∃ stored, s.objects.get? o.key = some stored ∧ stored.status = o.status
  | create _ _ | delete _ => False

/-- The write is an update after which the object of the key has another payload. -/
def edits (s : ObjectStore) (key : ObjectKey) (w : Write) : Bool :=
  match w with
  | update _ =>
    (s.objects.get? key).map Object.spec ≠ ((w.run s).objects.get? key).map Object.spec
  | create _ _ | updateStatus _ | delete _ => false

end Write

section outcome
variable {s t : ObjectStore} {w : Write} {key : ObjectKey} {o o' stored incoming : Object}
  {e : StoreError} {x : Except StoreError (Option Object)}

theorem update_of_current_error (h : s.current incoming = .error e) :
    s.update incoming = .error e := by
  unfold update
  rw [h]
  rfl

theorem update_of_same (h : s.current incoming = .ok stored) (hspec : stored.spec = incoming.spec) :
    s.update incoming = .ok (stored, s) := by
  unfold update
  rw [h]
  exact if_pos hspec

theorem update_of_other (h : s.current incoming = .ok stored)
    (hspec : stored.spec ≠ incoming.spec) : s.update incoming =
      .ok (s.respecified stored incoming.spec,
        s.commit .modified (s.respecified stored incoming.spec)) := by
  unfold update
  rw [h]
  exact if_neg hspec

theorem updateStatus_of_current_error (h : s.current incoming = .error e) :
    s.updateStatus incoming = .error e := by
  unfold updateStatus
  rw [h]
  rfl

theorem updateStatus_of_same (h : s.current incoming = .ok stored)
    (hstatus : stored.status = incoming.status) :
    s.updateStatus incoming = .ok (stored, s) := by
  unfold updateStatus
  rw [h]
  exact if_pos hstatus

theorem updateStatus_of_other (h : s.current incoming = .ok stored)
    (hstatus : stored.status ≠ incoming.status) : s.updateStatus incoming =
      .ok (s.restated stored incoming.status,
        s.commit .modified (s.restated stored incoming.status)) := by
  unfold updateStatus
  rw [h]
  exact if_neg hstatus

/-- The store without the object of a key, with the event that tells of it. -/
def removed (s : ObjectStore) (key : ObjectKey) : ObjectStore :=
  { s with objects := s.objects.erase key, history := s.history.push ⟨.deleted, key⟩ }

theorem get?_of_removed {k : ObjectKey} (h : (s.removed k).objects.get? key = some o) :
    s.objects.get? key = some o := by
  have hne : key ≠ k := by
    rintro rfl
    exact absurd ((Catalog.get?_erase_self _ _).symm.trans h) (by simp)
  exact (Catalog.get?_erase_of_ne _ hne).symm.trans h

theorem respecified_ne {spec : Payload} (h : o.spec ≠ spec) :
    some o ≠ some (s.respecified o spec) := by
  intro heq
  have hsame : o.spec = (s.respecified o spec).spec :=
    congrArg Object.spec (Option.some.inj heq)
  exact h hsame

theorem restated_ne {status : Status} (h : o.status ≠ status) :
    some o ≠ some (s.restated o status) := by
  intro heq
  have hsame : o.status = (s.restated o status).status :=
    congrArg Object.status (Option.some.inj heq)
  exact h hsame

/-- What a write answers and which store it leaves. -/
inductive Outcome (s : ObjectStore) :
    Write → Except StoreError (Option Object) → ObjectStore → Prop
  | failed (w : Write) (e : StoreError) : Outcome s w (.error e) s
  | created (stamp : Stamp) (incoming : Object) : incoming.key.isValid = true →
      s.objects.get? incoming.key = none →
      Outcome s (.create stamp incoming) (.ok (some (s.admitted stamp incoming)))
        (s.commit .added (s.admitted stamp incoming))
  | sameSpec (incoming stored : Object) : s.current incoming = .ok stored →
      stored.spec = incoming.spec → Outcome s (.update incoming) (.ok (some stored)) s
  | respecified (incoming stored : Object) : s.current incoming = .ok stored →
      stored.spec ≠ incoming.spec →
      Outcome s (.update incoming) (.ok (some (s.respecified stored incoming.spec)))
        (s.commit .modified (s.respecified stored incoming.spec))
  | sameStatus (incoming stored : Object) : s.current incoming = .ok stored →
      stored.status = incoming.status → Outcome s (.updateStatus incoming) (.ok (some stored)) s
  | restated (incoming stored : Object) : s.current incoming = .ok stored →
      stored.status ≠ incoming.status →
      Outcome s (.updateStatus incoming) (.ok (some (s.restated stored incoming.status)))
        (s.commit .modified (s.restated stored incoming.status))
  | removed (key : ObjectKey) (stored : Object) : s.objects.get? key = some stored →
      Outcome s (.delete key) (.ok none) (s.removed key)

theorem Write.outcome (s : ObjectStore) (w : Write) : Outcome s w (w.answer s) (w.run s) := by
  cases w with
  | create stamp incoming =>
      cases h : s.create stamp incoming with
      | error e =>
          simp only [answer, run, h]
          exact .failed _ e
      | ok created =>
          obtain ⟨o, t⟩ := created
          obtain ⟨hvalid, hfree, rfl, rfl⟩ := create_ok h
          simp only [answer, run, h]
          exact .created stamp incoming hvalid hfree
  | update incoming =>
      cases hc : s.current incoming with
      | error e =>
          simp only [answer, run, update_of_current_error hc]
          exact .failed _ e
      | ok stored =>
          by_cases hspec : stored.spec = incoming.spec
          · simp only [answer, run, update_of_same hc hspec]
            exact .sameSpec incoming stored hc hspec
          · simp only [answer, run, update_of_other hc hspec]
            exact .respecified incoming stored hc hspec
  | updateStatus incoming =>
      cases hc : s.current incoming with
      | error e =>
          simp only [answer, run, updateStatus_of_current_error hc]
          exact .failed _ e
      | ok stored =>
          by_cases hstatus : stored.status = incoming.status
          · simp only [answer, run, updateStatus_of_same hc hstatus]
            exact .sameStatus incoming stored hc hstatus
          · simp only [answer, run, updateStatus_of_other hc hstatus]
            exact .restated incoming stored hc hstatus
  | delete key =>
      by_cases hthere : s.objects.contains key = true
      · have hdelete : s.delete key = .ok (s.removed key) := if_pos hthere
        obtain ⟨stored, hstored⟩ := Catalog.contains_iff.mp hthere
        simp only [answer, run, hdelete]
        exact .removed key stored hstored
      · have hdelete : s.delete key = .error (.notFound key.display) := if_neg hthere
        simp only [answer, run, hdelete]
        exact .failed _ _

/-! ### Nothing happens, or one object changes and an event tells of it -/

theorem Outcome.unchanged (h : Outcome s w x t) (hidle : (∃ e, x = .error e) ∨ w.IsIdle s) :
    t = s := by
  cases h with
  | failed w e => rfl
  | sameSpec incoming stored hc hspec => rfl
  | sameStatus incoming stored hc hstatus => rfl
  | created stamp incoming hvalid hfree => rcases hidle with ⟨e, he⟩ | hidle <;> contradiction
  | removed key stored hstored => rcases hidle with ⟨e, he⟩ | hidle <;> contradiction
  | respecified incoming stored hc hspec =>
      rcases hidle with ⟨e, he⟩ | ⟨stored', hstored', hsame⟩
      · cases he
      · obtain rfl := Option.some.inj ((current_ok hc).1.symm.trans hstored')
        exact absurd hsame hspec
  | restated incoming stored hc hstatus =>
      rcases hidle with ⟨e, he⟩ | ⟨stored', hstored', hsame⟩
      · cases he
      · obtain rfl := Option.some.inj ((current_ok hc).1.symm.trans hstored')
        exact absurd hsame hstatus

/-- A write changes the object of its key and no other, and one event tells of it. -/
structure Announced (s : ObjectStore) (w : Write) (t : ObjectStore) : Prop where
  others : ∀ k, k ≠ w.key → t.objects.get? k = s.objects.get? k
  changed : t.objects.get? w.key ≠ s.objects.get? w.key
  told : t.history = s.history.push ⟨w.change, w.key⟩

theorem announced_commit (hkey : o.key = w.key) (hnew : s.objects.get? w.key ≠ some o) :
    Announced s w (s.commit w.change o) where
  others k hne := Catalog.get?_insert_of_ne _ _ (hkey ▸ hne)
  changed := by
    rw [← hkey] at hnew ⊢
    rw [commit_get?]
    exact hnew.symm
  told := by rw [← hkey]; rfl

theorem Outcome.announced (hs : Sound s) (h : Outcome s w x t) (hok : ¬∃ e, x = .error e)
    (hidle : ¬w.IsIdle s) : Announced s w t := by
  cases h with
  | failed w e => exact absurd ⟨e, rfl⟩ hok
  | created stamp incoming hvalid hfree =>
      refine announced_commit (w := .create stamp incoming) rfl ?_
      rw [Write.key, hfree]
      simp
  | sameSpec incoming stored hc hspec => exact absurd ⟨stored, (current_ok hc).1, hspec⟩ hidle
  | respecified incoming stored hc hspec =>
      have hget := (current_ok hc).1
      have hkeyed : stored.key = incoming.key := hs.keyed _ _ hget
      refine announced_commit (w := .update incoming) hkeyed ?_
      rw [Write.key, hget]
      exact respecified_ne hspec
  | sameStatus incoming stored hc hstatus =>
      exact absurd ⟨stored, (current_ok hc).1, hstatus⟩ hidle
  | restated incoming stored hc hstatus =>
      have hget := (current_ok hc).1
      have hkeyed : stored.key = incoming.key := hs.keyed _ _ hget
      refine announced_commit (w := .updateStatus incoming) hkeyed ?_
      rw [Write.key, hget]
      exact restated_ne hstatus
  | removed key stored hstored =>
      exact {
        others := fun k hne => Catalog.get?_erase_of_ne _ hne
        changed := by
          rw [Write.key, hstored]
          exact fun heq => absurd ((Catalog.get?_erase_self _ _).symm.trans heq) (by simp)
        told := rfl }

/-! ### What becomes of the object of a key -/

/-- A payload that is written concerns one object, and nothing of it but the payload, the generation
and the token. -/
theorem Outcome.of_update (hs : Sound s) (h : Outcome s (.update incoming) x t)
    (hget : s.objects.get? key = some o) : t.objects.get? key = some o ∨
      o.spec ≠ incoming.spec ∧ t.objects.get? key = some (s.respecified o incoming.spec) := by
  cases h with
  | failed w e => exact Or.inl hget
  | sameSpec incoming stored hc hspec => exact Or.inl hget
  | respecified incoming stored hc hspec =>
      have hstored := (current_ok hc).1
      have hkeyed : stored.key = incoming.key := hs.keyed _ _ hstored
      have hput : (s.respecified stored incoming.spec).key = incoming.key := hkeyed
      by_cases hkey : key = incoming.key
      · rw [hkey] at hget ⊢
        obtain rfl := Option.some.inj (hstored.symm.trans hget)
        exact Or.inr ⟨hspec, hput ▸ commit_get? .modified⟩
      · exact Or.inl ((Catalog.get?_insert_of_ne _ _ (hput ▸ hkey)).trans hget)

/-- A status that is written concerns one object, and nothing of it but the status and the token. -/
theorem Outcome.of_updateStatus (hs : Sound s) (h : Outcome s (.updateStatus incoming) x t)
    (hget : s.objects.get? key = some o) : t.objects.get? key = some o ∨
      t.objects.get? key = some (s.restated o incoming.status) := by
  cases h with
  | failed w e => exact Or.inl hget
  | sameStatus incoming stored hc hstatus => exact Or.inl hget
  | restated incoming stored hc hstatus =>
      have hstored := (current_ok hc).1
      have hkeyed : stored.key = incoming.key := hs.keyed _ _ hstored
      have hput : (s.restated stored incoming.status).key = incoming.key := hkeyed
      by_cases hkey : key = incoming.key
      · rw [hkey] at hget ⊢
        obtain rfl := Option.some.inj (hstored.symm.trans hget)
        exact Or.inr (hput ▸ commit_get? .modified)
      · exact Or.inl ((Catalog.get?_insert_of_ne _ _ (hput ▸ hkey)).trans hget)

/-- No object is created over another one. -/
theorem Outcome.of_create {stamp : Stamp} (h : Outcome s (.create stamp incoming) x t)
    (hget : s.objects.get? key = some o) : t.objects.get? key = some o := by
  cases h with
  | failed w e => exact hget
  | created stamp incoming hvalid hfree =>
      have hne : key ≠ incoming.key := by
        rintro rfl
        rw [hfree] at hget
        cases hget
      exact (Catalog.get?_insert_of_ne _ _ hne).trans hget

theorem Outcome.of_delete {k : ObjectKey} (h : Outcome s (.delete k) x t)
    (hget : t.objects.get? key = some o) : s.objects.get? key = some o := by
  cases h with
  | failed w e => exact hget
  | removed k stored hstored => exact get?_of_removed hget

/-- An object that is still the one it was, after so many changes of its payload. -/
structure Ages (o : Object) (edits : ℕ) (o' : Object) : Prop where
  uid : o'.metadata.uid = o.metadata.uid
  creationTimestamp : o'.metadata.creationTimestamp = o.metadata.creationTimestamp
  generation : o'.metadata.generation = o.metadata.generation + edits

theorem Ages.refl (o : Object) : Ages o 0 o := ⟨rfl, rfl, (Int.add_zero _).symm⟩

/-- What a write leaves of the object of a key is the object, one payload older if the write gave it
another. -/
theorem Write.run_ages (hs : Sound s) (hget : s.objects.get? key = some o)
    (hget' : (w.run s).objects.get? key = some o') :
    Ages o (w.edits s key).toNat o' := by
  have hout := w.outcome s
  cases w with
  | create stamp incoming =>
      obtain rfl := Option.some.inj ((hout.of_create hget).symm.trans hget')
      exact .refl o
  | update incoming =>
      have hedits : (Write.update incoming).edits s key = decide (o.spec ≠ o'.spec) := by
        simp only [edits, hget, hget', Option.map_some, ne_eq, Option.some.injEq]
      rw [hedits]
      rcases hout.of_update hs hget with hsame | ⟨hspec, hnew⟩
      · obtain rfl := Option.some.inj (hsame.symm.trans hget')
        rw [decide_eq_false fun h => h rfl]
        exact .refl o
      · obtain rfl := Option.some.inj (hnew.symm.trans hget')
        have hother : o.spec ≠ (s.respecified o incoming.spec).spec := hspec
        rw [decide_eq_true hother]
        exact ⟨rfl, rfl, rfl⟩
  | updateStatus incoming =>
      rcases hout.of_updateStatus hs hget with hsame | hnew
      · obtain rfl := Option.some.inj (hsame.symm.trans hget')
        exact .refl o
      · obtain rfl := Option.some.inj (hnew.symm.trans hget')
        exact ⟨rfl, rfl, (Int.add_zero _).symm⟩
  | delete k =>
      obtain rfl := Option.some.inj (hget.symm.trans (hout.of_delete hget'))
      exact .refl o

/-- Only its creation brings an object to a key that has none. -/
theorem Write.created_of_none (hs : Sound s) (hget : s.objects.get? key = none)
    (hget' : (w.run s).objects.get? key = some o) :
    ∃ stamp incoming, w = .create stamp incoming ∧ incoming.key = key ∧
      o = s.admitted stamp incoming := by
  cases Write.run_came hs hget' with
  | created stamp incoming hw hkey => exact ⟨stamp, incoming, hw, hkey, rfl⟩
  | kept o hold => cases hget.symm.trans hold
  | respecified o incoming hw hold => cases hget.symm.trans hold
  | restated o incoming hw hold => cases hget.symm.trans hold

end outcome

/-! ### Series of writes -/

/-- The store that writes lead to from an empty one. -/
def after (writes : List Write) : ObjectStore := writes.foldl Write.run empty

/-- How many of the writes give the object of the key another payload. -/
def edits (s : ObjectStore) (key : ObjectKey) : List Write → ℕ
  | [] => 0
  | w :: rest => (w.edits s key).toNat + edits (w.run s) key rest

/-- An object was created after some writes and has had its key during the later ones. -/
structure Lived (before : List Write) (stamp : Stamp) (incoming : Object) (later : List Write)
    (o : Object) : Prop where
  free : (after before).objects.get? incoming.key = none
  lasting : ∀ early, early <+: later → ∃ o',
    (after (before ++ .create stamp incoming :: early)).objects.get? incoming.key = some o'
  uid : o.metadata.uid = stamp.uid
  creationTimestamp : o.metadata.creationTimestamp = some stamp.time
  generation : o.metadata.generation =
    1 + edits (after (before ++ [.create stamp incoming])) incoming.key later

section series
variable {before later writes : List Write} {w : Write} {stamp : Stamp} {incoming o o' : Object}
  {key : ObjectKey}

theorem after_sound (writes : List Write) : Sound (after writes) :=
  Reachable.sound ⟨writes, rfl⟩

theorem after_concat (writes : List Write) (w : Write) :
    after (writes ++ [w]) = w.run (after writes) := by
  simp [after]

theorem edits_concat (s : ObjectStore) (key : ObjectKey) (writes : List Write) (w : Write) :
    edits s key (writes ++ [w]) =
      edits s key writes + (w.edits (writes.foldl Write.run s) key).toNat := by
  induction writes generalizing s with
  | nil => simp [edits]
  | cons first rest ih =>
      rw [List.cons_append, edits, edits, ih, List.foldl_cons]
      omega

/-- An object has lived through one write more. -/
theorem Lived.next (h : Lived before stamp incoming later o)
    (hget : (after (before ++ .create stamp incoming :: later)).objects.get? incoming.key = some o)
    (hget' : (w.run (after (before ++ .create stamp incoming :: later))).objects.get?
      incoming.key = some o') : Lived before stamp incoming (later ++ [w]) o' := by
  have hages := Write.run_ages (after_sound _) hget hget'
  have hrest : later.foldl Write.run (after (before ++ [.create stamp incoming])) =
      after (before ++ .create stamp incoming :: later) := by
    simp [after]
  exact {
    free := h.free
    lasting := fun early hearly => by
      rcases List.prefix_concat_iff.mp hearly with rfl | hearly
      · refine ⟨o', ?_⟩
        rw [← List.cons_append, ← List.append_assoc, after_concat]
        exact hget'
      · exact h.lasting early hearly
    uid := hages.uid.trans h.uid
    creationTimestamp := hages.creationTimestamp.trans h.creationTimestamp
    generation := by
      rw [hages.generation, h.generation, edits_concat, hrest]
      omega }

/-- Every object that is stored was created and has lived since. -/
theorem exists_lived (h : (after writes).objects.get? key = some o) :
    ∃ before stamp incoming later, writes = before ++ .create stamp incoming :: later ∧
      incoming.key = key ∧ Lived before stamp incoming later o := by
  induction writes using List.reverseRecOn generalizing o with
  | nil => cases h
  | append_singleton rest w ih =>
      rw [after_concat] at h
      cases hget : (after rest).objects.get? key with
      | none =>
          obtain ⟨stamp, incoming, rfl, rfl, rfl⟩ := Write.created_of_none (after_sound _) hget h
          refine ⟨rest, stamp, incoming, [], rfl, rfl, ?_⟩
          exact {
            free := hget
            lasting := fun early hearly => by
              rw [List.prefix_nil.mp hearly, after_concat]
              exact ⟨_, h⟩
            uid := rfl
            creationTimestamp := rfl
            generation := rfl }
      | some o₀ =>
          obtain ⟨before, stamp, incoming, later, rfl, rfl, hlived⟩ := ih hget
          exact ⟨before, stamp, incoming, later ++ [w], by simp, rfl, hlived.next hget h⟩

/-- Whatever was written before, a write that fails or brings nothing new leaves all as it was, and
every other one changes the object of its key and is told of once.  Stored objects have valid keys
and generations that count their payloads; an update leaves identity, time of creation and status
alone, a new status leaves all but itself and the token alone, and an object is created without
regard to what its caller says of its record. -/
theorem accounts_of_writes (writes : List Write) :
    (∀ w : Write, (∃ e, w.answer (after writes) = .error e) ∨ w.IsIdle (after writes) →
      w.run (after writes) = after writes) ∧
    (∀ w : Write, (¬∃ e, w.answer (after writes) = .error e) → ¬w.IsIdle (after writes) →
      Announced (after writes) w (w.run (after writes))) ∧
    (∀ key o, (after writes).objects.get? key = some o → key.isValid = true ∧
      ∃ before stamp incoming later, writes = before ++ .create stamp incoming :: later ∧
        incoming.key = key ∧ Lived before stamp incoming later o) ∧
    (∀ incoming key o, (after writes).objects.get? key = some o →
      ∃ o', ((Write.update incoming).run (after writes)).objects.get? key = some o' ∧
        o'.metadata.uid = o.metadata.uid ∧
        o'.metadata.creationTimestamp = o.metadata.creationTimestamp ∧ o'.status = o.status) ∧
    (∀ incoming key o, (after writes).objects.get? key = some o →
      ∃ o', ((Write.updateStatus incoming).run (after writes)).objects.get? key = some o' ∧
        o'.metadata.uid = o.metadata.uid ∧
        o'.metadata.creationTimestamp = o.metadata.creationTimestamp ∧ o'.spec = o.spec ∧
        o'.metadata.generation = o.metadata.generation) ∧
    ∀ stamp (o : Object) uid version generation time status,
      (after writes).create stamp { o with
        metadata := ⟨o.metadata.space, o.metadata.name, uid, version, generation, time⟩
        status := status } = (after writes).create stamp o := by
  have hs := after_sound writes
  refine ⟨fun w hidle => ?_, fun w hok hidle => ?_, fun key o h => ?_, fun incoming key o h => ?_,
    fun incoming key o h => ?_, fun stamp o uid version generation time status => rfl⟩
  · exact (w.outcome _).unchanged hidle
  · exact (w.outcome _).announced hs hok hidle
  · exact ⟨hs.valid key o h, exists_lived h⟩
  · rcases (Write.outcome _ (.update incoming)).of_update hs h with hsame | ⟨-, hnew⟩
    · exact ⟨o, hsame, rfl, rfl, rfl⟩
    · exact ⟨_, hnew, rfl, rfl, rfl⟩
  · rcases (Write.outcome _ (.updateStatus incoming)).of_updateStatus hs h with hsame | hnew
    · exact ⟨o, hsame, rfl, rfl, rfl, rfl⟩
    · exact ⟨_, hnew, rfl, rfl, rfl, rfl⟩

end series

/-! ### An object that is edited -/

/-- A listener with a payload of one byte. -/
def smallListener (byte : UInt8) : Object :=
  .declare .listener "default" "foo"
    ⟨"type.googleapis.com/envoy.config.listener.v3.Listener", [byte]⟩

/-- An object is created, its payload is replaced, and then replaced by an equal one. -/
def editing : List Write :=
  [.create ⟨"first", ⟨0, 0⟩⟩ (smallListener 1), .update (smallListener 2),
    .update (smallListener 2)]

theorem accounts_after_editing :
    (Write.update (smallListener 2)).run (after editing) = after editing ∧
      Announced (after editing) (.delete (smallListener 1).key)
        ((Write.delete (smallListener 1).key).run (after editing)) ∧
      ∃ o, (after editing).objects.get? (smallListener 1).key = some o ∧
        o.metadata.generation = 2 ∧
        ∃ before stamp incoming later, editing = before ++ .create stamp incoming :: later ∧
          incoming.key = (smallListener 1).key ∧ Lived before stamp incoming later o := by
  obtain ⟨hidle, hannounced, hlived, -⟩ := accounts_of_writes editing
  obtain ⟨o, ho, hgeneration, hspec⟩ : ∃ o,
      (after editing).objects.get? (smallListener 1).key = some o ∧
        o.metadata.generation = 2 ∧ o.spec = (smallListener 2).spec :=
    ⟨_, rfl, by decide +kernel, by decide +kernel⟩
  have hdelete : (Write.delete (smallListener 1).key).answer (after editing) = .ok none := rfl
  refine ⟨hidle _ (Or.inr ⟨o, ho, hspec⟩), hannounced _ ?_ id, o, ho, hgeneration,
    (hlived _ o ho).2⟩
  rw [hdelete]
  simp

end ControlPlane.ObjectStore
