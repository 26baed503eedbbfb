import ControlPlane.Manifest.Source
import ControlPlane.Proofs.Store.Objects

/-! # What a manifest directory owns

A source syncs a directory again and again while other clients write to the object store
(`Episode`).  What a sync does to the store is said once for all the objects it applies
(`Applying`), and what the source knows of the earlier syncs is which keys are owed to it: those
that a sync has applied and no clean one has dropped since (`Owed`).  So each sync brings the
store in line with the directory and touches nothing that is not owed (`sync_aligns`). -/

namespace ControlPlane.ObjectStore

/-! ### Applying one object -/

/-- The object under a key has this payload. -/
def Specifies (s : ObjectStore) (k : ObjectKey) (spec : Payload) : Prop :=
  ∃ o, s.objects.get? k = some o ∧ o.spec = spec

/-- Whatever objects there were are there still, under the identities they had. -/
def Keeps (s t : ObjectStore) : Prop :=
  ∀ k o, s.objects.get? k = some o →
    ∃ o', t.objects.get? k = some o' ∧ o'.metadata.uid = o.metadata.uid

theorem Keeps.refl (s : ObjectStore) : s.Keeps s := fun _ o ho => ⟨o, ho, rfl⟩

theorem Keeps.trans {s t u : ObjectStore} (h : s.Keeps t) (h' : t.Keeps u) : s.Keeps u := by
  intro k o ho
  obtain ⟨o', ho', huid⟩ := h k o ho
  obtain ⟨o'', ho'', huid'⟩ := h' k o' ho'
  exact ⟨o'', ho'', huid'.trans huid⟩

/-- The store after an object was applied. -/
structure Applied (s : ObjectStore) (o : Object) (t : ObjectStore) : Prop where
  sound : Sound t
  specifies : t.Specifies o.key o.spec
  others : ∀ k, k ≠ o.key → t.objects.get? k = s.objects.get? k
  keeps : s.Keeps t
  /-- What has the payload already is left alone. -/
  unchanged : s.Specifies o.key o.spec → t = s

section apply
variable {s : ObjectStore} {o : Object}

theorem apply_of_invalid (hinvalid : o.key.isValid = false) (stamp : Stamp) :
    s.apply stamp o = .error (.invalid o.key.invalidText) := by
  have hcreate : s.create stamp o = .error (.invalid o.key.invalidText) := by
    unfold create
    rw [if_pos (by simp [hinvalid])]
  unfold apply
  rw [hcreate]

/-- An object whose key is free is created. -/
theorem apply_of_free (hs : Sound s) (hvalid : o.key.isValid = true)
    (hfree : s.objects.get? o.key = none) (stamp : Stamp) :
    ∃ p t, s.apply stamp o = .ok (p, t) ∧ s.Applied o t := by
  have hcreate : s.create stamp o =
      .ok (s.admitted stamp o, s.commit .added (s.admitted stamp o)) := by
    unfold create
    rw [if_neg (by simp [hvalid]), if_neg (by
      rw [Catalog.contains_eq_false_iff.mpr hfree]
      exact Bool.false_ne_true)]
  have happly : s.apply stamp o =
      .ok (s.admitted stamp o, s.commit .added (s.admitted stamp o)) := by
    unfold apply
    rw [hcreate]
  have htouched := (create_touched hcreate).1
  refine ⟨_, _, happly, ?_⟩
  exact {
    sound := htouched.sound hs
    specifies := ⟨s.admitted stamp o, commit_get? .added, rfl⟩
    others := htouched.others
    keeps := by
      intro k p hp
      have hne : k ≠ o.key := by
        rintro rfl
        rw [hfree] at hp
        cases hp
      exact ⟨p, (htouched.others k hne).trans hp, rfl⟩
    unchanged := by
      rintro ⟨p, hp, -⟩
      rw [hfree] at hp
      cases hp }

/-- The payload of an object that exists is replaced, whatever its state. -/
theorem apply_of_taken (hs : Sound s) (hvalid : o.key.isValid = true) {p : Object}
    (hp : s.objects.get? o.key = some p) (stamp : Stamp) :
    ∃ p t, s.apply stamp o = .ok (p, t) ∧ s.Applied o t := by
  let incoming : Object := { o with metadata := { o.metadata with resourceVersion := "" } }
  have hcreate : s.create stamp o = .error (.alreadyExists o.key.display) := by
    unfold create
    rw [if_neg (by simp [hvalid]), if_pos (Catalog.contains_iff.mpr ⟨p, hp⟩)]
  have happly : s.apply stamp o = s.update incoming := by
    unfold apply
    rw [hcreate]
  have hcurrent : s.current incoming = .ok p := by
    have hkey : incoming.key = o.key := rfl
    unfold current
    rw [hkey, hp]
    exact if_neg fun h => h.1 rfl
  have hkeyed : p.key = o.key := hs.keyed _ _ hp
  rw [happly]
  unfold update
  rw [hcurrent]
  dsimp only [bind, Except.bind, pure, Except.pure]
  by_cases hspec : p.spec = o.spec
  · rw [if_pos hspec]
    refine ⟨p, s, rfl, ?_⟩
    exact {
      sound := hs
      specifies := ⟨p, hp, hspec⟩
      others := fun _ _ => rfl
      keeps := .refl s
      unchanged := fun _ => rfl }
  · rw [if_neg hspec]
    have htouched : Touched s (s.commit .modified (s.respecified p o.spec)) p.key :=
      commit_touched .modified (o := s.respecified p o.spec) rfl (Or.inr ⟨p, hkeyed.symm ▸ hp⟩)
    rw [hkeyed] at htouched
    have hget : (s.commit .modified (s.respecified p o.spec)).objects.get? o.key =
        some (s.respecified p o.spec) :=
      hkeyed ▸ commit_get? (o := s.respecified p o.spec) .modified
    refine ⟨s.respecified p o.spec, s.commit .modified (s.respecified p o.spec), rfl, ?_⟩
    exact {
      sound := htouched.sound hs
      specifies := ⟨_, hget, rfl⟩
      others := htouched.others
      keeps := by
        intro k q hq
        by_cases hk : k = o.key
        · subst hk
          obtain rfl : p = q := Option.some.inj (hp.symm.trans hq)
          exact ⟨_, hget, rfl⟩
        · exact ⟨q, (htouched.others k hk).trans hq, rfl⟩
      unchanged := by
        rintro ⟨q, hq, hsame⟩
        obtain rfl : p = q := Option.some.inj (hp.symm.trans hq)
        exact absurd hsame hspec }

theorem apply_of_valid (hs : Sound s) (hvalid : o.key.isValid = true) (stamp : Stamp) :
    ∃ p t, s.apply stamp o = .ok (p, t) ∧ s.Applied o t := by
  cases hget : s.objects.get? o.key with
  | none => exact apply_of_free hs hvalid hget stamp
  | some p => exact apply_of_taken hs hvalid hget stamp

end apply

end ControlPlane.ObjectStore

namespace ControlPlane.Manifest

open ObjectStore (Sound)

/-! ### What a directory describes -/

/-- The objects of the files that can be loaded, in the order of the file names and within a file
in that of its documents. -/
def descriptions (directory : Directory) : List Object :=
  (files directory).flatMap fun content => (ofBytes content).toOption.getD []

/-- How many files cannot be loaded. -/
def failures (directory : Directory) : ℕ :=
  (files directory).countP fun content => (ofBytes content).toOption.isNone

/-- Every file can be loaded. -/
def IsClean (directory : Directory) : Prop :=
  ∀ content ∈ files directory, ∃ objects, ofBytes content = .ok objects

theorem isClean_iff {directory : Directory} : IsClean directory ↔ failures directory = 0 := by
  unfold IsClean failures
  rw [List.countP_eq_zero]
  constructor
  · intro h content hcontent
    obtain ⟨objects, hobjects⟩ := h content hcontent
    rw [hobjects]
    exact Bool.false_ne_true
  · intro h content hcontent
    cases hobjects : ofBytes content with
    | ok objects => exact ⟨objects, rfl⟩
    | error e =>
        have hloaded := h content hcontent
        rw [hobjects] at hloaded
        exact absurd rfl hloaded

/-- The last of some objects that has a key. -/
def lastOf? (objects : List Object) (k : ObjectKey) : Option Object :=
  (objects.filter fun o => o.key = k).getLast?

/-- An object with a valid key is among them. -/
def Describes (objects : List Object) (k : ObjectKey) : Prop :=
  k.isValid = true ∧ ∃ o ∈ objects, o.key = k

theorem lastOf?_append (os os' : List Object) (k : ObjectKey) :
    lastOf? (os ++ os') k = (lastOf? os' k).or (lastOf? os k) := by
  unfold lastOf?
  rw [List.filter_append, List.getLast?_append]

theorem lastOf?_eq_none_iff {os : List Object} {k : ObjectKey} :
    lastOf? os k = none ↔ ∀ o ∈ os, o.key ≠ k := by
  unfold lastOf?
  rw [List.getLast?_eq_none_iff, List.filter_eq_nil_iff]
  simp only [decide_eq_true_eq]

theorem lastOf?_mem {os : List Object} {k : ObjectKey} {o : Object} (h : lastOf? os k = some o) :
    o ∈ os ∧ o.key = k := by
  obtain ⟨hmem, hkey⟩ := List.mem_filter.mp (List.mem_of_getLast? h)
  exact ⟨hmem, of_decide_eq_true hkey⟩

/-- If no key is described twice, each description is the last one of its key. -/
theorem lastOf?_of_nodup {os : List Object} (hnodup : (os.map Object.key).Nodup) {o : Object}
    (ho : o ∈ os) : lastOf? os o.key = some o := by
  cases hlast : lastOf? os o.key with
  | none => exact absurd rfl (lastOf?_eq_none_iff.mp hlast o ho)
  | some p =>
      obtain ⟨hp, hkey⟩ := lastOf?_mem hlast
      rw [List.inj_on_of_nodup_map hnodup hp ho hkey]

namespace Source

/-! ### Applying what is described -/

/-- What has become of a sync after it has applied these objects and passed over this many files
that cannot be loaded. -/
structure Applying (os : List Object) (failed : ℕ) (p q : Progress) : Prop where
  sound : Sound q.objects
  /-- Under each valid key stands the payload described last. -/
  specifies : ∀ k o, k.isValid = true → lastOf? os k = some o → q.objects.Specifies k o.spec
  others : ∀ k, ¬ Describes os k → q.objects.objects.get? k = p.objects.objects.get? k
  keeps : p.objects.Keeps q.objects
  seen : ∀ k, q.seen.contains k = true ↔ p.seen.contains k = true ∨ Describes os k
  /-- What has been applied before changes nothing. -/
  unchanged : (∀ o ∈ os, o.key.isValid = true → p.objects.Specifies o.key o.spec) →
    q.objects = p.objects
  applied : q.report.applied = p.report.applied + os.countP fun o => o.key.isValid
  deleted : q.report.deleted = p.report.deleted
  failed : q.report.failedFiles = p.report.failedFiles + failed

section applying
variable {os os' : List Object} {failed failed' : ℕ} {p q r : Progress}

theorem describes_append {k : ObjectKey} :
    Describes (os ++ os') k ↔ Describes os k ∨ Describes os' k := by
  unfold Describes
  simp only [List.mem_append, or_and_right, exists_or, and_or_left]

theorem not_describes_nil (k : ObjectKey) : ¬ Describes [] k := by
  rintro ⟨-, o, ho, -⟩
  cases ho

/-- A sync that has applied nothing. -/
theorem Applying.nothing (hp : Sound p.objects) (hobjects : q.objects = p.objects)
    (hseen : q.seen = p.seen) (happlied : q.report.applied = p.report.applied)
    (hdeleted : q.report.deleted = p.report.deleted)
    (hfailed : q.report.failedFiles = p.report.failedFiles + failed) : Applying [] failed p q where
  sound := hobjects ▸ hp
  specifies k o _ h := by cases h
  others k _ := by rw [hobjects]
  keeps := hobjects ▸ .refl _
  seen k := by
    rw [hseen]
    exact ⟨Or.inl, fun h => h.resolve_right (not_describes_nil k)⟩
  unchanged _ := hobjects
  applied := happlied
  deleted := hdeleted
  failed := hfailed

theorem Applying.trans (h : Applying os failed p q) (h' : Applying os' failed' q r) :
    Applying (os ++ os') (failed + failed') p r where
  sound := h'.sound
  specifies k o hvalid hlast := by
    rw [lastOf?_append] at hlast
    cases hlate : lastOf? os' k with
    | some o' =>
        rw [hlate, Option.some_or] at hlast
        exact Option.some.inj hlast ▸ h'.specifies k o' hvalid hlate
    | none =>
        rw [hlate, Option.none_or] at hlast
        obtain ⟨stored, hstored, hspec⟩ := h.specifies k o hvalid hlast
        refine ⟨stored, ?_, hspec⟩
        rw [h'.others k, hstored]
        rintro ⟨-, o', ho', hkey⟩
        exact lastOf?_eq_none_iff.mp hlate o' ho' hkey
  others k hk := by
    rw [describes_append, not_or] at hk
    rw [h'.others k hk.2, h.others k hk.1]
  keeps := h.keeps.trans h'.keeps
  seen k := by rw [h'.seen, h.seen, describes_append, or_assoc]
  unchanged hall := by
    have hfirst : q.objects = p.objects :=
      h.unchanged fun o ho => hall o (List.mem_append_left _ ho)
    have hsecond : r.objects = q.objects := h'.unchanged fun o ho =>
      hfirst ▸ hall o (List.mem_append_right _ ho)
    exact hsecond.trans hfirst
  applied := by rw [h'.applied, h.applied, List.countP_append, Nat.add_assoc]
  deleted := h'.deleted.trans h.deleted
  failed := by rw [h'.failed, h.failed, Nat.add_assoc]

end applying

section files
variable (stamp : ℕ → Stamp)

theorem applyObject_applying {p : Progress} (hp : Sound p.objects) (o : Object) :
    Applying [o] 0 p (applyObject stamp p o) := by
  have hdescribes : ∀ k, Describes [o] k ↔ o.key.isValid = true ∧ k = o.key := by
    intro k
    constructor
    · rintro ⟨hvalid, o', ho', rfl⟩
      obtain rfl := List.mem_singleton.mp ho'
      exact ⟨hvalid, rfl⟩
    · rintro ⟨hvalid, rfl⟩
      exact ⟨hvalid, o, List.mem_singleton_self o, rfl⟩
  have hlast : ∀ k o', lastOf? [o] k = some o' → o' = o ∧ k = o.key := by
    intro k o' h
    obtain ⟨hmem, hkey⟩ := lastOf?_mem h
    obtain rfl := List.mem_singleton.mp hmem
    exact ⟨rfl, hkey.symm⟩
  cases hvalid : o.key.isValid with
  | true =>
      obtain ⟨created, t, happly, happlied⟩ :=
        ObjectStore.apply_of_valid hp hvalid (stamp p.stamps)
      unfold applyObject
      rw [happly]
      exact {
        sound := happlied.sound
        specifies := by
          intro k o' _ h
          obtain ⟨rfl, rfl⟩ := hlast k o' h
          exact happlied.specifies
        others := fun k hk => happlied.others k fun h => hk ((hdescribes k).mpr ⟨hvalid, h⟩)
        keeps := happlied.keeps
        seen := by
          intro k
          have hcontains : (p.seen.insert o.key ()).contains k = true ↔
              k = o.key ∨ p.seen.contains k = true := by
            unfold Catalog.contains
            rw [Catalog.get?_insert]
            split
            · rename_i hk
              simp [hk]
            · rename_i hk
              simp [hk]
          rw [hdescribes, hcontains]
          tauto
        unchanged := fun h => happlied.unchanged (h o (List.mem_singleton_self o) hvalid)
        applied := by simp [hvalid]
        deleted := rfl
        failed := rfl }
  | false =>
      have happly := ObjectStore.apply_of_invalid (s := p.objects) hvalid (stamp p.stamps)
      unfold applyObject
      rw [happly]
      exact {
        sound := hp
        specifies := by
          intro k o' hk h
          obtain ⟨rfl, rfl⟩ := hlast k o' h
          rw [hvalid] at hk
          cases hk
        others := fun _ _ => rfl
        keeps := .refl _
        seen := by
          intro k
          rw [hdescribes, hvalid]
          simp
        unchanged := fun _ => rfl
        applied := by simp [hvalid]
        deleted := rfl
        failed := rfl }

theorem applyObjects_applying (os : List Object) : ∀ {p : Progress}, Sound p.objects →
    Applying os 0 p (os.foldl (applyObject stamp) p) := by
  induction os with
  | nil => exact fun hp => .nothing hp rfl rfl rfl rfl rfl
  | cons o rest ih =>
      intro p hp
      have hfirst := applyObject_applying stamp hp o
      exact hfirst.trans (ih hfirst.sound)

theorem applyFile_applying {p : Progress} (hp : Sound p.objects) (content : Bytes) :
    Applying ((ofBytes content).toOption.getD [])
      (if (ofBytes content).toOption.isNone then 1 else 0) p (applyFile stamp p content) := by
  unfold applyFile
  cases ofBytes content with
  | ok objects => exact applyObjects_applying stamp objects hp
  | error e => exact .nothing hp rfl rfl rfl rfl rfl

theorem applyFiles_applying (contents : List Bytes) : ∀ {p : Progress}, Sound p.objects →
    Applying (contents.flatMap fun content => (ofBytes content).toOption.getD [])
      (contents.countP fun content => (ofBytes content).toOption.isNone) p
      (contents.foldl (applyFile stamp) p) := by
  induction contents with
  | nil => exact fun hp => .nothing hp rfl rfl rfl rfl rfl
  | cons content rest ih =>
      intro p hp
      have hfirst := applyFile_applying stamp hp content
      have hboth := hfirst.trans (ih hfirst.sound)
      rw [List.flatMap_cons, List.countP_cons, Nat.add_comm]
      exact hboth

end files

/-! ### Deleting what is gone -/

section delete
variable {p : Progress}

theorem deleteObject_get? (hp : Sound p.objects) (key k : ObjectKey) :
    (deleteObject p key).objects.objects.get? k =
        (if k = key then none else p.objects.objects.get? k) ∧
      Sound (deleteObject p key).objects := by
  unfold deleteObject
  cases hdelete : p.objects.delete key with
  | ok t =>
      obtain ⟨htouched, hgone⟩ := ObjectStore.delete_touched hdelete
      refine ⟨?_, htouched.sound hp⟩
      dsimp only
      split
      · rename_i hk
        rw [hk]
        exact hgone
      · rename_i hk
        exact htouched.others k hk
  | error e =>
      refine ⟨?_, hp⟩
      dsimp only
      split
      · rename_i hk
        unfold ObjectStore.delete at hdelete
        split at hdelete
        · cases hdelete
        · rename_i habsent
          rw [hk]
          exact Catalog.contains_eq_false_iff.mp (Bool.eq_false_iff.mpr habsent)
      · rfl

theorem deleteObjects_get? (keys : List ObjectKey) : ∀ {p : Progress}, Sound p.objects →
    (∀ k, (keys.foldl deleteObject p).objects.objects.get? k =
        if k ∈ keys then none else p.objects.objects.get? k) ∧
      Sound (keys.foldl deleteObject p).objects := by
  induction keys with
  | nil => exact fun hp => ⟨fun k => by simp, hp⟩
  | cons key rest ih =>
      intro p hp
      obtain ⟨-, hsound⟩ := deleteObject_get? hp key key
      obtain ⟨hrest, hsound'⟩ := ih hsound
      refine ⟨fun k => ?_, hsound'⟩
      rw [List.foldl_cons, hrest, (deleteObject_get? hp key k).1]
      by_cases hk : k = key
      · simp [hk]
      · simp [hk]

theorem deleteObjects_seen (keys : List ObjectKey) :
    ∀ p : Progress, (keys.foldl deleteObject p).seen = p.seen := by
  induction keys with
  | nil => exact fun _ => rfl
  | cons key rest ih =>
      intro p
      rw [List.foldl_cons, ih]
      unfold deleteObject
      split <;> rfl

theorem mem_abandoned {s : Source} {seen : Catalog ObjectKey Unit} {k : ObjectKey} :
    k ∈ s.abandoned seen ↔ s.owned.contains k = true ∧ seen.contains k = false := by
  unfold abandoned
  rw [List.mem_filter, Catalog.mem_keys_iff, Catalog.contains_iff]
  simp

/-- The keys of a catalog, added to another one. -/
theorem contains_insertKeys (keys : List ObjectKey) (k : ObjectKey) :
    ∀ owned : Catalog ObjectKey Unit,
      (keys.foldl (fun owned k => owned.insert k ()) owned).contains k = true ↔
        owned.contains k = true ∨ k ∈ keys := by
  induction keys with
  | nil => simp
  | cons key rest ih =>
      intro owned
      have hinsert : (owned.insert key ()).contains k = true ↔
          k = key ∨ owned.contains k = true := by
        unfold Catalog.contains
        rw [Catalog.get?_insert]
        split
        · rename_i hk
          simp [hk]
        · rename_i hk
          simp [hk]
      rw [List.foldl_cons, ih, hinsert, List.mem_cons]
      tauto

end delete

/-! ### A sync -/

/-- A sync before anything is applied. -/
def Progress.start (objects : ObjectStore) : Progress := ⟨objects, ⟨0, 0, 0⟩, ∅, 0⟩

/-- What a sync of a directory comes to. -/
theorem sync_cases {objects : ObjectStore} (hobjects : Sound objects) (s : Source)
    (d : Directory) (stamp : ℕ → Stamp) :
    ∃ p, Applying (descriptions d) (failures d) (.start objects) p ∧
      ((IsClean d ∧ s.sync (some d) stamp objects =
          .ok (⟨p.seen⟩, (s.abandoned p.seen).foldl deleteObject p)) ∨
        (¬ IsClean d ∧ s.sync (some d) stamp objects =
          .ok (⟨p.seen.keys.foldl (fun owned k => owned.insert k ()) s.owned⟩, p))) := by
  have happlying := applyFiles_applying stamp (files d) (p := .start objects) hobjects
  refine ⟨_, happlying, ?_⟩
  have hfailed := happlying.failed
  unfold sync
  dsimp only
  by_cases hclean : IsClean d
  · refine Or.inl ⟨hclean, if_pos ?_⟩
    have hnone := isClean_iff.mp hclean
    unfold failures at hnone
    rw [hnone] at hfailed
    exact hfailed
  · refine Or.inr ⟨hclean, if_neg ?_⟩
    have hsome : failures d ≠ 0 := fun h => hclean (isClean_iff.mpr h)
    unfold failures at hsome
    have hstart : (Progress.start objects).report.failedFiles = 0 := rfl
    rw [hstart, Nat.zero_add] at hfailed
    exact fun h => hsome (hfailed.symm.trans h)

end Source

/-! ### Histories -/

/-- What happens to a source and the object store: another client writes, or a directory is
synced. -/
inductive Episode where
  | client (write : ObjectStore.Write)
  | sync (directory : Option Directory) (stamp : ℕ → Stamp)

/-- A source and the store that it keeps. -/
structure Upkeep where
  source : Source
  objects : ObjectStore

namespace Upkeep

/-- A sync that fails changes nothing. -/
def step (u : Upkeep) : Episode → Upkeep
  | .client write => { u with objects := write.run u.objects }
  | .sync directory stamp =>
    match u.source.sync directory stamp u.objects with
    | .ok (source, p) => ⟨source, p.objects⟩
    | .error _ => u

/-- A new source and an empty store after a history. -/
def after (history : List Episode) : Upkeep := history.foldl step ⟨.new, .empty⟩

theorem after_snoc (history : List Episode) (e : Episode) :
    after (history ++ [e]) = (after history).step e := by
  unfold after
  rw [List.foldl_append]
  rfl

end Upkeep

/-- A sync has applied the key, and no clean one has dropped it since. -/
def Owed (history : List Episode) (k : ObjectKey) : Prop :=
  ∃ earlier d stamp later, history = earlier ++ .sync (some d) stamp :: later ∧
    Describes (descriptions d) k ∧
    ∀ d' stamp', Episode.sync (some d') stamp' ∈ later → IsClean d' →
      Describes (descriptions d') k

section owed
variable {history : List Episode} {k : ObjectKey}

theorem not_owed_nil : ¬ Owed [] k := by
  rintro ⟨earlier, d, stamp, later, hsplit, -⟩
  simp at hsplit

/-- Only what a sync has applied is owed. -/
theorem Owed.applied (h : Owed history k) :
    ∃ d stamp, Episode.sync (some d) stamp ∈ history ∧ Describes (descriptions d) k := by
  obtain ⟨earlier, d, stamp, later, rfl, hdescribes, -⟩ := h
  exact ⟨d, stamp, by simp, hdescribes⟩

/-- What is owed after one more episode: what was just applied, and what was owed before unless
it was dropped. -/
theorem owed_snoc {e : Episode} : Owed (history ++ [e]) k ↔
    (∃ d stamp, e = .sync (some d) stamp ∧ Describes (descriptions d) k) ∨
      (Owed history k ∧ ∀ d stamp, e = .sync (some d) stamp → IsClean d →
        Describes (descriptions d) k) := by
  constructor
  · rintro ⟨earlier, d, stamp, later, hsplit, hdescribes, hsince⟩
    rcases List.eq_nil_or_concat later with rfl | ⟨later, last, rfl⟩
    · obtain ⟨rfl, hlast⟩ := List.append_inj' hsplit rfl
      exact Or.inl ⟨d, stamp, List.head_eq_of_cons_eq hlast, hdescribes⟩
    · rw [List.concat_eq_append, ← List.cons_append, ← List.append_assoc] at hsplit
      obtain ⟨rfl, hlast⟩ := List.append_inj' hsplit rfl
      obtain rfl := List.head_eq_of_cons_eq hlast
      refine Or.inr ⟨⟨earlier, d, stamp, later, rfl, hdescribes, ?_⟩, ?_⟩
      · intro d' stamp' hmem
        exact hsince d' stamp' (by simp [hmem])
      · rintro d' stamp' rfl
        exact hsince d' stamp' (by simp)
  · rintro (⟨d, stamp, rfl, hdescribes⟩
      | ⟨⟨earlier, d, stamp, later, rfl, hdescribes, hsince⟩, hlast⟩)
    · exact ⟨history, d, stamp, [], rfl, hdescribes, fun _ _ h => absurd h List.not_mem_nil⟩
    · refine ⟨earlier, d, stamp, later ++ [e], by simp, hdescribes, ?_⟩
      intro d' stamp' hmem hclean
      rcases List.mem_append.mp hmem with hmem | hmem
      · exact hsince d' stamp' hmem hclean
      · exact hlast d' stamp' (List.mem_singleton.mp hmem).symm hclean

end owed

/-- The source owns what is owed to it. -/
structure Upkeep.Sound (history : List Episode) (u : Upkeep) : Prop where
  objects : ObjectStore.Sound u.objects
  owned : ∀ k, u.source.owned.contains k = true ↔ Owed history k

section upkeep
variable {history : List Episode} {u : Upkeep}

/-- The keys that a sync has seen are those that are described. -/
theorem Source.Applying.seen_iff {d : Directory} {objects : ObjectStore} {p : Source.Progress}
    (h : Source.Applying (descriptions d) (failures d) (.start objects) p) (k : ObjectKey) :
    p.seen.contains k = true ↔ Describes (descriptions d) k := by
  rw [h.seen]
  refine ⟨fun hk => hk.resolve_left ?_, Or.inr⟩
  exact Bool.false_ne_true

theorem Upkeep.Sound.client (h : u.Sound history) (write : ObjectStore.Write) :
    (u.step (.client write)).Sound (history ++ [.client write]) where
  objects := ObjectStore.Write.run_sound h.objects write
  owned k := by
    rw [owed_snoc]
    constructor
    · intro hk
      exact Or.inr ⟨(h.owned k).mp hk, fun d stamp heq => by cases heq⟩
    · rintro (⟨d, stamp, heq, -⟩ | ⟨howed, -⟩)
      · cases heq
      · exact (h.owned k).mpr howed

/-- A sync of a directory that does not exist. -/
theorem Upkeep.Sound.missing (h : u.Sound history) (stamp : ℕ → Stamp) :
    (u.step (.sync none stamp)).Sound (history ++ [.sync none stamp]) where
  objects := h.objects
  owned k := by
    rw [owed_snoc]
    constructor
    · intro hk
      exact Or.inr ⟨(h.owned k).mp hk, fun d stamp heq => by cases heq⟩
    · rintro (⟨d, stamp, heq, -⟩ | ⟨howed, -⟩)
      · cases heq
      · exact (h.owned k).mpr howed

theorem Upkeep.Sound.sync (h : u.Sound history) (d : Directory) (stamp : ℕ → Stamp) :
    (u.step (.sync (some d) stamp)).Sound (history ++ [.sync (some d) stamp]) := by
  obtain ⟨p, happlying, ⟨hclean, hsync⟩ | ⟨hclean, hsync⟩⟩ :=
    Source.sync_cases h.objects u.source d stamp
  · unfold Upkeep.step
    dsimp only
    rw [hsync]
    refine ⟨(Source.deleteObjects_get? _ happlying.sound).2, fun k => ?_⟩
    rw [happlying.seen_iff, owed_snoc]
    constructor
    · exact fun hk => Or.inl ⟨d, stamp, rfl, hk⟩
    · rintro (⟨d', stamp', heq, hk⟩ | ⟨-, hk⟩)
      · cases heq
        exact hk
      · exact hk d stamp rfl hclean
  · unfold Upkeep.step
    dsimp only
    rw [hsync]
    refine ⟨happlying.sound, fun k => ?_⟩
    rw [Source.contains_insertKeys, Catalog.mem_keys_iff, ← Catalog.contains_iff,
      happlying.seen_iff, h.owned, owed_snoc]
    constructor
    · rintro (howed | hk)
      · exact Or.inr ⟨howed, fun d' stamp' heq hclean' => by
          cases heq
          exact absurd hclean' hclean⟩
      · exact Or.inl ⟨d, stamp, rfl, hk⟩
    · rintro (⟨d', stamp', heq, hk⟩ | ⟨howed, -⟩)
      · cases heq
        exact Or.inr hk
      · exact Or.inl howed

theorem Upkeep.Sound.step (h : u.Sound history) (e : Episode) :
    (u.step e).Sound (history ++ [e]) := by
  cases e with
  | client write => exact h.client write
  | sync directory stamp =>
      cases directory with
      | none => exact h.missing stamp
      | some d => exact h.sync d stamp

theorem Upkeep.after_sound (history : List Episode) : (after history).Sound history := by
  induction history using List.reverseRecOn with
  | nil =>
      refine ⟨ObjectStore.empty_sound, fun k => ?_⟩
      exact ⟨fun hk => absurd hk Bool.false_ne_true, fun howed => absurd howed not_owed_nil⟩
  | append_singleton history e ih =>
      rw [after_snoc]
      exact ih.step e

end upkeep

/-! ### In line with the directory -/

/-- What a sync of a directory has done after a history, to a store with these objects before. -/
structure Aligned (history : List Episode) (d : Directory) (before : ObjectStore)
    (source : Source) (p : Source.Progress) : Prop where
  /-- The keys that were applied are the valid ones that are described. -/
  applied : ∀ k, p.seen.contains k = true ↔ Describes (descriptions d) k
  /-- Each of them has an object with the payload described last. -/
  described : ∀ k o, k.isValid = true → lastOf? (descriptions d) k = some o →
    p.objects.Specifies k o.spec
  /-- If all files were loaded, what is owed and not described any more is gone. -/
  dropped : IsClean d → ∀ k, Owed history k → (∀ o ∈ descriptions d, o.key ≠ k) →
    p.objects.objects.get? k = none
  /-- If some were not, nothing is deleted. -/
  kept : ¬ IsClean d → p.report.deleted = 0 ∧ before.Keeps p.objects
  /-- What is neither described nor owed is left as it is: above all what no sync has applied. -/
  untouched : ∀ k, ¬ Describes (descriptions d) k → ¬ Owed history k →
    p.objects.objects.get? k = before.objects.get? k
  /-- The same sync once more finds nothing to do. -/
  repeated : IsClean d → ((descriptions d).map Object.key).Nodup → ∀ stamp, ∃ source' p',
    source.sync (some d) stamp p.objects = .ok (source', p') ∧ p'.objects = p.objects

section aligned
variable {history : List Episode} {d : Directory} {objects : ObjectStore} {source : Source}
  {p : Source.Progress}

/-- A sync whose files were not all loaded. -/
theorem aligned_of_failure
    (happlying : Source.Applying (descriptions d) (failures d) (.start objects) p)
    (hclean : ¬ IsClean d) : Aligned history d objects source p where
  applied := happlying.seen_iff
  described := happlying.specifies
  dropped h := absurd h hclean
  kept _ := ⟨happlying.deleted, happlying.keeps⟩
  untouched k hk _ := happlying.others k hk
  repeated h := absurd h hclean

/-- A sync that has applied all files and then deleted what is owed and not described. -/
theorem aligned_of_clean (howned : ∀ k, source.owned.contains k = true ↔ Owed history k)
    (happlying : Source.Applying (descriptions d) (failures d) (.start objects) p)
    (hclean : IsClean d) :
    Aligned history d objects ⟨p.seen⟩ ((source.abandoned p.seen).foldl Source.deleteObject p) := by
  obtain ⟨hget, hsound⟩ :=
    Source.deleteObjects_get? (source.abandoned p.seen) happlying.sound
  have hseen := happlying.seen_iff
  have habandoned : ∀ k, k ∈ source.abandoned p.seen ↔
      Owed history k ∧ ¬ Describes (descriptions d) k := by
    intro k
    rw [Source.mem_abandoned, howned, ← hseen, Bool.not_eq_true]
  have hdescribed : ∀ k o, k.isValid = true → lastOf? (descriptions d) k = some o →
      ((source.abandoned p.seen).foldl Source.deleteObject p).objects.Specifies k o.spec := by
    intro k o hvalid hlast
    obtain ⟨stored, hstored, hspec⟩ := happlying.specifies k o hvalid hlast
    obtain ⟨hmem, hkey⟩ := lastOf?_mem hlast
    refine ⟨stored, ?_, hspec⟩
    rw [hget, if_neg fun h => ((habandoned k).mp h).2 ⟨hvalid, o, hmem, hkey⟩]
    exact hstored
  exact {
    applied := fun k => by rw [Source.deleteObjects_seen, hseen]
    described := hdescribed
    dropped := by
      intro _ k howed hgone
      rw [hget, if_pos ((habandoned k).mpr ⟨howed, ?_⟩)]
      rintro ⟨-, o, ho, hkey⟩
      exact hgone o ho hkey
    kept := fun h => absurd hclean h
    untouched := by
      intro k hk howed
      rw [hget, if_neg fun h => howed ((habandoned k).mp h).1]
      exact happlying.others k hk
    repeated := by
      intro _ hnodup stamp
      obtain ⟨p', happlying', ⟨-, hsync⟩ | ⟨hclean', -⟩⟩ :=
        Source.sync_cases hsound ⟨p.seen⟩ d stamp
      · -- all that the second sync knows of was applied again
        have hnothing : (Source.mk p.seen).abandoned p'.seen = [] := by
          rw [List.eq_nil_iff_forall_not_mem]
          intro k hk
          obtain ⟨howned', hunseen⟩ := Source.mem_abandoned.mp hk
          have hdescribes := (hseen k).mp howned'
          rw [← happlying'.seen_iff, hunseen] at hdescribes
          exact Bool.false_ne_true hdescribes
        rw [hnothing] at hsync
        refine ⟨_, _, hsync, happlying'.unchanged ?_⟩
        intro o ho hvalid
        exact hdescribed o.key o hvalid (lastOf?_of_nodup hnodup ho)
      · exact absurd hclean hclean' }

end aligned

/-- Whatever syncs and writes there were, the next sync fails if there is no directory, and then
has changed nothing; or it brings the store in line with the directory and leaves alone what it
does not own. -/
theorem sync_aligns (history : List Episode) (directory : Option Directory)
    (stamp : ℕ → Stamp) :
    let u := Upkeep.after history
    (directory = none ∧ (∃ e, u.source.sync directory stamp u.objects = .error e) ∧
        Upkeep.after (history ++ [.sync directory stamp]) = u) ∨
      ∃ d source p, directory = some d ∧
        u.source.sync directory stamp u.objects = .ok (source, p) ∧
        Upkeep.after (history ++ [.sync directory stamp]) = ⟨source, p.objects⟩ ∧
        Aligned history d u.objects source p := by
  intro u
  have hsound : u.Sound history := Upkeep.after_sound history
  have hnext := Upkeep.after_snoc history (.sync directory stamp)
  cases directory with
  | none => exact Or.inl ⟨rfl, ⟨_, rfl⟩, hnext⟩
  | some d =>
      obtain ⟨p, happlying, ⟨hclean, hsync⟩ | ⟨hclean, hsync⟩⟩ :=
        Source.sync_cases hsound.objects u.source d stamp
      · refine Or.inr ⟨d, _, _, rfl, hsync, ?_, aligned_of_clean hsound.owned happlying hclean⟩
        rw [hnext]
        unfold Upkeep.step
        dsimp only
        rw [hsync]
      · refine Or.inr ⟨d, _, _, rfl, hsync, ?_, aligned_of_failure happlying hclean⟩
        rw [hnext]
        unfold Upkeep.step
        dsimp only
        rw [hsync]

/-! ### A file that goes bad and one that goes away -/

/-- The manifest of a cluster that has this name and says nothing. -/
def clusterManifest (name : String) : FileEntry :=
  .file <| Bytes.ofText <| "\x7bapiVersion: a, kind: Cluster, metadata: \x7bnamespace: n, name: "
    ++ name ++ "\x7d, spec: \x7btype: t, value: ''\x7d\x7d"

def clusterKey (name : String) : ObjectKey := ⟨.cluster, "n", name⟩

def anyStamp : Stamp := ⟨"u", ⟨0, 0⟩⟩

def bothManifests : Directory :=
  .ofList [("a.yaml", clusterManifest "a"), ("b.yaml", clusterManifest "b")]

def spoiledManifest : Directory := .ofList [("a.yaml", .file [255])]

def oneManifest : Directory := .ofList [("a.yaml", clusterManifest "a")]

/-- Two clusters are synced, another client creates a third one, and then the file of the first
cannot be read while that of the second is gone. -/
def spoiledHistory : List Episode :=
  [.sync (some bothManifests) fun _ => anyStamp,
    .client (.create anyStamp (.declare .cluster "n" "c" ⟨"t", []⟩)),
    .sync (some spoiledManifest) fun _ => anyStamp]

theorem pruned_after_failure :
    IsClean oneManifest ∧ Owed spoiledHistory (clusterKey "b") ∧
      ∃ source p, (Upkeep.after spoiledHistory).source.sync (some oneManifest)
          (fun _ => anyStamp) (Upkeep.after spoiledHistory).objects = .ok (source, p) ∧
        p.objects.objects.get? (clusterKey "b") = none ∧
        p.objects.objects.get? (clusterKey "c") =
          (Upkeep.after spoiledHistory).objects.objects.get? (clusterKey "c") ∧
        ∃ source' p', source.sync (some oneManifest) (fun _ => anyStamp) p.objects =
            .ok (source', p') ∧ p'.objects = p.objects := by
  have hkeys : (descriptions oneManifest).map Object.key = [clusterKey "a"] := by decide +kernel
  have hboth : (descriptions bothManifests).map Object.key = [clusterKey "a", clusterKey "b"] := by
    decide +kernel
  have hspoiled : (descriptions spoiledManifest).map Object.key = [] := by decide +kernel
  have hdescribes : ∀ {d : Directory} {k : ObjectKey} {keys : List ObjectKey},
      (descriptions d).map Object.key = keys → Describes (descriptions d) k → k ∈ keys := by
    rintro d k keys rfl ⟨-, o, ho, rfl⟩
    exact List.mem_map_of_mem ho
  have hclean : IsClean oneManifest := isClean_iff.mpr (by decide +kernel)
  have hfailed : ¬ IsClean spoiledManifest := fun h =>
    absurd (isClean_iff.mp h) (by decide +kernel)
  have howed : Owed spoiledHistory (clusterKey "b") := by
    obtain ⟨o, ho, hkey⟩ : ∃ o ∈ descriptions bothManifests, o.key = clusterKey "b" :=
      List.mem_map.mp (by rw [hboth]; decide)
    refine ⟨[], bothManifests, _, _, rfl, ⟨by decide +kernel, o, ho, hkey⟩, ?_⟩
    intro d stamp hmem hd
    simp only [List.mem_cons, Episode.sync.injEq, Option.some.injEq, reduceCtorEq,
      List.not_mem_nil, or_false, false_or] at hmem
    exact absurd (hmem.1 ▸ hd) hfailed
  have hfree : ¬ Owed spoiledHistory (clusterKey "c") := by
    intro h
    obtain ⟨d, stamp, hmem, hd⟩ := h.applied
    simp only [spoiledHistory, List.mem_cons, Episode.sync.injEq, Option.some.injEq,
      reduceCtorEq, List.not_mem_nil, or_false, false_or] at hmem
    rcases hmem with ⟨rfl, -⟩ | ⟨rfl, -⟩
    · exact absurd (hdescribes hboth hd) (by decide)
    · exact absurd (hdescribes hspoiled hd) (by decide)
  refine ⟨hclean, howed, ?_⟩
  rcases sync_aligns spoiledHistory (some oneManifest) fun _ => anyStamp with
    ⟨hnone, -⟩ | ⟨d, source, p, hd, hsync, -, haligned⟩
  · cases hnone
  · obtain rfl := Option.some.inj hd
    refine ⟨source, p, hsync, ?_, ?_, ?_⟩
    · refine haligned.dropped hclean _ howed fun o ho hkey => ?_
      have hmem := List.mem_map_of_mem (f := Object.key) ho
      rw [hkeys, hkey] at hmem
      exact absurd hmem (by decide)
    · exact haligned.untouched _ (fun h => absurd (hdescribes hkeys h) (by decide)) hfree
    · exact haligned.repeated hclean (by rw [hkeys]; exact List.nodup_singleton _) _

end ControlPlane.Manifest
