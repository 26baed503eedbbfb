import ControlPlane.Proofs.Controller.Interleaving
import ControlPlane.Proofs.Controller.Undisturbed
import ControlPlane.Proofs.Store.Lives

/-! # Verdicts are true

A pass judges an object as it was read, and by the time the verdict is written the object may be
another one: its payload replaced, or itself deleted and created anew under the same key.  The
verdict lands nevertheless only on the object that was read, for the token that comes with it names
no other state of any object.

So an object's verdict never speaks of a generation that is still to come, and one that speaks of
the present generation says what validation says of the present payload (`Object.Truthful`).  All
that can happen to an object in one move keeps this up (`Arises.truthful`), and takes the verdict no
further back (`Arises.later`). -/

namespace ControlPlane

open Time (Timestamp)

/-- The condition says of a payload what validation says of it. -/
def Condition.Tells (c : Condition) : Except Validation.Rejection Resource → Prop
  | .ok _ => c.status = .holds ∧ c.reason = AcceptanceReason.accepted.name ∧ c.message = ""
  | .error e => c.status = .fails ∧ c.reason = e.reason.name ∧ c.message = e.message

namespace Object

/-- The condition in which the verdict on the object is written down. -/
def verdict? (o : Object) : Option Condition := o.status.condition? Acceptance.conditionType

/-- The verdict on an object is on no generation to come, and if it is on the present one it is
true of the present payload. -/
structure Truthful [NewerMessages] (o : Object) : Prop where
  seen : ∀ c, o.verdict? = some c → c.observedGeneration ≤ o.metadata.generation
  tells : ∀ c, o.verdict? = some c → c.observedGeneration = o.metadata.generation →
    c.Tells (validate o.kind o.spec)

/-- The same object, with a verdict on no earlier generation if there was one. -/
structure Later (o o' : Object) : Prop where
  uid : o'.metadata.uid = o.metadata.uid
  seen : ∀ c, o.verdict? = some c → ∃ c', o'.verdict? = some c' ∧
    c.observedGeneration ≤ c'.observedGeneration

theorem Later.refl (o : Object) : o.Later o := ⟨rfl, fun c hc => ⟨c, hc, le_refl _⟩⟩

theorem Later.trans {o₁ o₂ o₃ : Object} (h₁ : o₁.Later o₂) (h₂ : o₂.Later o₃) : o₁.Later o₃ where
  uid := h₂.uid.trans h₁.uid
  seen c hc := by
    obtain ⟨c₂, hc₂, hle₂⟩ := h₁.seen c hc
    obtain ⟨c₃, hc₃, hle₃⟩ := h₂.seen c₂ hc₂
    exact ⟨c₃, hc₃, hle₂.trans hle₃⟩

end Object

/-! ### What a verdict says -/

section verdicts
variable {s : ObjectStore} {o : Object}

theorem Acceptance.Tells.toCondition {v : Acceptance}
    {validated : Except Validation.Rejection Resource} (h : v.Tells validated) :
    v.toCondition.Tells validated := by
  cases validated with
  | ok r =>
      obtain ⟨haccepted, hreason, hmessage⟩ := h
      simp [Condition.Tells, Acceptance.toCondition, haccepted, hreason, hmessage]
  | error e =>
      obtain ⟨haccepted, hreason, hmessage⟩ := h
      simp [Condition.Tells, Acceptance.toCondition, haccepted, hreason, hmessage]

/-- A new payload leaves the old verdict behind its generation. -/
theorem Object.Truthful.respecified [NewerMessages] (h : o.Truthful) (s : ObjectStore)
    (spec : Payload) : (s.respecified o spec).Truthful where
  seen c hc := by
    have hle : c.observedGeneration ≤ o.metadata.generation := h.seen c hc
    show c.observedGeneration ≤ o.metadata.generation + 1
    omega
  tells c hc hgeneration := by
    have hle : c.observedGeneration ≤ o.metadata.generation := h.seen c hc
    have heq : c.observedGeneration = o.metadata.generation + 1 := hgeneration
    omega

theorem Object.Later.respecified (o : Object) (s : ObjectStore) (spec : Payload) :
    o.Later (s.respecified o spec) := ⟨rfl, fun c hc => ⟨c, hc, le_refl _⟩⟩

end verdicts

namespace Reconcile

section faithful
variable [NewerMessages] {s : Stores} {p : Judged}

/-- The object after a pass has written its verdict. -/
def Judged.written (p : Judged) (s : Stores) : Object :=
  s.objects.restated p.object p.updated.status

omit [NewerMessages] in
theorem Judged.verdict?_written (p : Judged) (s : Stores) :
    (p.written s).verdict? = some p.verdict.toCondition :=
  Status.condition?_setAccepted _ _

theorem Faithful.observedGeneration (h : Faithful s p) :
    p.verdict.toCondition.observedGeneration = p.object.metadata.generation := by
  obtain ⟨time, htime⟩ := h.verdict
  rw [htime]
  exact judge_observedGeneration p.key p.object time

theorem Faithful.truthful (h : Faithful s p) : (p.written s).Truthful := by
  obtain ⟨time, htime⟩ := h.verdict
  have htells := (judge_tells p.key p.object time).toCondition
  have hkind : p.key.kind = p.object.kind := congrArg ObjectKey.kind h.keyed.symm
  rw [← htime, hkind] at htells
  constructor
  · intro c hc
    rw [p.verdict?_written, Option.some.injEq] at hc
    rw [← hc]
    exact h.observedGeneration.le
  · intro c hc _
    rw [p.verdict?_written, Option.some.injEq] at hc
    rw [← hc]
    exact htells

theorem Faithful.later (h : Faithful s p) (ho : p.object.Truthful) :
    p.object.Later (p.written s) where
  uid := rfl
  seen c hc := by
    refine ⟨_, p.verdict?_written s, ?_⟩
    rw [h.observedGeneration]
    exact ho.seen c hc

end faithful
end Reconcile

namespace Reconcilers

/-! ### How an object comes about in one move -/

/-- How the object that has a key after a move came about, if no client writes a status. -/
inductive Arises [NewerMessages] (r : Reconcilers) (m : Move) (key : ObjectKey) : Object → Prop
  | kept (o : Object) : r.stores.objects.objects.get? key = some o → Arises r m key o
  | created (stamp : Stamp) (incoming : Object) : m = .client (.create stamp incoming) →
      incoming.key = key → Arises r m key (r.stores.objects.admitted stamp incoming)
  | respecified (o : Object) (spec : Payload) : r.stores.objects.objects.get? key = some o →
      Arises r m key (r.stores.objects.respecified o spec)
  /-- The verdict of a pass lands on the object that the pass has read. -/
  | judged (p : Reconcile.Judged) : Reconcile.Faithful r.stores p →
      r.stores.objects.objects.get? key = some p.object → Arises r m key (p.written r.stores)

section moves
variable [NewerMessages] {r q : Reconcilers} {m : Move} {key : ObjectKey} {o : Object}

theorem Sound.arises_of_client (h : r.Sound) {w : ObjectStore.Write}
    (honest : ∀ o, w ≠ .updateStatus o)
    (ho : (w.run r.stores.objects).objects.get? key = some o) : r.Arises (.client w) key o := by
  cases ObjectStore.Write.run_came h.stores.objects ho with
  | kept o hget => exact .kept o hget
  | created stamp incoming hw hkey => exact .created stamp incoming (by rw [hw]) hkey
  | respecified stored incoming _ hget => exact .respecified stored incoming.spec hget
  | restated stored incoming hw => exact absurd hw (honest incoming)

theorem arises_of_finish {p : Reconcile.Judged} (hp : Reconcile.Faithful r.stores p)
    (failure : Option StoreError)
    (ho : (Reconcile.complete p failure r.stores).1.objects.objects.get? key = some o) :
    r.Arises m key o := by
  cases failure with
  | some e =>
      rw [(Reconcile.complete_error p e r.stores).objects] at ho
      exact .kept o ho
  | none =>
      have hconclude := hp.concluded
      rw [show Reconcile.complete p none r.stores = Reconcile.conclude p r.stores from rfl] at ho
      generalize Reconcile.conclude p r.stores = x at hconclude ho
      cases hconclude with
      | gone => exact .kept o ho
      | late => exact .kept o ho
      | same => exact .kept o ho
      | written hget =>
          have hkeyed : p.object.key = p.key := hp.keyed
          rcases ObjectStore.commit_cases ho with ⟨hkey, rfl⟩ | hold
          · have hthere : key = p.key := hkey.trans hkeyed
            exact .judged p hp (hthere ▸ hget)
          · exact .kept o hold

theorem Sound.arises (h : r.Sound) (hm : r.step m = some q)
    (honest : ∀ o, m ≠ .client (.updateStatus o))
    (ho : q.stores.objects.objects.get? key = some o) : r.Arises m key o := by
  cases m with
  | client w =>
      obtain rfl := Option.some.inj hm
      exact h.arises_of_client (fun o hw => honest o (by rw [hw])) ho
  | start k now failure =>
      obtain rfl := Option.some.inj hm
      refine .kept o ?_
      cases failure with
      | some e =>
          have hrefused := (Reconcile.attempt_error k now e r.stores).1
          rwa [← hrefused.objects]
      | none =>
          have hstart := Reconcile.start_cases k now r.stores
          rwa [← hstart.objects]
  | finish index failure =>
      obtain ⟨p, -, hp, rfl⟩ := step_finish hm
      exact arises_of_finish (h.passes p hp) failure ho

/-- All verdicts in the object store are true. -/
def Truthful (r : Reconcilers) : Prop :=
  ∀ key o, r.stores.objects.objects.get? key = some o → o.Truthful

theorem Arises.truthful (ha : r.Arises m key o) (ht : r.Truthful) : o.Truthful := by
  cases ha with
  | kept o hget => exact ht key o hget
  | created stamp incoming =>
      constructor <;> intro c hc <;> cases hc
  | respecified o spec hget => exact (ht key o hget).respecified _ spec
  | judged p hp => exact hp.truthful

/-- An object that was not created in the move is a later state of the one that had its key. -/
theorem Arises.later (ha : r.Arises m key o) (ht : r.Truthful) :
    (∃ o', r.stores.objects.objects.get? key = some o' ∧ o'.Later o) ∨
      ∃ stamp incoming, m = .client (.create stamp incoming) ∧ incoming.key = key ∧
        o.metadata.uid = stamp.uid := by
  cases ha with
  | kept o hget => exact Or.inl ⟨o, hget, .refl o⟩
  | created stamp incoming hm hkey => exact Or.inr ⟨stamp, incoming, hm, hkey, rfl⟩
  | respecified o spec hget => exact Or.inl ⟨o, hget, .respecified o _ spec⟩
  | judged p hp hget => exact Or.inl ⟨p.object, hget, hp.later (ht key p.object hget)⟩

theorem Truthful.step (ht : r.Truthful) (h : r.Sound) (hm : r.step m = some q)
    (honest : ∀ o, m ≠ .client (.updateStatus o)) : q.Truthful :=
  fun _ _ ho => (h.arises hm honest ho).truthful ht

end moves

/-! ### Identities -/

/-- The identities that a move draws. -/
def Move.uids : Move → List String
  | .client (.create stamp _) => [stamp.uid]
  | .client (.update _) | .client (.updateStatus _) | .client (.delete _) => []
  | .start _ _ _ | .finish _ _ => []

/-- The identities that are drawn for the objects that clients create. -/
def drawn (moves : List Move) : List String := moves.flatMap Move.uids

/-- Every object bears an identity that was drawn, and no two bear the same. -/
structure Identified (r : Reconcilers) (used : List String) : Prop where
  drawn : ∀ key o, r.stores.objects.objects.get? key = some o → o.metadata.uid ∈ used
  distinct : ∀ key key' o o', r.stores.objects.objects.get? key = some o →
    r.stores.objects.objects.get? key' = some o' → o'.metadata.uid = o.metadata.uid → key' = key

/-- Whatever bears the identity of the object has its key and is a later state of it. -/
def LivesOn (r : Reconcilers) (key : ObjectKey) (o : Object) : Prop :=
  ∀ key' o', r.stores.objects.objects.get? key' = some o' → o'.metadata.uid = o.metadata.uid →
    key' = key ∧ o.Later o'

section identities
variable [NewerMessages] {r q : Reconcilers} {m : Move} {moves : List Move} {key : ObjectKey}
  {o : Object} {used : List String}

theorem Identified.step (hi : r.Identified used) (h : r.Sound) (ht : r.Truthful)
    (hm : r.step m = some q) (honest : ∀ o, m ≠ .client (.updateStatus o))
    (hfresh : ∀ uid ∈ m.uids, uid ∉ used) : q.Identified (used ++ m.uids) := by
  have hcases : ∀ {key o}, q.stores.objects.objects.get? key = some o →
      (∃ o', r.stores.objects.objects.get? key = some o' ∧ o'.metadata.uid = o.metadata.uid) ∨
        ∃ stamp incoming, m = .client (.create stamp incoming) ∧ incoming.key = key ∧
          o.metadata.uid = stamp.uid := by
    intro key o ho
    refine ((h.arises hm honest ho).later ht).imp_left ?_
    rintro ⟨o', ho', hlater⟩
    exact ⟨o', ho', hlater.uid.symm⟩
  have hnew : ∀ {stamp incoming}, m = .client (.create stamp incoming) → stamp.uid ∈ m.uids := by
    rintro stamp incoming rfl
    exact List.mem_singleton_self _
  constructor
  · intro key o ho
    rw [List.mem_append]
    rcases hcases ho with ⟨o', ho', huid⟩ | ⟨stamp, incoming, hcreate, -, huid⟩
    · exact Or.inl (huid ▸ hi.drawn key o' ho')
    · exact Or.inr (huid ▸ hnew hcreate)
  · intro key key' o₁ o₂ ho₁ ho₂ huid
    rcases hcases ho₁ with ⟨o₁', ho₁', huid₁⟩ | ⟨stamp, incoming, hcreate, hkey, huid₁⟩ <;>
      rcases hcases ho₂ with ⟨o₂', ho₂', huid₂⟩ | ⟨stamp', incoming', hcreate', hkey', huid₂⟩
    · exact hi.distinct key key' o₁' o₂' ho₁' ho₂' (by rw [huid₁, huid₂, huid])
    · -- an identity that was drawn before is not drawn again
      have hold := hi.drawn key o₁' ho₁'
      rw [huid₁, ← huid, huid₂] at hold
      exact absurd hold (hfresh _ (hnew hcreate'))
    · have hold := hi.drawn key' o₂' ho₂'
      rw [huid₂, huid, huid₁] at hold
      exact absurd hold (hfresh _ (hnew hcreate))
    · rw [hcreate] at hcreate'
      obtain ⟨-, rfl⟩ := ObjectStore.Write.create.inj (Move.client.inj hcreate')
      exact hkey'.symm.trans hkey

theorem LivesOn.step (hl : r.LivesOn key o) (h : r.Sound) (ht : r.Truthful)
    (hm : r.step m = some q) (honest : ∀ o, m ≠ .client (.updateStatus o))
    (hfresh : o.metadata.uid ∉ m.uids) : q.LivesOn key o := by
  intro key' o' ho' huid
  rcases (h.arises hm honest ho').later ht with
    ⟨o₁, ho₁, hlater⟩ | ⟨stamp, incoming, rfl, -, hstamp⟩
  · obtain ⟨hkey, hbefore⟩ := hl key' o₁ ho₁ (hlater.uid.symm.trans huid)
    exact ⟨hkey, hbefore.trans hlater⟩
  · rw [← huid, hstamp] at hfresh
    exact absurd (List.mem_singleton_self _) hfresh

/-- What holds after a run in which no client writes a status. -/
structure Honest (r : Reconcilers) : Prop where
  sound : r.Sound
  truthful : r.Truthful

theorem opening_honest : (opening .empty).Honest where
  sound := opening_sound ObjectStore.empty_sound
  truthful key o ho := by cases ho

theorem Honest.step (h : r.Honest) (hm : r.step m = some q)
    (honest : ∀ o, m ≠ .client (.updateStatus o)) : q.Honest :=
  ⟨h.sound.step hm, h.truthful.step h.sound hm honest⟩

omit [NewerMessages] in
theorem ne_updateStatus (honest : ∀ o, .client (.updateStatus o) ∉ moves) (hmem : m ∈ moves) :
    ∀ o, m ≠ .client (.updateStatus o) := by
  rintro o rfl
  exact honest o hmem

theorem Honest.run (h : r.Honest) (hrun : r.run moves = some q)
    (honest : ∀ o, .client (.updateStatus o) ∉ moves) : q.Honest :=
  run_keeps h (fun _ hmem _ _ hp hm => hp.step hm (ne_updateStatus honest hmem)) hrun

theorem Honest.livesOn (h : r.Honest) (hl : r.LivesOn key o) (hrun : r.run moves = some q)
    (honest : ∀ o, .client (.updateStatus o) ∉ moves) (hfresh : o.metadata.uid ∉ drawn moves) :
    q.LivesOn key o := by
  have hkept : q.Honest ∧ q.LivesOn key o := by
    refine run_keeps (P := fun p => p.Honest ∧ p.LivesOn key o) ⟨h, hl⟩ ?_ hrun
    rintro m hmem p p' ⟨hp, hlives⟩ hm
    have hm' := ne_updateStatus honest hmem
    have hnot : o.metadata.uid ∉ m.uids := by
      intro huid
      exact hfresh (List.mem_flatMap.mpr ⟨m, hmem, huid⟩)
    exact ⟨hp.step hm hm', hlives.step hp.sound hp.truthful hm hm' hnot⟩
  exact hkept.2

omit [NewerMessages] in
theorem opening_identified : (opening .empty).Identified [] where
  drawn key o ho := by cases ho
  distinct key key' o o' ho := by cases ho

theorem identified_of_run (honest : ∀ o, .client (.updateStatus o) ∉ moves)
    (hdrawn : (drawn moves).Nodup) (hrun : (opening .empty).run moves = some q) :
    q.Identified (drawn moves) := by
  refine run_induction (P := fun made p => p.Identified (drawn made)) opening_identified ?_ hrun
  rintro before m after p p' rfl hbefore hi hm
  simp only [List.mem_append, not_or] at honest
  have hp : p.Honest := opening_honest.run hbefore fun o => (honest o).1
  have hm' : ∀ o, m ≠ .client (.updateStatus o) :=
    ne_updateStatus (fun o => (honest o).2) List.mem_cons_self
  have hnew : ∀ uid ∈ m.uids, uid ∉ drawn before := by
    intro uid huid hused
    rw [drawn, List.flatMap_append, List.nodup_append] at hdrawn
    exact hdrawn.2.2 uid hused uid (List.mem_flatMap.mpr ⟨m, List.mem_cons_self, huid⟩) rfl
  have hsplit : drawn (before ++ [m]) = drawn before ++ m.uids := by
    simp [drawn]
  rw [hsplit]
  exact hi.step hp.sound hp.truthful hm hm' hnew

/-- An object that has a key is the only one with its identity, then and later. -/
theorem livesOn_of_run {before after : List Move}
    (honest : ∀ o, .client (.updateStatus o) ∉ before ++ after)
    (hdrawn : (drawn (before ++ after)).Nodup) (hbefore : (opening .empty).run before = some q)
    (hafter : q.run after = some r) (ho : q.stores.objects.objects.get? key = some o) :
    r.LivesOn key o := by
  simp only [List.mem_append, not_or] at honest
  rw [drawn, List.flatMap_append, List.nodup_append] at hdrawn
  obtain ⟨hdrawn, -, hapart⟩ := hdrawn
  have hq : q.Honest := opening_honest.run hbefore fun o => (honest o).1
  have hi : q.Identified (drawn before) :=
    identified_of_run (fun o => (honest o).1) hdrawn hbefore
  have hl : q.LivesOn key o := by
    intro key' o' ho' huid
    obtain rfl := hi.distinct key key' o o' ho ho' huid
    obtain rfl : o = o' := Option.some.inj (ho.symm.trans ho')
    exact ⟨rfl, .refl o⟩
  have hfresh : o.metadata.uid ∉ drawn after := by
    intro hmem
    exact hapart _ (hi.drawn key o ho) _ hmem rfl
  exact hq.livesOn hl hafter (fun o => (honest o).2) hfresh

end identities

/-! ### What verdicts are worth -/

section runs
variable [NewerMessages] {r : Reconcilers} {moves : List Move}

/-- If passes alone write statuses, then after any run every verdict is on no generation to come,
one on the present generation says what validation says of the present payload, and over the life
of an identity (each being drawn once) verdicts go to no earlier generation. -/
theorem truthful_of_run (honest : ∀ o, .client (.updateStatus o) ∉ moves)
    (hrun : (opening .empty).run moves = some r) :
    (∀ key o c, r.stores.objects.objects.get? key = some o → o.verdict? = some c →
      c.observedGeneration ≤ o.metadata.generation ∧
        (c.observedGeneration = o.metadata.generation → c.Tells (validate o.kind o.spec))) ∧
    ((drawn moves).Nodup → ∀ before after q key key' o o' c, moves = before ++ after →
      (opening .empty).run before = some q → q.stores.objects.objects.get? key = some o →
      r.stores.objects.objects.get? key' = some o' → o'.metadata.uid = o.metadata.uid →
      o.verdict? = some c →
        ∃ c', o'.verdict? = some c' ∧ c.observedGeneration ≤ c'.observedGeneration) := by
  constructor
  · intro key o c ho hc
    have htruthful := (opening_honest.run hrun honest).truthful key o ho
    exact ⟨htruthful.seen c hc, htruthful.tells c hc⟩
  · rintro hdrawn before after q key key' o o' c rfl hq ho ho' huid hc
    rw [run_append, hq, Option.bind_some] at hrun
    have hl := livesOn_of_run honest hdrawn hq hrun ho
    exact (hl key' o' ho' huid).2.seen c hc

end runs

/-- In the race the verdict goes from the first payload to the second, and is true of it. -/
theorem truthful_after_race :
    ∃ o c o' c', (inRace 3).stores.objects.objects.get? (cluster []).key = some o ∧
      o.verdict? = some c ∧
      (inRace 8).stores.objects.objects.get? (cluster []).key = some o' ∧ o'.verdict? = some c' ∧
      c'.Tells (validate o'.kind o'.spec) ∧ c.observedGeneration < c'.observedGeneration ∧
      ∃ c'', o'.verdict? = some c'' ∧ c.observedGeneration ≤ c''.observedGeneration := by
  have honest : ∀ o, .client (.updateStatus o) ∉ raceMoves.take 8 := by
    simp [raceMoves]
  obtain ⟨htrue, hlater⟩ := truthful_of_run honest (run_raceMoves 8)
  have hfirst : ((inRace 3).stores.objects.objects.get? (cluster []).key).bind (fun o =>
      o.verdict?.map fun c => (o.metadata.uid, c.observedGeneration)) = some ("first", 1) := by
    decide +kernel
  have hlast : ((inRace 8).stores.objects.objects.get? (cluster []).key).bind (fun o =>
      o.verdict?.map fun c => (o.metadata.uid, o.metadata.generation, c.observedGeneration)) =
        some ("first", 2, 2) := by
    decide +kernel
  simp only [Option.bind_eq_some_iff, Option.map_eq_some_iff, Prod.mk.injEq] at hfirst hlast
  obtain ⟨o, ho, c, hc, huid, hseen⟩ := hfirst
  obtain ⟨o', ho', c', hc', huid', hgeneration, hseen'⟩ := hlast
  have hdrawn : (drawn (raceMoves.take 8)).Nodup := by decide +kernel
  refine ⟨o, c, o', c', ho, hc, ho', hc', ?_, ?_, ?_⟩
  · exact (htrue _ o' c' ho' hc').2 (hseen'.trans hgeneration.symm)
  · rw [hseen, hseen']
    decide
  · exact hlater hdrawn (raceMoves.take 3) (raceMoves.drop 3) (inRace 3) _ _ o o' c rfl
      (run_raceMoves 3) ho ho' (huid'.trans huid.symm) hc

end Reconcilers
end ControlPlane
