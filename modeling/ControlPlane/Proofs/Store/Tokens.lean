import ControlPlane.Proofs.Runs
import ControlPlane.Proofs.Store.Announcements

/-! # Tokens name states

Any number of clients create, update, apply, delete, get and list objects of one store, in any
order (`Clients.step`).  Most calls are one access to the store.  An apply that finds its object
there goes on with an update as a second one, and a listing looks at the entries one by one while
others write.

Every object that is put into the store is entered in a list, with the token that the caller of the
write held (`Clients.puts`).  The object put in the `i`-th place carries `i` as its token, and
whatever is stored, found or returned was put once (`Ledger`).  So a token stands for one state of
one object, and no two writes that hold the same one can put anything
(`Clients.tokens_of_run`). -/

namespace ControlPlane

open ObjectStore (Write smallListener)

/-! ### What a write puts into the store -/

/-- An object that a write put into the store, and the token that the caller held of the state
before, if any. -/
structure Put where
  held : String
  object : Object
deriving DecidableEq, Repr

namespace ObjectStore.Write

/-- The token without which the write is refused, or nothing. -/
def held : Write → String
  | update o | updateStatus o => o.metadata.resourceVersion
  | create _ _ | delete _ => ""

/-- The object that the caller gets. -/
def returned? (s : ObjectStore) (w : Write) : Option Object :=
  match w.answer s with
  | .ok o => o
  | .error _ => none

/-- The object that the write stores anew: the caller gets it, and it was not there before. -/
def put? (s : ObjectStore) (w : Write) : Option Put :=
  (w.returned? s).bind fun o => if s.objects.get? w.key = some o then none else some ⟨w.held, o⟩

/-- A write leaves the store as it was, takes an object away, or puts the next revision of one. -/
inductive Effect (s : ObjectStore) (w : Write) : Option Put → Option Object → ObjectStore → Prop
  | none (returned : Option Object) : (∀ o ∈ returned, s.objects.get? w.key = some o) →
      Effect s w none returned s
  | removed (key : ObjectKey) : w = .delete key → Effect s w none none (s.removed key)
  | put (change : Change) (o : Object) : o.metadata.resourceVersion = s.nextVersion →
      (w.held ≠ "" →
        ∃ before, s.objects.get? o.key = some before ∧ before.metadata.resourceVersion = w.held) →
      Effect s w (some ⟨w.held, o⟩) (some o) (s.commit change o)

section effect
variable {s : ObjectStore} {w : Write} {o stored incoming : Object} {change : Change}

theorem effect_of_commit (hanswer : w.answer s = .ok (some o))
    (hnew : s.objects.get? w.key ≠ some o)
    (htoken : o.metadata.resourceVersion = s.nextVersion)
    (hheld : w.held ≠ "" → ∃ before, s.objects.get? o.key = some before ∧
      before.metadata.resourceVersion = w.held) :
    Effect s w (w.put? s) (w.returned? s) (s.commit change o) := by
  have hreturned : w.returned? s = some o := by rw [returned?, hanswer]
  have hput : w.put? s = some ⟨w.held, o⟩ := by
    rw [put?, hreturned]
    exact if_neg hnew
  rw [hput, hreturned]
  exact .put change o htoken hheld

theorem effect_of_same (hanswer : w.answer s = .ok (some stored))
    (hget : s.objects.get? w.key = some stored) :
    Effect s w (w.put? s) (w.returned? s) s := by
  have hreturned : w.returned? s = some stored := by rw [returned?, hanswer]
  have hput : w.put? s = none := by
    rw [put?, hreturned]
    exact if_pos hget
  rw [hput, hreturned]
  refine .none _ fun o ho => ?_
  rwa [← Option.some.inj ho]

/-- A write that may go on holds the token of the stored object, if any. -/
theorem stored_of_current (hs : s.Sound) (hc : s.current incoming = .ok stored)
    (hkey : o.key = stored.key) (hheld : incoming.metadata.resourceVersion ≠ "") :
    ∃ before, s.objects.get? o.key = some before ∧
      before.metadata.resourceVersion = incoming.metadata.resourceVersion := by
  obtain ⟨hget, htoken⟩ := current_ok hc
  have hkeyed : stored.key = incoming.key := hs.keyed _ _ hget
  rw [hkey, hkeyed]
  exact ⟨stored, hget, (htoken.resolve_left hheld).symm⟩

theorem effect (hs : s.Sound) (w : Write) : Effect s w (w.put? s) (w.returned? s) (w.run s) := by
  have hout := w.outcome s
  generalize hanswer : w.answer s = x at hout
  generalize w.run s = t at hout ⊢
  cases hout with
  | failed w e =>
      have hreturned : w.returned? s = none := by rw [returned?, hanswer]
      rw [put?, hreturned]
      exact .none _ fun o ho => by cases ho
  | created stamp incoming hvalid hfree =>
      refine effect_of_commit hanswer ?_ rfl fun h => absurd rfl h
      rw [key, hfree]
      simp
  | sameSpec incoming stored hc hspec =>
      exact effect_of_same hanswer (current_ok hc).1
  | respecified incoming stored hc hspec =>
      refine effect_of_commit hanswer ?_ rfl (stored_of_current hs hc rfl)
      rw [key, (current_ok hc).1]
      exact respecified_ne hspec
  | sameStatus incoming stored hc hstatus =>
      exact effect_of_same hanswer (current_ok hc).1
  | restated incoming stored hc hstatus =>
      refine effect_of_commit hanswer ?_ rfl (stored_of_current hs hc rfl)
      rw [key, (current_ok hc).1]
      exact restated_ne hstatus
  | removed k stored hstored =>
      have hreturned : (delete k).returned? s = none := by rw [returned?, hanswer]
      rw [put?, hreturned]
      exact .removed k rfl

end effect
end ObjectStore.Write

/-! ### Clients of one store -/

/-- A call that is not over. -/
inductive OpenCall where
  /-- The object of an apply exists already and is still to be updated. -/
  | apply (object : Object)
  /-- The objects of a kind that were found so far. -/
  | list (kind : Kind) (found : Catalog ObjectKey Object)

structure Clients where
  store : ObjectStore
  calls : List OpenCall
  /-- All objects that were put into the store, in their order. -/
  puts : List Put
  /-- All objects that callers have got. -/
  returned : List Object

namespace Clients

inductive Move where
  | write (write : Write)
  | get (key : ObjectKey)
  /-- The first half of an apply, which tries to create the object. -/
  | apply (stamp : Stamp) (object : Object)
  | list (kind : Kind)
  /-- A listing finds the object of a key. -/
  | look (call : ℕ) (key : ObjectKey)
  /-- An apply updates its object, or a listing ends. -/
  | finish (call : ℕ)
deriving DecidableEq, Repr

def write (c : Clients) (w : Write) : Clients where
  store := w.run c.store
  calls := c.calls
  puts := c.puts ++ (w.put? c.store).toList
  returned := c.returned ++ (w.returned? c.store).toList

/-- An object as an apply updates it, whatever the state of the stored one. -/
def unconditional (o : Object) : Object :=
  { o with metadata := { o.metadata with resourceVersion := "" } }

/-- One move, if it can be made. -/
def step (c : Clients) : Move → Option Clients
  | .write w => some (c.write w)
  | .get key => some { c with returned := c.returned ++ (c.store.get key).toOption.toList }
  | .apply stamp o =>
    let d := c.write (.create stamp o)
    match (Write.create stamp o).answer c.store with
    | .error (.alreadyExists _) => some { d with calls := .apply o :: d.calls }
    | _ => some d
  | .list kind => some { c with calls := .list kind ∅ :: c.calls }
  | .look call key =>
    match c.calls[call]?, c.store.objects.get? key with
    | some (.list kind found), some o =>
      if key.kind = kind then
        some { c with calls := c.calls.set call (.list kind (found.insert key o)) }
      else none
    | _, _ => none
  | .finish call =>
    c.calls[call]?.map fun
      | .apply o =>
        { c.write (.update (unconditional o)) with calls := c.calls.eraseIdx call }
      | .list _ found =>
        { c with calls := c.calls.eraseIdx call, returned := c.returned ++ found.values }

/-- The moves one after the other, if all can be made. -/
def run (c : Clients) (moves : List Move) : Option Clients := moves.foldlM step c

/-- An empty store that nobody has called yet. -/
def opening : Clients := ⟨.empty, [], [], []⟩

/-! ### Calls that nobody disturbs -/

section undisturbed
variable {c : Clients} {kind : Kind}

theorem write_of_error {w : Write} {e : StoreError} (h : w.answer c.store = .error e) :
    c.write w = c := by
  have hrun : w.run c.store = c.store := (w.outcome c.store).unchanged (Or.inl ⟨e, h⟩)
  have hreturned : w.returned? c.store = none := by rw [Write.returned?, h]
  have hput : w.put? c.store = none := by rw [Write.put?, hreturned]; rfl
  simp [write, hrun, hreturned, hput]

theorem write_returned {w : Write} {o : Object} (h : w.answer c.store = .ok (some o)) :
    (c.write w).returned = c.returned ++ [o] := by
  simp [write, Write.returned?, h]

/-- An apply between whose halves nobody else moves. -/
theorem apply_undisturbed (c : Clients) (stamp : Stamp) (o : Object) :
    ∃ d, (c.run [.apply stamp o] = some d ∨ c.run [.apply stamp o, .finish 0] = some d) ∧
      d.calls = c.calls ∧
      match c.store.apply stamp o with
      | .ok (answer, store) => d.store = store ∧ d.returned = c.returned ++ [answer]
      | .error _ => d = c := by
  have hcreated : (Write.create stamp o).answer c.store =
      (c.store.create stamp o).map fun x => some x.1 := rfl
  unfold ObjectStore.apply
  cases hcreate : c.store.create stamp o with
  | ok created =>
      rw [hcreate] at hcreated
      refine ⟨c.write (.create stamp o), Or.inl ?_, rfl, ?_, write_returned hcreated⟩
      · simp [run, step, hcreated, Except.map]
      · simp [write, Write.run, hcreate]
  | error e =>
      rw [hcreate] at hcreated
      have hstill : c.write (.create stamp o) = c := write_of_error hcreated
      cases e with
      | notFound key | conflict key | invalid message | unavailable message =>
          refine ⟨c, Or.inl ?_, rfl, rfl⟩
          simp [run, step, hcreated, hstill, Except.map]
      | alreadyExists key =>
          have hupdated : (Write.update (unconditional o)).answer c.store =
              (c.store.update (unconditional o)).map fun x => some x.1 := rfl
          have hopened : c.step (.apply stamp o) =
              some { c with calls := .apply o :: c.calls } := by
            simp [step, hcreated, hstill, Except.map]
          refine ⟨c.write (.update (unconditional o)), Or.inr ?_, rfl, ?_⟩
          · rw [run, List.foldlM_cons, hopened]
            rfl
          · change match c.store.update (unconditional o) with
              | .ok (answer, store) => _ = store ∧ _ = c.returned ++ [answer]
              | .error _ => _ = c
            cases hupdate : c.store.update (unconditional o) with
            | ok updated =>
                rw [hupdate] at hupdated
                refine ⟨?_, write_returned hupdated⟩
                simp [write, Write.run, hupdate]
            | error e =>
                rw [hupdate] at hupdated
                exact write_of_error hupdated

/-- A listing finds the objects that it looks at. -/
theorem run_looks {keys : List ObjectKey}
    (hkeys : ∀ k ∈ keys, k.kind = kind ∧ ∃ o, c.store.objects.get? k = some o)
    (found : Catalog ObjectKey Object) :
    ∃ found', ({ c with calls := .list kind found :: c.calls } : Clients).run
        (keys.map (.look 0)) = some { c with calls := .list kind found' :: c.calls } ∧
      ∀ k, found'.get? k = if k ∈ keys then c.store.objects.get? k else found.get? k := by
  induction keys generalizing found with
  | nil => exact ⟨found, rfl, fun k => rfl⟩
  | cons key rest ih =>
      obtain ⟨⟨hkind, o, ho⟩, hrest⟩ := List.forall_mem_cons.mp hkeys
      obtain ⟨found', hrun, hfound'⟩ := ih hrest (found.insert key o)
      have hlook : ({ c with calls := .list kind found :: c.calls } : Clients).step
          (.look 0 key) = some { c with calls := .list kind (found.insert key o) :: c.calls } := by
        simp [step, ho, hkind]
      refine ⟨found', ?_, fun k => ?_⟩
      · rw [run, List.map_cons, List.foldlM_cons, hlook]
        exact hrun
      · rw [hfound', Catalog.get?_insert]
        by_cases hk : k = key
        · subst hk
          simp [ho]
        · simp [hk]

/-- A listing during which nobody else moves. -/
theorem list_undisturbed (hs : c.store.Sound) (kind : Kind) :
    c.run (.list kind :: ((c.store.objects.keys.filter (·.kind = kind)).map (.look 0) ++
        [.finish 0])) =
      some { c with returned := c.returned ++ c.store.list kind } := by
  have hkeys : ∀ k ∈ c.store.objects.keys.filter (·.kind = kind),
      k.kind = kind ∧ ∃ o, c.store.objects.get? k = some o := by
    intro k hk
    obtain ⟨hmem, hkind⟩ := List.mem_filter.mp hk
    exact ⟨by simpa using hkind, Catalog.mem_keys_iff.mp hmem⟩
  obtain ⟨found, hrun, hfound⟩ := run_looks hkeys ∅
  have hall : found = c.store.objects.filter fun k _ => k.kind = kind := by
    refine Catalog.ext_get? fun k => ?_
    rw [hfound, Catalog.get?_filter]
    cases hget : c.store.objects.get? k with
    | none => exact ite_self none
    | some o =>
        have hmem : k ∈ c.store.objects.keys := Catalog.mem_keys_iff.mpr ⟨o, hget⟩
        by_cases hkind : k.kind = kind
        · rw [if_pos (List.mem_filter.mpr ⟨hmem, decide_eq_true hkind⟩)]
          simp [hkind, Option.filter_some]
        · rw [if_neg fun hk => hkind (hkeys k hk).1]
          simp only [hkind, decide_false, Option.filter_some]
          rfl
  have hvalues : found.values = c.store.list kind := by
    rw [hall]
    unfold ObjectStore.list Catalog.values Catalog.filter
    rw [List.filter_map]
    refine congrArg (List.map _) (List.filter_congr fun e he => ?_)
    have hkeyed : e.2.key = e.1 := hs.keyed _ _ (Catalog.mem_entries_iff.mp he)
    simp [← hkeyed, Object.key]
  have hfinish : ({ c with calls := .list kind found :: c.calls } : Clients).step (.finish 0) =
      some { c with returned := c.returned ++ c.store.list kind } := by
    simp [step, hvalues]
  have hlist : c.step (.list kind) = some { c with calls := .list kind ∅ :: c.calls } := rfl
  unfold run at hrun ⊢
  rw [List.foldlM_cons, hlist, Option.bind_eq_bind, Option.bind_some, run_concat, hrun]
  exact hfinish

end undisturbed

/-! ### Every token was given out once -/

/-- The object was put into the store at some time. -/
def Knows (c : Clients) (o : Object) : Prop := ∃ p ∈ c.puts, p.object = o

/-- What was put carries the numbers from one on, all that is seen was put, and a token that a write
has used up is not that of any stored object. -/
structure Ledger (c : Clients) : Prop where
  sound : c.store.Sound
  count : c.puts.length = c.store.revision
  numbered : ∀ i p, c.puts[i]? = some p → p.object.metadata.resourceVersion = toString (i + 1)
  stored : ∀ key o, c.store.objects.get? key = some o → c.Knows o
  found : ∀ kind found, OpenCall.list kind found ∈ c.calls →
    ∀ key o, found.get? key = some o → c.Knows o
  returned : ∀ o ∈ c.returned, c.Knows o
  spent : ∀ p ∈ c.puts, p.held ≠ "" →
    (∃ q ∈ c.puts, q.object.metadata.resourceVersion = p.held) ∧
      ∀ key o, c.store.objects.get? key = some o → o.metadata.resourceVersion ≠ p.held
  once : c.puts.Pairwise fun p q => p.held ≠ "" → p.held ≠ q.held

section ledger
variable {c d : Clients} {w : Write} {o o' : Object}

/-- Objects that were put with one token are one object. -/
theorem Ledger.eq_of_token (h : c.Ledger) (ho : c.Knows o) (ho' : c.Knows o')
    (htoken : o.metadata.resourceVersion = o'.metadata.resourceVersion) : o = o' := by
  obtain ⟨p, hp, rfl⟩ := ho
  obtain ⟨q, hq, rfl⟩ := ho'
  obtain ⟨i, hi⟩ := List.mem_iff_getElem?.mp hp
  obtain ⟨j, hj⟩ := List.mem_iff_getElem?.mp hq
  rw [h.numbered i p hi, h.numbered j q hj] at htoken
  have hplace : i + 1 = j + 1 := Text.Integer.toString_injective htoken
  obtain rfl : i = j := Nat.succ.inj hplace
  exact congrArg Put.object (Option.some.inj (hi.symm.trans hj))

/-- The next token is not that of any object put before. -/
theorem Ledger.token_ne_next (h : c.Ledger) (ho : c.Knows o) :
    o.metadata.resourceVersion ≠ c.store.nextVersion := by
  obtain ⟨p, hp, rfl⟩ := ho
  obtain ⟨i, hi⟩ := List.mem_iff_getElem?.mp hp
  intro htoken
  rw [h.numbered i p hi] at htoken
  have hplace : i + 1 = c.store.revision + 1 := Text.Integer.toString_injective htoken
  have hlt := (List.getElem?_eq_some_iff.mp hi).1
  rw [h.count] at hlt
  omega

/-- Calls come and go, and what they have found and return was put. -/
theorem Ledger.called (h : c.Ledger) {calls : List OpenCall} {returned : List Object}
    (hfound : ∀ kind found, OpenCall.list kind found ∈ calls →
      ∀ key o, found.get? key = some o → c.Knows o)
    (hreturned : ∀ o ∈ returned, c.Knows o) :
    Ledger { c with calls := calls, returned := c.returned ++ returned } where
  sound := h.sound
  count := h.count
  numbered := h.numbered
  stored := h.stored
  found := hfound
  returned o ho := (List.mem_append.mp ho).elim (h.returned o) (hreturned o)
  spent := h.spent
  once := h.once

/-- After a commit a key has the object of the commit, or another key has what it had. -/
theorem commit_or_other {s : ObjectStore} {change : Change} {key : ObjectKey}
    (h : (s.commit change o).objects.get? key = some o') :
    o' = o ∨ key ≠ o.key ∧ s.objects.get? key = some o' := by
  have hget : (s.commit change o).objects.get? key =
      if key = o.key then some o else s.objects.get? key :=
    Catalog.get?_insert _ _ _ _
  rw [hget] at h
  split at h
  · exact Or.inl (Option.some.inj h).symm
  · rename_i hne
    exact Or.inr ⟨hne, h⟩

section put
variable {change : Change} {before : Object} {key : ObjectKey}

/-- A token that was used up before does not come back. -/
theorem Ledger.still_spent (h : c.Ledger)
    (htoken : o.metadata.resourceVersion = c.store.nextVersion) {p : Put} (hp : p ∈ c.puts)
    (hne : p.held ≠ "")
    (ho' : (c.store.commit change o).objects.get? key = some o') :
    o'.metadata.resourceVersion ≠ p.held := by
  obtain ⟨⟨q, hq, hgiven⟩, hfree⟩ := h.spent p hp hne
  rcases commit_or_other ho' with rfl | ⟨-, hkept⟩
  · rw [htoken, ← hgiven]
    exact (h.token_ne_next ⟨q, hq, rfl⟩).symm
  · exact hfree key o' hkept

/-- The token of the object that is replaced is used up. -/
theorem Ledger.newly_spent (h : c.Ledger)
    (htoken : o.metadata.resourceVersion = c.store.nextVersion)
    (hbefore : c.store.objects.get? o.key = some before)
    (ho' : (c.store.commit change o).objects.get? key = some o') :
    o'.metadata.resourceVersion ≠ before.metadata.resourceVersion := by
  have hknown : c.Knows before := h.stored _ _ hbefore
  rcases commit_or_other ho' with rfl | ⟨hother, hkept⟩
  · rw [htoken]
    exact (h.token_ne_next hknown).symm
  · -- another object with the token would be the one that was replaced
    intro hsame
    obtain rfl := h.eq_of_token (h.stored key o' hkept) hknown hsame
    exact hother ((h.sound.keyed _ _ hkept).symm.trans (h.sound.keyed _ _ hbefore))

/-- An object that is put is entered under the next number, and the token that was held for it is
not to be found any more. -/
theorem Ledger.put (h : c.Ledger) {held : String} (hsound : (c.store.commit change o).Sound)
    (htoken : o.metadata.resourceVersion = c.store.nextVersion)
    (hheld : held ≠ "" → ∃ before, c.store.objects.get? o.key = some before ∧
      before.metadata.resourceVersion = held) :
    Ledger ⟨c.store.commit change o, c.calls, c.puts ++ [⟨held, o⟩], c.returned ++ [o]⟩ := by
  have hold : ∀ {o'}, c.Knows o' → ∃ p ∈ c.puts ++ [⟨held, o⟩], p.object = o' := by
    rintro o' ⟨p, hp, rfl⟩
    exact ⟨p, List.mem_append_left _ hp, rfl⟩
  have hnew : ∃ p ∈ c.puts ++ [⟨held, o⟩], p.object = o := ⟨⟨held, o⟩, by simp, rfl⟩
  exact {
    sound := hsound
    count := by
      rw [List.length_append, h.count]
      rfl
    numbered := fun i p hp => by
      rw [List.getElem?_append] at hp
      split at hp
      · exact h.numbered i p hp
      · obtain ⟨hplace, rfl⟩ : i = c.puts.length ∧ (⟨held, o⟩ : Put) = p := by
          obtain ⟨hlt, heq⟩ := List.getElem?_eq_some_iff.mp hp
          rw [List.length_singleton] at hlt
          exact ⟨by omega, by simpa using heq⟩
        rw [hplace, h.count]
        exact htoken
    stored := fun key o' ho' => (commit_or_other ho').elim (fun heq => heq ▸ hnew) fun hkept =>
      hold (h.stored key o' hkept.2)
    found := fun kind found hfound key o' ho' => hold (h.found kind found hfound key o' ho')
    returned := fun o' ho' => (List.mem_append.mp ho').elim (fun hin => hold (h.returned o' hin))
      fun hin => (List.mem_singleton.mp hin) ▸ hnew
    spent := fun p hp hne => by
      rcases List.mem_append.mp hp with hp | hp
      · obtain ⟨q, hq, hgiven⟩ := (h.spent p hp hne).1
        exact ⟨⟨q, List.mem_append_left _ hq, hgiven⟩, fun key o' ho' =>
          h.still_spent htoken hp hne ho'⟩
      · obtain rfl := List.mem_singleton.mp hp
        obtain ⟨before, hbefore, rfl⟩ := hheld hne
        obtain ⟨q, hq, hgiven⟩ := hold (h.stored _ _ hbefore)
        exact ⟨⟨q, hq, hgiven ▸ rfl⟩, fun key o' ho' => h.newly_spent htoken hbefore ho'⟩
    once := by
      refine List.pairwise_append.mpr ⟨h.once, List.pairwise_singleton _ _, fun p hp q hq hne => ?_⟩
      obtain rfl := List.mem_singleton.mp hq
      by_cases hcond : held = ""
      · exact hcond ▸ hne
      · obtain ⟨before, hbefore, rfl⟩ := hheld hcond
        exact ((h.spent p hp hne).2 _ _ hbefore).symm }

end put

/-- Objects are taken away or none is, and what was stored is returned. -/
theorem Ledger.fewer (h : c.Ledger) {t : ObjectStore} {returned : List Object} (hsound : t.Sound)
    (hrevision : t.revision = c.store.revision)
    (hfewer : ∀ key o, t.objects.get? key = some o → c.store.objects.get? key = some o)
    (hreturned : ∀ o ∈ returned, c.Knows o) :
    Ledger ⟨t, c.calls, c.puts, c.returned ++ returned⟩ where
  sound := hsound
  count := h.count.trans hrevision.symm
  numbered := h.numbered
  stored key o ho := h.stored key o (hfewer key o ho)
  found := h.found
  returned o ho := (List.mem_append.mp ho).elim (h.returned o) (hreturned o)
  spent p hp hne := (h.spent p hp hne).imp_right fun hfree key o ho =>
    hfree key o (hfewer key o ho)
  once := h.once

/-- A write enters the object that it puts. -/
theorem Ledger.write (h : c.Ledger) (w : Write) : (c.write w).Ledger := by
  have hsound := Write.run_sound h.sound w
  have heffect := Write.effect h.sound w
  unfold Clients.write
  generalize w.put? c.store = put at heffect ⊢
  generalize w.returned? c.store = returned at heffect ⊢
  generalize w.run c.store = t at hsound heffect ⊢
  cases heffect with
  | put change o htoken hheld => exact h.put hsound htoken hheld
  | none returned hgot =>
      rw [Option.toList_none, List.append_nil]
      exact h.fewer hsound rfl (fun _ _ ho => ho) fun o ho =>
        h.stored _ o (hgot o (Option.mem_toList.mp ho))
  | removed key hw =>
      rw [Option.toList_none, List.append_nil]
      refine h.fewer hsound rfl (fun _ _ ho => ObjectStore.get?_of_removed ho) fun o ho => ?_
      cases ho

theorem Ledger.step (h : c.Ledger) {m : Move} (hm : c.step m = some d) : d.Ledger := by
  cases m with
  | write w =>
      obtain rfl := Option.some.inj hm
      exact h.write w
  | get key =>
      obtain rfl := Option.some.inj hm
      refine h.called h.found fun o ho => ?_
      unfold ObjectStore.get at ho
      split at ho
      · cases ho
      · rename_i stored hstored
        obtain rfl : o = stored := List.mem_singleton.mp ho
        exact h.stored key o hstored
  | apply stamp o =>
      have hwritten := h.write (.create stamp o)
      simp only [Clients.step] at hm
      split at hm
      · obtain rfl := Option.some.inj hm
        refine { hwritten with found := fun kind found hfound => ?_ }
        rcases List.mem_cons.mp hfound with hnow | hfound
        · cases hnow
        · exact hwritten.found kind found hfound
      · obtain rfl := Option.some.inj hm
        exact hwritten
  | list kind =>
      obtain rfl := Option.some.inj hm
      refine { h with found := fun kind' found hfound key o ho => ?_ }
      rcases List.mem_cons.mp hfound with hnow | hfound
      · obtain ⟨rfl, rfl⟩ := OpenCall.list.inj hnow
        cases ho
      · exact h.found kind' found hfound key o ho
  | look call key =>
      simp only [Clients.step] at hm
      split at hm
      · rename_i kind found o hcall hstored
        split at hm
        · obtain rfl := Option.some.inj hm
          refine { h with found := fun kind' found' hfound k o' ho' => ?_ }
          rcases List.mem_or_eq_of_mem_set hfound with hfound | hnow
          · exact h.found kind' found' hfound k o' ho'
          · obtain ⟨rfl, rfl⟩ := OpenCall.list.inj hnow
            rw [Catalog.get?_insert] at ho'
            split at ho'
            · obtain rfl := Option.some.inj ho'
              exact h.stored key o hstored
            · exact h.found _ found (List.mem_of_getElem? hcall) k o' ho'
        · cases hm
      · cases hm
  | finish call =>
      obtain ⟨pending, hcall, rfl⟩ := Option.map_eq_some_iff.mp hm
      cases pending with
      | apply o =>
          have hwritten := h.write (.update (unconditional o))
          exact { hwritten with
            found := fun kind found hfound =>
              hwritten.found kind found (List.mem_of_mem_eraseIdx hfound) }
      | list kind found =>
          have hfound := h.found kind found (List.mem_of_getElem? hcall)
          refine h.called
            (fun kind' found' hin => h.found kind' found' (List.mem_of_mem_eraseIdx hin))
            fun o ho => ?_
          obtain ⟨key, hkey⟩ := Catalog.mem_values_iff.mp ho
          exact hfound key o hkey

theorem opening_ledger : opening.Ledger where
  sound := ObjectStore.empty_sound
  count := rfl
  numbered i p hp := by cases hp
  stored key o ho := by cases ho
  found kind found hfound := by cases hfound
  returned o ho := by cases ho
  spent p hp := by cases hp
  once := List.Pairwise.nil

theorem Ledger.run (h : c.Ledger) {moves : List Move} (hrun : c.run moves = some d) : d.Ledger :=
  run_keeps h (fun _ _ _ _ hq hm => hq.step hm) hrun

/-- A write that changes the store takes an object away, or puts one under the next number. -/
theorem Ledger.numbered_write (h : c.Ledger) (hchanges : w.run c.store ≠ c.store) :
    (∃ key, w = .delete key) ∨ ∃ o, w.returned? c.store = some o ∧
      o.metadata.resourceVersion = toString (c.puts.length + 1) ∧
      (c.write w).puts = c.puts ++ [⟨w.held, o⟩] := by
  have heffect := Write.effect h.sound w
  unfold Clients.write
  generalize w.put? c.store = put at heffect ⊢
  generalize w.returned? c.store = returned at heffect ⊢
  generalize w.run c.store = t at hchanges heffect ⊢
  cases heffect with
  | none returned hgot => exact absurd rfl hchanges
  | removed key hw => exact Or.inl ⟨key, hw⟩
  | put change o htoken hheld =>
      rw [h.count]
      exact Or.inr ⟨o, rfl, htoken, rfl⟩

/-- A write that holds the token of a returned object goes through only if this object is stored. -/
theorem Ledger.stored_of_held (h : c.Ledger) (hheld : w.held ≠ "")
    (hok : ∃ answer, w.answer c.store = .ok answer) (ho : c.Knows o)
    (htoken : o.metadata.resourceVersion = w.held) :
    c.store.objects.get? w.key = some o := by
  obtain ⟨answer, hanswer⟩ := hok
  have hcurrent : ∀ {incoming stored : Object}, c.store.current incoming = .ok stored →
      incoming.metadata.resourceVersion ≠ "" →
      o.metadata.resourceVersion = incoming.metadata.resourceVersion →
      c.store.objects.get? incoming.key = some o := by
    intro incoming stored hc hne htoken
    obtain ⟨hget, hor⟩ := ObjectStore.current_ok hc
    have hsame : o.metadata.resourceVersion = stored.metadata.resourceVersion :=
      htoken.trans (hor.resolve_left hne)
    obtain rfl := h.eq_of_token ho (h.stored _ _ hget) hsame
    exact hget
  have hout := w.outcome c.store
  rw [hanswer] at hout
  generalize w.run c.store = t at hout
  cases hout with
  | created stamp incoming => exact absurd rfl hheld
  | removed key => exact absurd rfl hheld
  | sameSpec incoming stored hc => exact hcurrent hc hheld htoken
  | respecified incoming stored hc => exact hcurrent hc hheld htoken
  | sameStatus incoming stored hc => exact hcurrent hc hheld htoken
  | restated incoming stored hc => exact hcurrent hc hheld htoken

end ledger

/-- However clients' calls interleave, the objects that writes put into the store are numbered one
after the other, and returned objects with one token are one object.  So a write that holds a token
goes through only if the object stored is the one the token came with, and of all writes that hold
one token at most one changes anything. -/
theorem tokens_of_run {moves : List Move} {c : Clients} (hrun : opening.run moves = some c) :
    (∀ i p, c.puts[i]? = some p → p.object.metadata.resourceVersion = toString (i + 1)) ∧
    (∀ w : Write, w.run c.store ≠ c.store → (∃ key, w = .delete key) ∨
      ∃ o, w.returned? c.store = some o ∧
        o.metadata.resourceVersion = toString (c.puts.length + 1) ∧
        (c.write w).puts = c.puts ++ [⟨w.held, o⟩]) ∧
    (∀ o ∈ c.returned, ∀ o' ∈ c.returned,
      o.metadata.resourceVersion = o'.metadata.resourceVersion → o = o') ∧
    (∀ w : Write, w.held ≠ "" → (∃ answer, w.answer c.store = .ok answer) →
      ∀ o ∈ c.returned, o.metadata.resourceVersion = w.held →
        c.store.objects.get? w.key = some o) ∧
    c.puts.Pairwise fun p q => p.held ≠ "" → p.held ≠ q.held := by
  have h := opening_ledger.run hrun
  refine ⟨h.numbered, fun w hchanges => h.numbered_write hchanges, fun o ho o' ho' htoken => ?_,
    fun w hheld hok o ho htoken => ?_, h.once⟩
  · exact h.eq_of_token (h.returned o ho) (h.returned o' ho') htoken
  · exact h.stored_of_held hheld hok (h.returned o ho) htoken

/-! ### Two clients with one token -/

/-- An object with the token of the state that it was made from. -/
def heldAt (version : String) (o : Object) : Object :=
  { o with metadata := { o.metadata with resourceVersion := version } }

/-- Two clients update the object as they have both read it.  While it is listed the object is
deleted, created again and applied to. -/
def contention : List Move :=
  [.write (.create ⟨"first", ⟨0, 0⟩⟩ (smallListener 1)), .get (smallListener 1).key,
    .get (smallListener 1).key, .write (.update (heldAt "1" (smallListener 2))),
    .write (.update (heldAt "1" (smallListener 3))), .list .listener,
    .look 0 (smallListener 1).key, .write (.delete (smallListener 1).key),
    .write (.create ⟨"second", ⟨1, 0⟩⟩ (smallListener 1)),
    .apply ⟨"third", ⟨2, 0⟩⟩ (smallListener 4), .finish 0, .finish 0]

/-- Where these moves lead. -/
def afterContention : Clients := (opening.run contention).get (by decide +kernel)

theorem tokens_after_contention :
    opening.run contention = some afterContention ∧
      afterContention.puts.map (fun p => (p.held, p.object.metadata.resourceVersion)) =
        [("", "1"), ("1", "2"), ("", "3"), ("", "4")] ∧
      (afterContention.puts.Pairwise fun p q => p.held ≠ "" → p.held ≠ q.held) ∧
      ∃ o ∈ afterContention.returned,
        afterContention.store.objects.get? (smallListener 1).key = some o := by
  have hrun : opening.run contention = some afterContention := (Option.some_get _).symm
  obtain ⟨-, -, -, hstored, honce⟩ := tokens_of_run hrun
  have hread : ∃ o ∈ afterContention.returned, o.metadata.resourceVersion = "4" := by
    decide +kernel
  obtain ⟨o, ho, htoken⟩ := hread
  -- an update that holds the last token goes through
  have hok : ∃ answer, (Write.update (heldAt "4" (smallListener 5))).answer
      afterContention.store = .ok answer := ⟨_, rfl⟩
  exact ⟨hrun, by decide +kernel, honce, o, ho,
    hstored (.update (heldAt "4" (smallListener 5))) (by decide) hok o ho htoken⟩

end Clients
end ControlPlane
