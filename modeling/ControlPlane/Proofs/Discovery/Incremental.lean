import ControlPlane.Proofs.Catalog
import ControlPlane.Proofs.Discovery.Exchange

/-! # Incremental streams converge

A proxy is followed through the turns of a session: what it has asked for of a type and what it
holds of it (`mirror?`).  Whatever the requests and the snapshots, the session keeps track of what
the proxy holds, and after every snapshot and every request that changes the interest this is
exactly the selection of the snapshot.  So a proxy on a stream that has nothing left to take up
holds the selection of the current snapshot (`mirror_convergence`). -/

namespace ControlPlane.Discovery.Incremental

/-! ### What a proxy holds -/

/-- The versions of what a snapshot has under the wanted names; of several resources with one name
the last counts. -/
def selection (wants : String → Bool) (kind : Kind) (snapshot : Snapshot) (name : String) :
    Option String :=
  if wants name then
    ((snapshot.resources kind).filter fun e => e.envoyName = name).getLast?.map fun e =>
      bodyVersion e.body
  else none

/-- Resources taken up one after the other. -/
def deliver (held : Catalog String String) (items : List Item) : Catalog String String :=
  items.foldl (fun h i => h.insert i.name i.version) held

/-- What a proxy has asked for, the wildcard included, and what it holds, of one type. -/
structure Mirror where
  asks : String → Bool
  held : Catalog String String

namespace Mirror

/-- The proxy before its first request.  One that names no resources is for all. -/
def new (r : Request) : Mirror where
  asks name := name = wildcard && r.subscribe.isEmpty
  held := r.initial

def ask (m : Mirror) (r : Request) : Mirror where
  asks name := !r.unsubscribe.contains name && (r.subscribe.contains name || m.asks name)
  held := r.unsubscribe.foldl Catalog.erase m.held

def take (m : Mirror) (r : Response) : Mirror :=
  { m with held := r.removed.foldl Catalog.erase (deliver m.held r.resources) }

def wants (m : Mirror) (name : String) : Bool := m.asks wildcard || m.asks name

/-- The proxy holds what it wants of the snapshot and nothing else. -/
def Exact (m : Mirror) (kind : Kind) (snapshot : Snapshot) : Prop :=
  ∀ name, m.held.get? name = selection m.wants kind snapshot name

/-- A type is known from the first request on that is not a rejection. -/
def onRequest (known : Option Mirror) (r : Request) : Option Mirror :=
  if known.isNone && r.isRejection then none else some ((known.getD (.new r)).ask r)

end Mirror

def delta? : Reply → Option Response
  | .delta response => some response
  | .whole _ => none

/-- The request for a type that a turn was taken at. -/
def requestFor? (typeUrl : String) (t : Turn) : Option Request :=
  match t.cause with
  | .ask (.delta r) => if r.typeUrl = typeUrl then some r else none
  | _ => none

/-- The responses of a turn for a type. -/
def responsesFor (typeUrl : String) (t : Turn) : List Response :=
  (t.replies.filterMap delta?).filter fun r => r.typeUrl = typeUrl

def Mirror.onTurn (typeUrl : String) (known : Option Mirror) (t : Turn) : Option Mirror :=
  ((requestFor? typeUrl t).elim known (onRequest known)).map fun m =>
    (responsesFor typeUrl t).foldl take m

/-- What the proxy has asked for and holds of a type after these turns, once the type is known. -/
def mirror? (typeUrl : String) (turns : List Turn) : Option Mirror :=
  turns.foldl (Mirror.onTurn typeUrl) none

/-- The turn is taken at a snapshot, or at a request for the type that is the first or changes the
interest. -/
def Settles (typeUrl : String) (earlier : List Turn) (t : Turn) : Prop :=
  t.cause = .news ∨ ∃ r, requestFor? typeUrl t = some r ∧ r.isRejection = false ∧
    (mirror? typeUrl earlier = none ∨ r.subscribe ≠ [] ∨ r.unsubscribe ≠ [])

/-- Rejections carry no names. -/
def Request.IsPlain (r : Request) : Prop :=
  r.isRejection = true → r.subscribe = [] ∧ r.unsubscribe = []

/-! ### Responses -/

section offers
variable {state : Catalog String String × List Item} {held : Catalog String String} {name : String}

theorem offer_get? (state : Catalog String String × List Item) (e : Entry) (name : String) :
    (Subscription.offer state e).1.get? name =
      if name = e.envoyName then some (bodyVersion e.body) else state.1.get? name := by
  unfold Subscription.offer
  dsimp only
  split
  · rename_i hheld
    split
    · rename_i hname
      rw [hname, hheld]
    · rfl
  · exact Catalog.get?_insert _ _ _ _

/-- What is sent last under a name is the last resource with this name. -/
theorem offers_get? (l : List Entry) (state : Catalog String String × List Item) (name : String) :
    (l.foldl Subscription.offer state).1.get? name =
      ((l.filter fun e => e.envoyName = name).getLast?.map fun e => bodyVersion e.body).or
        (state.1.get? name) := by
  induction l using List.reverseRecOn with
  | nil => rfl
  | append_singleton l e ih =>
      rw [List.foldl_append, List.foldl_cons, List.foldl_nil, offer_get?, ih, List.filter_append,
        List.getLast?_append]
      by_cases hname : name = e.envoyName
      · simp [hname]
      · simp [hname, Ne.symm hname]

/-- The proxy follows what is sent under a name, or holds nothing new under it. -/
theorem deliver_offer (e : Entry)
    (h : (deliver held state.2).get? name = state.1.get? name) :
    (deliver held (Subscription.offer state e).2).get? name =
      (Subscription.offer state e).1.get? name := by
  unfold Subscription.offer
  dsimp only
  split
  · exact h
  · rw [deliver, List.foldl_append, List.foldl_cons, List.foldl_nil, Catalog.get?_insert,
      Catalog.get?_insert]
    split
    · rfl
    · exact h

theorem deliver_offers (l : List Entry)
    (h : (deliver held state.2).get? name = state.1.get? name) :
    (deliver held (l.foldl Subscription.offer state).2).get? name =
      (l.foldl Subscription.offer state).1.get? name := by
  induction l generalizing state with
  | nil => exact h
  | cons e rest ih => exact ih (deliver_offer e h)

theorem deliver_offers_of_absent {l : List Entry} (habsent : ∀ e ∈ l, e.envoyName ≠ name) :
    (deliver held (l.foldl Subscription.offer state).2).get? name =
      (deliver held state.2).get? name := by
  induction l generalizing state with
  | nil => rfl
  | cons e rest ih =>
      rw [List.foldl_cons, ih fun e' he' => habsent e' (List.mem_cons_of_mem _ he')]
      unfold Subscription.offer
      dsimp only
      split
      · rfl
      · rw [deliver, List.foldl_append, List.foldl_cons, List.foldl_nil]
        exact Catalog.get?_insert_of_ne _ _ (Ne.symm (habsent e List.mem_cons_self))

end offers

section diff
variable (s : Subscription) (snapshot : Snapshot)

/-- What is sent, and what the proxy holds after it has taken all of it up. -/
def offers : Catalog String String × List Item :=
  (s.wanted snapshot).foldl Subscription.offer (s.sent, [])

/-- Whether a snapshot has something wanted under a name. -/
def offersName (name : String) : Bool := (s.wanted snapshot).any fun e => e.envoyName == name

theorem diff_eq : s.diff snapshot =
    ({ s with sent := (offers s snapshot).1.filter fun name _ => offersName s snapshot name },
      (offers s snapshot).2,
      (offers s snapshot).1.keys.filter fun name => !offersName s snapshot name) := by
  unfold Subscription.diff offers offersName
  simp only [Bool.not_not]

theorem diff_sent_get? (name : String) : (s.diff snapshot).1.sent.get? name =
    if offersName s snapshot name then (offers s snapshot).1.get? name else none := by
  rw [diff_eq, Catalog.get?_filter]
  cases (offers s snapshot).1.get? name with
  | none => simp
  | some v => simp [Option.filter_some]

theorem wanted_filter (name : String) :
    (s.wanted snapshot).filter (fun e => e.envoyName = name) =
      if s.wants name then (snapshot.resources s.kind).filter fun e => e.envoyName = name
      else [] := by
  unfold Subscription.wanted
  rw [List.filter_filter]
  split
  · rename_i hwants
    refine List.filter_congr fun e _ => ?_
    by_cases hname : e.envoyName = name
    · simp [hname, hwants]
    · simp [hname]
  · rename_i hwants
    refine List.filter_eq_nil_iff.mpr fun e _ => ?_
    by_cases hname : e.envoyName = name
    · simp [hname, hwants]
    · simp [hname]

theorem offersName_iff (name : String) : offersName s snapshot name = true ↔
    ∃ e ∈ s.wanted snapshot, e.envoyName = name := by
  unfold offersName
  simp only [List.any_eq_true, beq_iff_eq]

/-- The selection has the version of the last resource that is wanted under a name. -/
theorem selection_eq (name : String) : selection s.wants s.kind snapshot name =
    ((s.wanted snapshot).filter fun e => e.envoyName = name).getLast?.map fun e =>
      bodyVersion e.body := by
  rw [wanted_filter, selection]
  split <;> rfl

/-- After the difference the session has sent exactly the selection. -/
theorem diff_exact (name : String) :
    (s.diff snapshot).1.sent.get? name = selection s.wants s.kind snapshot name := by
  rw [diff_sent_get?, selection_eq, offers, offers_get?]
  cases hlast : ((s.wanted snapshot).filter fun e => e.envoyName = name).getLast? with
  | none =>
      have habsent : offersName s snapshot name = false := by
        rw [Bool.eq_false_iff, ne_eq, offersName_iff]
        rintro ⟨e, he, hname⟩
        rw [List.getLast?_eq_none_iff, List.filter_eq_nil_iff] at hlast
        exact hlast e he (decide_eq_true hname)
      rw [habsent]
      rfl
  | some e =>
      obtain ⟨he, hname⟩ := List.mem_filter.mp (List.mem_of_getLast? hlast)
      have hpresent : offersName s snapshot name = true :=
        (offersName_iff s snapshot name).mpr ⟨e, he, of_decide_eq_true hname⟩
      rw [if_pos hpresent]
      rfl

/-- A proxy that holds what the session believes it holds, at least under the names it still
wants, follows the session through the difference. -/
theorem diff_mirror {held : Catalog String String}
    (hwanted : ∀ name, s.wants name = true → held.get? name = s.sent.get? name)
    (hno : ∀ name, s.sent.get? name = none → held.get? name = none) :
    (s.diff snapshot).2.2.foldl Catalog.erase (deliver held (s.diff snapshot).2.1) =
      (s.diff snapshot).1.sent := by
  refine Catalog.ext_get? fun name => ?_
  rw [diff_sent_get?, Catalog.get?_foldl_erase, diff_eq]
  simp only [List.mem_filter, Bool.not_eq_eq_eq_not, Bool.not_true]
  cases hpresent : offersName s snapshot name with
  | true =>
      obtain ⟨e, he, hname⟩ := (offersName_iff s snapshot name).mp hpresent
      have hwants : s.wants name = true := hname ▸ (List.mem_filter.mp he).2
      rw [if_neg (by simp), if_pos rfl]
      exact deliver_offers _ (hwanted name hwants)
  | false =>
      have habsent : ∀ e ∈ s.wanted snapshot, e.envoyName ≠ name := fun e he hname =>
        Bool.eq_false_iff.mp hpresent ((offersName_iff s snapshot name).mpr ⟨e, he, hname⟩)
      rw [if_neg Bool.false_ne_true]
      split
      · rfl
      · rename_i hkept
        have hunsent : (offers s snapshot).1.get? name = none := by
          rw [Option.eq_none_iff_forall_ne_some]
          exact fun v hv => hkept ⟨Catalog.mem_keys_iff.mpr ⟨v, hv⟩, rfl⟩
        rw [offers, deliver_offers_of_absent habsent]
        refine hno name ?_
        rw [offers, offers_get?] at hunsent
        exact (Option.or_eq_none_iff.mp hunsent).2

end diff

/-- The session believes that the proxy holds what it wants of the snapshot and nothing else. -/
def SentExact (s : Subscription) (snapshot : Snapshot) : Prop :=
  ∀ name, s.sent.get? name = selection s.wants s.kind snapshot name

section respond
variable (s : Subscription) (typeUrl : String) (snapshot : Snapshot) (nonce : String)
  (always : Bool)

theorem respond_fst : (s.respond typeUrl snapshot nonce always).1 = (s.diff snapshot).1 := by
  unfold Subscription.respond
  dsimp only
  split <;> rfl

theorem respond_kind : (s.respond typeUrl snapshot nonce always).1.kind = s.kind := by
  rw [respond_fst]
  rfl

theorem respond_exact : SentExact (s.respond typeUrl snapshot nonce always).1 snapshot := by
  intro name
  rw [respond_fst, diff_exact]
  rfl

theorem respond_typeUrl {response : Response}
    (h : (s.respond typeUrl snapshot nonce always).2 = some response) :
    response.typeUrl = typeUrl := by
  unfold Subscription.respond at h
  dsimp only at h
  split at h
  · cases h
  · rw [← Option.some.inj h]

/-- A response, or none if there is nothing to say, leaves the proxy with what the session
believes it holds. -/
theorem respond_mirror {m : Mirror}
    (hwanted : ∀ name, s.wants name = true → m.held.get? name = s.sent.get? name)
    (hno : ∀ name, s.sent.get? name = none → m.held.get? name = none) :
    (s.respond typeUrl snapshot nonce always).2.toList.foldl Mirror.take m =
      { m with held := (s.respond typeUrl snapshot nonce always).1.sent } := by
  have hheld := diff_mirror s snapshot hwanted hno
  rw [respond_fst, ← hheld]
  unfold Subscription.respond
  dsimp only
  split
  · rename_i hquiet
    simp only [Bool.and_eq_true, List.isEmpty_iff] at hquiet
    rw [hquiet.1.1, hquiet.1.2]
    rfl
  · rfl

end respond

/-! ### Interest -/

/-- The interest of a subscription by what was asked for. -/
structure Interests (s : Subscription) (asks : String → Bool) : Prop where
  isWildcard : s.isWildcard = asks wildcard
  names : ∀ name, name ∈ s.names ↔ name ≠ wildcard ∧ asks name = true

section interest
variable {s : Subscription} {asks : String → Bool}

theorem Interests.wants_eq (h : Interests s asks) (name : String) :
    s.wants name = (asks wildcard || asks name) := by
  unfold Subscription.wants
  rw [h.isWildcard, Bool.eq_iff_iff, Bool.or_eq_true, Bool.or_eq_true, List.contains_iff_mem,
    h.names]
  constructor
  · exact Or.imp_right And.right
  · rintro (hall | hname)
    · exact Or.inl hall
    · by_cases hwildcard : name = wildcard
      · exact Or.inl (hwildcard ▸ hname)
      · exact Or.inr ⟨hwildcard, hname⟩

theorem Interests.add (h : Interests s asks) (n : String) :
    Interests (s.addInterest n) fun name => decide (name = n) || asks name := by
  unfold Subscription.addInterest
  split
  · rename_i hn
    refine ⟨by simp [hn], fun name => ?_⟩
    simp only [h.names, hn, Bool.or_eq_true, decide_eq_true_eq]
    tauto
  · rename_i hn
    refine ⟨by simp [h.isWildcard, Ne.symm hn], fun name => ?_⟩
    simp only [List.mem_cons, List.mem_filter, decide_eq_true_eq, h.names, Bool.or_eq_true]
    by_cases hname : name = n
    · simp [hname, hn]
    · simp [hname]

theorem Interests.drop (h : Interests s asks) (n : String) :
    Interests (s.dropInterest n) fun name => !decide (name = n) && asks name := by
  unfold Subscription.dropInterest
  split
  · rename_i hn
    refine ⟨by simp [hn], fun name => ?_⟩
    simp only [h.names, hn, Bool.and_eq_true, Bool.not_eq_true', decide_eq_false_iff_not]
    tauto
  · rename_i hn
    refine ⟨by simp [h.isWildcard, Ne.symm hn], fun name => ?_⟩
    simp only [List.mem_filter, decide_eq_true_eq, h.names, Bool.and_eq_true,
      Bool.not_eq_true', decide_eq_false_iff_not]
    tauto

theorem Interests.addAll (h : Interests s asks) (names : List String) :
    Interests (names.foldl Subscription.addInterest s) fun name =>
      names.contains name || asks name := by
  induction names generalizing s asks with
  | nil => simpa using h
  | cons n rest ih =>
      refine cast (congrArg (Interests _) (funext fun name => ?_)) (ih (h.add n))
      rw [List.contains_cons, ← Bool.or_assoc, Bool.or_comm (rest.contains name)]
      rfl

theorem Interests.dropAll (h : Interests s asks) (names : List String) :
    Interests (names.foldl Subscription.dropInterest s) fun name =>
      !names.contains name && asks name := by
  induction names generalizing s asks with
  | nil => simpa using h
  | cons n rest ih =>
      refine cast (congrArg (Interests _) (funext fun name => ?_)) (ih (h.drop n))
      rw [List.contains_cons, Bool.not_or, Bool.and_comm (!(name == n)), Bool.and_assoc]
      rfl

theorem addInterests_frame (names : List String) (s : Subscription) :
    (names.foldl Subscription.addInterest s).sent = s.sent ∧
      (names.foldl Subscription.addInterest s).kind = s.kind := by
  induction names generalizing s with
  | nil => exact ⟨rfl, rfl⟩
  | cons n rest ih =>
      have hone : (s.addInterest n).sent = s.sent ∧ (s.addInterest n).kind = s.kind := by
        unfold Subscription.addInterest
        split <;> exact ⟨rfl, rfl⟩
      obtain ⟨hsent, hkind⟩ := ih (s.addInterest n)
      exact ⟨hsent.trans hone.1, hkind.trans hone.2⟩

/-- What is no longer asked for by its name is taken as dropped. -/
theorem dropInterests_frame (names : List String) (s : Subscription) :
    (∀ name, (names.foldl Subscription.dropInterest s).sent.get? name =
      if name ≠ wildcard ∧ name ∈ names then none else s.sent.get? name) ∧
      (names.foldl Subscription.dropInterest s).kind = s.kind := by
  induction names generalizing s with
  | nil => exact ⟨fun name => by simp, rfl⟩
  | cons n rest ih =>
      obtain ⟨hsent, hkind⟩ := ih (s.dropInterest n)
      have hone : (s.dropInterest n).kind = s.kind := by
        unfold Subscription.dropInterest
        split <;> rfl
      refine ⟨fun name => ?_, hkind.trans hone⟩
      rw [List.foldl_cons, hsent]
      unfold Subscription.dropInterest
      by_cases hn : n = wildcard
      · rw [if_pos hn]
        by_cases hname : name = wildcard
        · simp [hname]
        · simp [hname, hn]
      · rw [if_neg hn]
        by_cases hname : name = n
        · simp [hname, hn]
        · simp [hname, Catalog.get?_erase]

end interest

/-! ### Requests and snapshots -/

/-- What a session knows of a type is what holds of its proxy. -/
structure Follows (s : Subscription) (m : Mirror) : Prop where
  interests : Interests s m.asks
  sent : s.sent = m.held

section follows
variable {s : Subscription} {m : Mirror}

theorem Follows.exact (h : Follows s m) {snapshot : Snapshot} (hexact : SentExact s snapshot) :
    m.Exact s.kind snapshot := by
  intro name
  have hwants : s.wants = m.wants := funext h.interests.wants_eq
  rw [← h.sent, hexact name, hwants]

theorem follows_new (kind : Kind) (r : Request) : Follows (.new kind r) (.new r) where
  interests := by
    refine ⟨by simp [Subscription.new, Mirror.new], fun name => ?_⟩
    simp only [Subscription.new, Mirror.new, List.not_mem_nil, Bool.and_eq_true,
      decide_eq_true_eq, false_iff]
    tauto
  sent := rfl

theorem applyInterest_kind (s : Subscription) (r : Request) : (s.applyInterest r).kind = s.kind :=
  (dropInterests_frame r.unsubscribe _).2.trans (addInterests_frame r.subscribe s).2

theorem Follows.interests_ask (h : Follows s m) (r : Request) :
    Interests (s.applyInterest r) (m.ask r).asks :=
  (h.interests.addAll r.subscribe).dropAll r.unsubscribe

/-- A request without names changes nothing. -/
theorem ask_of_nil {r : Request} (hsubscribe : r.subscribe = []) (hunsubscribe : r.unsubscribe = [])
    (m : Mirror) (s : Subscription) : m.ask r = m ∧ s.applyInterest r = s := by
  constructor
  · unfold Mirror.ask
    rw [hsubscribe, hunsubscribe]
    rfl
  · unfold Subscription.applyInterest
    rw [hsubscribe, hunsubscribe]
    rfl

/-- The proxy follows a request that names resources together with the response to it. -/
theorem Follows.respond_ask (h : Follows s m) (r : Request) (typeUrl : String)
    (snapshot : Snapshot) (nonce : String) (always : Bool) :
    Follows ((s.applyInterest r).respond typeUrl snapshot nonce always).1
      (((s.applyInterest r).respond typeUrl snapshot nonce always).2.toList.foldl Mirror.take
        (m.ask r)) := by
  have hinterests := h.interests_ask r
  have hsent : ∀ name, (s.applyInterest r).sent.get? name =
      if name ≠ wildcard ∧ name ∈ r.unsubscribe then none else m.held.get? name := by
    intro name
    rw [Subscription.applyInterest, (dropInterests_frame r.unsubscribe _).1 name,
      (addInterests_frame r.subscribe s).1, h.sent]
  have hheld : ∀ name, (m.ask r).held.get? name =
      if name ∈ r.unsubscribe then none else m.held.get? name :=
    fun name => Catalog.get?_foldl_erase _ _ _
  rw [respond_mirror]
  · exact ⟨⟨by rw [respond_fst]; exact hinterests.isWildcard,
      fun name => by rw [respond_fst]; exact hinterests.names name⟩, rfl⟩
  · -- a wildcard that is wanted has not been taken back
    intro name hwants
    rw [hsent, hheld]
    by_cases hname : name = wildcard
    · have hkept : name ∉ r.unsubscribe := by
        rw [hinterests.wants_eq, hname] at hwants
        intro hmem
        simp [Mirror.ask, hname ▸ hmem] at hwants
      simp [hname ▸ hkept, hname]
    · simp [hname]
  · intro name hnone
    rw [hsent] at hnone
    rw [hheld]
    by_cases hmem : name ∈ r.unsubscribe
    · exact if_pos hmem
    · rw [if_neg fun h => hmem h.2] at hnone
      rw [if_neg hmem]
      exact hnone

/-- The proxy follows a snapshot. -/
theorem Follows.respond (h : Follows s m) (typeUrl : String) (snapshot : Snapshot) (nonce : String)
    (always : Bool) : Follows (s.respond typeUrl snapshot nonce always).1
      ((s.respond typeUrl snapshot nonce always).2.toList.foldl Mirror.take m) := by
  rw [respond_mirror]
  · exact ⟨⟨by rw [respond_fst]; exact h.interests.isWildcard,
      fun name => by rw [respond_fst]; exact h.interests.names name⟩, rfl⟩
  · exact fun name _ => by rw [h.sent]
  · exact fun name hnone => by rw [← h.sent, hnone]

end follows

/-! ### Sessions -/

/-- What is known of a type is what holds of its proxy, and both begin with the same request. -/
inductive Known (resolve : String → Option Kind) (typeUrl : String) :
    Option Subscription → Option Mirror → Prop
  | absent : Known resolve typeUrl none none
  | present (s : Subscription) (m : Mirror) : resolve typeUrl = some s.kind → Follows s m →
      Known resolve typeUrl (some s) (some m)

/-- After a turn that settles a type its proxy holds exactly the selection of the snapshot. -/
def LeavesExact (resolve : String → Option Kind) (earlier : List Turn) (t : Turn) : Prop :=
  ∀ typeUrl m, Settles typeUrl earlier t → mirror? typeUrl (earlier ++ [t]) = some m →
    ∃ kind, resolve typeUrl = some kind ∧ m.Exact kind t.snapshot

section turns
variable {typeUrl : String} {turns : List Turn} {t : Turn}

theorem mirror?_snoc : mirror? typeUrl (turns ++ [t]) =
    ((requestFor? typeUrl t).elim (mirror? typeUrl turns)
      (Mirror.onRequest (mirror? typeUrl turns))).map fun m =>
        (responsesFor typeUrl t).foldl Mirror.take m := by
  unfold mirror?
  rw [List.foldl_append]
  rfl

/-- A turn that says nothing of a type. -/
theorem mirror?_same (hrequest : requestFor? typeUrl t = none)
    (hresponses : responsesFor typeUrl t = []) :
    mirror? typeUrl (turns ++ [t]) = mirror? typeUrl turns := by
  rw [mirror?_snoc, hrequest, hresponses]
  exact Option.map_id'

end turns

section known
variable {resolve : String → Option Kind} {r : Request} {known : Option Subscription}
  {mirror : Option Mirror}

/-- A request that is passed over changes nothing for the proxy. -/
theorem Known.passed (h : Known resolve r.typeUrl known mirror) (hplain : r.IsPlain)
    (hquiet : r.isRejection = true ∨ known ≠ none ∧ r.subscribe = [] ∧ r.unsubscribe = []) :
    Mirror.onRequest mirror r = mirror := by
  cases h with
  | absent =>
      have hrejection : r.isRejection = true := hquiet.resolve_right fun h => h.1 rfl
      unfold Mirror.onRequest
      rw [hrejection]
      rfl
  | present s m hskind hfollows =>
      obtain ⟨hsubscribe, hunsubscribe⟩ : r.subscribe = [] ∧ r.unsubscribe = [] :=
        hquiet.elim hplain And.right
      exact congrArg some (ask_of_nil hsubscribe hunsubscribe m s).1

/-- A request that is the first or changes the interest. -/
theorem Known.answered (h : Known resolve r.typeUrl known mirror) {kind : Kind}
    (hkind : resolve r.typeUrl = some kind) (hno : r.isRejection = false) (snapshot : Snapshot)
    (nonce : String) :
    let answer := ((known.getD (.new kind r)).applyInterest r).respond r.typeUrl snapshot nonce
      known.isNone
    Known resolve r.typeUrl (some answer.1)
      ((Mirror.onRequest mirror r).map fun m => answer.2.toList.foldl Mirror.take m) := by
  intro answer
  have hask : Mirror.onRequest mirror r = some ((mirror.getD (.new r)).ask r) := by
    unfold Mirror.onRequest
    rw [hno, Bool.and_false]
    rfl
  have hboth : resolve r.typeUrl = some (known.getD (.new kind r)).kind ∧
      Follows (known.getD (.new kind r)) (mirror.getD (.new r)) := by
    cases h with
    | absent => exact ⟨hkind, follows_new kind r⟩
    | present s m hskind hfollows => exact ⟨hskind, hfollows⟩
  obtain ⟨hskind, hfollows⟩ := hboth
  rw [hask]
  refine .present _ _ ?_ (hfollows.respond_ask r r.typeUrl snapshot nonce known.isNone)
  rw [respond_kind, applyInterest_kind]
  exact hskind

end known

section session
variable {resolve : String → Option Kind} {turns : List Turn} {session : Session}

/-- What is known of all types. -/
def Session.FollowsAll (session : Session) (resolve : String → Option Kind) (turns : List Turn) :
    Prop :=
  ∀ typeUrl, Known resolve typeUrl (session.subscriptions.get? typeUrl) (mirror? typeUrl turns)

/-- Every subscription has sent exactly the selection. -/
def Session.SentAll (session : Session) (snapshot : Snapshot) : Prop :=
  ∀ typeUrl s, session.subscriptions.get? typeUrl = some s → SentExact s snapshot

/-- The turn that a session takes at a request. -/
def Session.askTurn (session : Session) (kind : Kind) (r : Request) (snapshot : Snapshot)
    (nonce : String) : Turn where
  cause := .ask (.delta r)
  snapshot := snapshot
  replies := ((session.onRequest kind r snapshot nonce).2.map Reply.delta).toList

/-- The turn that a session takes at a snapshot. -/
def Session.newsTurn (session : Session) (snapshot : Snapshot) (nonce : String → String) :
    Turn where
  cause := .news
  snapshot := snapshot
  replies := (session.onSnapshot snapshot nonce).2.map Reply.delta

/-- What a session says to a request for a type, if it says anything. -/
def Session.answer (session : Session) (kind : Kind) (r : Request) (snapshot : Snapshot)
    (nonce : String) : Subscription × Option Response :=
  let known := session.subscriptions.get? r.typeUrl
  ((known.getD (.new kind r)).applyInterest r).respond r.typeUrl snapshot nonce known.isNone

/-- A request is passed over, or it is the first or changes the interest. -/
theorem Session.onRequest_cases (session : Session) (kind : Kind) (r : Request)
    (snapshot : Snapshot) (nonce : String) :
    ((session.onRequest kind r snapshot nonce).2 = none ∧
        (∀ typeUrl, (session.onRequest kind r snapshot nonce).1.subscriptions.get? typeUrl =
          session.subscriptions.get? typeUrl) ∧
        (r.isRejection = true ∨ session.subscriptions.get? r.typeUrl ≠ none ∧
          r.subscribe = [] ∧ r.unsubscribe = [])) ∨
      (r.isRejection = false ∧ session.onRequest kind r snapshot nonce =
        (⟨session.subscriptions.insert r.typeUrl (session.answer kind r snapshot nonce).1⟩,
          (session.answer kind r snapshot nonce).2)) := by
  unfold Session.onRequest Session.answer
  cases hrejection : r.isRejection with
  | true => exact Or.inl ⟨rfl, fun _ => rfl, Or.inl rfl⟩
  | false =>
      rw [if_neg Bool.false_ne_true]
      dsimp only
      split
      · rename_i hquiet
        simp only [Bool.and_eq_true, List.isEmpty_iff] at hquiet
        obtain ⟨⟨hknown, hsubscribe⟩, hunsubscribe⟩ := hquiet
        obtain ⟨s, hs⟩ := Option.isSome_iff_exists.mp hknown
        refine Or.inl ⟨rfl, fun typeUrl => ?_, Or.inr ⟨by simp [hs], hsubscribe, hunsubscribe⟩⟩
        rw [hs, Option.getD_some, (ask_of_nil hsubscribe hunsubscribe (.new r) s).2,
          Catalog.get?_insert]
        split
        · rename_i htype
          rw [htype, hs]
        · rfl
      · exact Or.inr ⟨rfl, rfl⟩

theorem Session.askTurn_responses (session : Session) (kind : Kind) (r : Request)
    (snapshot : Snapshot) (nonce : String) (typeUrl : String) :
    responsesFor typeUrl (session.askTurn kind r snapshot nonce) =
      if r.typeUrl = typeUrl then (session.onRequest kind r snapshot nonce).2.toList else [] := by
  unfold responsesFor Session.askTurn
  cases hresponse : (session.onRequest kind r snapshot nonce).2 with
  | none => simp
  | some response =>
      have htype : response.typeUrl = r.typeUrl := by
        rcases session.onRequest_cases kind r snapshot nonce with ⟨hnone, -, -⟩ | ⟨-, heq⟩
        · rw [hnone] at hresponse
          cases hresponse
        · rw [heq] at hresponse
          exact respond_typeUrl _ _ _ _ _ hresponse
      simp only [Option.map_some, Option.toList_some, delta?, List.filterMap_cons,
        List.filterMap_nil, List.filter_cons, List.filter_nil, decide_eq_true_eq, htype]

theorem Session.FollowsAll.ask (h : session.FollowsAll resolve turns) {kind : Kind} {r : Request}
    (hkind : resolve r.typeUrl = some kind) (hplain : r.IsPlain) (snapshot : Snapshot)
    (nonce : String) :
    (session.onRequest kind r snapshot nonce).1.FollowsAll resolve
      (turns ++ [session.askTurn kind r snapshot nonce]) := by
  intro typeUrl
  have hrequest : requestFor? typeUrl (session.askTurn kind r snapshot nonce) =
      if r.typeUrl = typeUrl then some r else none := rfl
  have hresponses := session.askTurn_responses kind r snapshot nonce typeUrl
  by_cases htype : r.typeUrl = typeUrl
  · subst htype
    rw [if_pos rfl] at hrequest hresponses
    rw [mirror?_snoc, hrequest, hresponses, Option.elim_some]
    have hknown := h r.typeUrl
    rcases session.onRequest_cases kind r snapshot nonce with ⟨hnone, hsame, hquiet⟩ | ⟨hno, heq⟩
    · rw [hnone, hsame, hknown.passed hplain hquiet]
      exact Option.map_id' ▸ hknown
    · rw [heq]
      dsimp only
      rw [Catalog.get?_insert_self]
      exact hknown.answered hkind hno snapshot nonce
  · rw [if_neg htype] at hrequest hresponses
    rw [mirror?_same hrequest hresponses]
    rcases session.onRequest_cases kind r snapshot nonce with ⟨-, hsame, -⟩ | ⟨-, heq⟩
    · rw [hsame]
      exact h typeUrl
    · rw [heq]
      dsimp only
      rw [Catalog.get?_insert_of_ne _ _ (Ne.symm htype)]
      exact h typeUrl

theorem Session.onSnapshot_get? (session : Session) (snapshot : Snapshot)
    (nonce : String → String) (typeUrl : String) :
    (session.onSnapshot snapshot nonce).1.subscriptions.get? typeUrl =
      (session.subscriptions.get? typeUrl).map fun s =>
        (s.respond typeUrl snapshot (nonce typeUrl) false).1 := by
  unfold Session.onSnapshot
  dsimp only
  rw [Catalog.get?_mapWithKey, Catalog.get?_mapWithKey, Option.map_map]
  rfl

theorem Session.newsTurn_responses (session : Session) (snapshot : Snapshot)
    (nonce : String → String) (typeUrl : String) :
    responsesFor typeUrl (session.newsTurn snapshot nonce) =
      ((session.subscriptions.get? typeUrl).bind fun s =>
        (s.respond typeUrl snapshot (nonce typeUrl) false).2).toList := by
  unfold Session.newsTurn responsesFor
  dsimp only
  rw [filterMap_map_some (f := Reply.delta) (g := delta?) fun _ => rfl]
  exact Catalog.filter_filterMap_mapWithKey session.subscriptions
    (fun typeUrl s => s.respond typeUrl snapshot (nonce typeUrl) false) Response.typeUrl
    (fun _ _ _ hresponse => respond_typeUrl _ _ _ _ _ hresponse) typeUrl

theorem Session.FollowsAll.news (h : session.FollowsAll resolve turns) (snapshot : Snapshot)
    (nonce : String → String) :
    (session.onSnapshot snapshot nonce).1.FollowsAll resolve
      (turns ++ [session.newsTurn snapshot nonce]) := by
  intro typeUrl
  have hrequest : requestFor? typeUrl (session.newsTurn snapshot nonce) = none := rfl
  have hresponses := session.newsTurn_responses snapshot nonce typeUrl
  have hknown := h typeUrl
  rw [mirror?_snoc, hrequest, Option.elim_none, hresponses, session.onSnapshot_get?]
  generalize session.subscriptions.get? typeUrl = known at hknown ⊢
  generalize mirror? typeUrl turns = mirror at hknown ⊢
  cases hknown with
  | absent => exact .absent
  | present s m hskind hfollows =>
      rw [Option.map_some, Option.map_some, Option.bind_some]
      refine .present _ _ ?_ (hfollows.respond typeUrl snapshot (nonce typeUrl) false)
      rw [respond_kind]
      exact hskind

/-- The proxy of a type holds exactly what the session has sent exactly. -/
theorem Session.FollowsAll.exact (h : session.FollowsAll resolve turns) {snapshot : Snapshot}
    {typeUrl : String} {m : Mirror} (hm : mirror? typeUrl turns = some m)
    (hsent : ∀ s, session.subscriptions.get? typeUrl = some s → SentExact s snapshot) :
    ∃ kind, resolve typeUrl = some kind ∧ m.Exact kind snapshot := by
  have hknown := h typeUrl
  generalize session.subscriptions.get? typeUrl = known at hknown hsent
  rw [hm] at hknown
  cases hknown with
  | present s _ hskind hfollows => exact ⟨s.kind, hskind, hfollows.exact (hsent s rfl)⟩

theorem Session.askTurn_leavesExact (h : session.FollowsAll resolve turns) {kind : Kind}
    {r : Request} (hkind : resolve r.typeUrl = some kind) (hplain : r.IsPlain)
    (snapshot : Snapshot) (nonce : String) :
    LeavesExact resolve turns (session.askTurn kind r snapshot nonce) := by
  intro typeUrl m hsettles hm
  refine (h.ask hkind hplain snapshot nonce).exact hm fun s hs => ?_
  rcases hsettles with hnews | ⟨r', hr', hno, hfirst⟩
  · cases hnews
  · have hrequest : requestFor? typeUrl (session.askTurn kind r snapshot nonce) =
        if r.typeUrl = typeUrl then some r else none := rfl
    rw [hrequest] at hr'
    split at hr'
    · rename_i htype
      obtain rfl := Option.some.inj hr'
      subst htype
      rcases session.onRequest_cases kind r snapshot nonce with ⟨-, -, hquiet⟩ | ⟨-, heq⟩
      · -- a request that was passed over is neither the first nor names anything
        obtain ⟨hknown, hsubscribe, hunsubscribe⟩ := hquiet.resolve_left (by simp [hno])
        rcases hfirst with hfirst | hfirst | hfirst
        · have hall := h r.typeUrl
          rw [hfirst] at hall
          generalize session.subscriptions.get? r.typeUrl = known at hall hknown
          cases hall
          exact absurd rfl hknown
        · exact absurd hsubscribe hfirst
        · exact absurd hunsubscribe hfirst
      · rw [heq] at hs
        dsimp only at hs
        rw [Catalog.get?_insert_self] at hs
        rw [← Option.some.inj hs]
        exact respond_exact _ _ _ _ _
    · cases hr'

theorem Session.sentAll_news (session : Session) (snapshot : Snapshot) (nonce : String → String) :
    (session.onSnapshot snapshot nonce).1.SentAll snapshot := by
  intro typeUrl s hs
  rw [session.onSnapshot_get?] at hs
  obtain ⟨s', -, heq⟩ := Option.map_eq_some_iff.mp hs
  rw [← heq]
  exact respond_exact _ _ _ _ _

theorem Session.SentAll.ask {snapshot : Snapshot} (h : session.SentAll snapshot) (kind : Kind)
    (r : Request) (nonce : String) :
    (session.onRequest kind r snapshot nonce).1.SentAll snapshot := by
  intro typeUrl s hs
  rcases session.onRequest_cases kind r snapshot nonce with ⟨-, hsame, -⟩ | ⟨-, heq⟩
  · exact h typeUrl s ((hsame typeUrl).symm.trans hs)
  · rw [heq] at hs
    dsimp only at hs
    rw [Catalog.get?_insert] at hs
    split at hs
    · rw [← Option.some.inj hs]
      exact respond_exact _ _ _ _ _
    · exact h typeUrl s hs

end session

/-- A conversation turn by turn: the session knows of every proxy what holds of it, and the turns
that settle a type leave its proxy with the selection. -/
theorem follows_conversation {resolve : String → Option Kind} {turns : List Turn} {s : AnySession}
    (h : Conversation resolve (.delta .new) turns s)
    (hplain : ∀ r, Ask.delta r ∈ asks turns → r.IsPlain) :
    ∃ session, s = .delta session ∧ session.FollowsAll resolve turns ∧
      ∀ earlier t later, turns = earlier ++ t :: later → LeavesExact resolve earlier t := by
  induction h with
  | opening =>
      refine ⟨.new, rfl, fun typeUrl => .absent, fun earlier t later hsplit => ?_⟩
      simp at hsplit
  | ask ask kind snapshot nonce _ hkind ih =>
      obtain ⟨session, rfl, hfollows, hexact⟩ := ih fun r hr => hplain r <| by
        rw [asks_snoc]
        exact List.mem_append_left _ hr
      cases ask with
      | delta r =>
          have hr : r.IsPlain := hplain r <| by
            rw [asks_snoc]
            exact List.mem_append_right _ List.mem_cons_self
          exact ⟨_, rfl, hfollows.ask hkind hr snapshot nonce, forall_split_snoc hexact
            (Session.askTurn_leavesExact hfollows hkind hr snapshot nonce)⟩
      | whole r =>
          refine ⟨session, rfl, fun typeUrl => ?_, forall_split_snoc hexact ?_⟩
          · rw [mirror?_same rfl rfl]
            exact hfollows typeUrl
          · rintro typeUrl m (hnews | ⟨r', hr', -⟩) -
            · cases hnews
            · cases hr'
  | news snapshot nonce _ ih =>
      obtain ⟨session, rfl, hfollows, hexact⟩ := ih fun r hr => hplain r <| by
        rw [asks_snoc]
        exact List.mem_append_left _ hr
      refine ⟨_, rfl, hfollows.news snapshot nonce, forall_split_snoc hexact ?_⟩
      exact fun typeUrl m _ hm => (hfollows.news snapshot nonce).exact hm fun s hs =>
        session.sentAll_news snapshot nonce typeUrl s hs

/-! ### Streams -/

def sentAll : AnySession → Snapshot → Prop
  | .delta session, snapshot => session.SentAll snapshot
  | .whole _, _ => True

theorem sentAll_steady : Steady (.delta .new) sentAll where
  opening snapshot typeUrl s hs := by cases hs
  ask s ask kind snapshot nonce h := by
    cases s with
    | whole session => cases ask <;> trivial
    | delta session =>
        cases ask with
        | delta r => exact Session.SentAll.ask h kind r nonce
        | whole r => exact h
  news s snapshot nonce := by
    cases s with
    | whole session => trivial
    | delta session => exact session.sentAll_news snapshot nonce

/-- Rejections that carry no names are sent. -/
def PlainMoves (moves : List Exchange.Move) : Prop :=
  ∀ r, Exchange.Move.send (.ask (.delta r)) ∈ moves → r.IsPlain

/-- What the session has sent is what the proxies hold, of each type. -/
def Mirrored (turns : List Turn) (s : AnySession) : Prop :=
  ∃ session, s = .delta session ∧ ∀ typeUrl,
    (session.subscriptions.get? typeUrl).map (·.sent) = (mirror? typeUrl turns).map (·.held)

theorem Session.FollowsAll.mirrored {session : Session} {resolve : String → Option Kind}
    {turns : List Turn} (h : session.FollowsAll resolve turns) :
    Mirrored turns (.delta session) := by
  refine ⟨session, rfl, fun typeUrl => ?_⟩
  have hknown := h typeUrl
  generalize session.subscriptions.get? typeUrl = known at hknown ⊢
  generalize mirror? typeUrl turns = mirror at hknown ⊢
  cases hknown with
  | absent => rfl
  | present s m _ hfollows => exact congrArg some hfollows.sent

section stream
variable {before : List Hall.Move} {protocol : Protocol} {scope : Scope} {serial : ℕ}
  {moves : List Exchange.Move} {e : Exchange}

/-- A stream after any moves knows what the proxies hold as long as it is open, and at rest they
hold exactly the selections of the current snapshot. -/
theorem mirrored_of_run
    (hrun : (Exchange.opening (before.foldl Hall.step .empty) .delta protocol scope serial).run
      moves = some e) (hplain : PlainMoves moves) :
    (∀ earlier t later, e.turns = earlier ++ t :: later →
      LeavesExact (fun typeUrl => (scope.resolve protocol typeUrl).toOption) earlier t) ∧
    (e.stream.isOpen = true → Mirrored e.turns e.stream.session) ∧
    (e.Rest → ∀ typeUrl m, mirror? typeUrl e.turns = some m →
      ∃ kind, scope.resolve protocol typeUrl = .ok kind ∧
        m.Exact kind (e.hall.store.snapshot protocol).2) := by
  have hs := (Exchange.opening_sound (Hall.empty_sound.run before) .delta protocol scope serial
    sentAll_steady).run sentAll_steady hrun
  have hrecorded := Exchange.recorded_of_run (Hall.empty_sound.run before) hrun
  have hprotocol : e.stream.protocol = protocol := (Exchange.run_frame hrun).1
  obtain ⟨s, hconversation, hsession⟩ := hs.session
  obtain ⟨session, rfl, hfollows, hexact⟩ := follows_conversation hconversation fun r hr =>
    hplain r (hrecorded.requests.sent_of_mem hr)
  rw [Exchange.resolve?_of_run hrun] at hfollows hexact
  refine ⟨hexact, fun hopen => hsession hopen ▸ hfollows.mirrored, fun hrest typeUrl m hm => ?_⟩
  have hsent := (hs.fresh hrest.isOpen).resolve_left (by rw [hrest.noNews]; simp)
  rw [hsession hrest.isOpen] at hsent
  obtain ⟨kind, hkind, hm⟩ := hfollows.exact hm (hsent typeUrl)
  refine ⟨kind, ok_of_toOption hkind, ?_⟩
  rw [← hprotocol, hs.snapshot_eq hrest.isOpen]
  exact hm

end stream

/-- A session with any requests and snapshots has sent what the proxies hold, and each turn that
settles a type leaves its proxy with exactly the selection of the turn's snapshot.  On a stream
over a store and its listeners, whatever happens, the turns tell of the requests and of the
snapshots that were current; and at rest the proxies hold exactly the selections of the current
snapshot. -/
theorem mirror_convergence :
    (∀ (resolve : String → Option Kind) (turns : List Turn) (s : AnySession),
      Conversation resolve (.delta .new) turns s →
      (∀ r, Ask.delta r ∈ asks turns → r.IsPlain) →
        Mirrored turns s ∧ ∀ earlier t later, turns = earlier ++ t :: later →
          LeavesExact resolve earlier t) ∧
    ∀ (before : List Hall.Move) (protocol : Protocol) (scope : Scope) (serial : ℕ)
      (moves : List Exchange.Move) (e : Exchange),
      (Exchange.opening (before.foldl Hall.step .empty) .delta protocol scope serial).run moves =
        some e → PlainMoves moves →
        e.Recorded protocol moves ∧
        (∀ earlier t later, e.turns = earlier ++ t :: later →
          LeavesExact (fun typeUrl => (scope.resolve protocol typeUrl).toOption) earlier t) ∧
        (e.stream.isOpen = true → Mirrored e.turns e.stream.session) ∧
        (e.Rest → ∀ typeUrl m, mirror? typeUrl e.turns = some m →
          ∃ kind, scope.resolve protocol typeUrl = .ok kind ∧
            m.Exact kind (e.hall.store.snapshot protocol).2) := by
  constructor
  · intro resolve turns s hconversation hplain
    obtain ⟨session, rfl, hfollows, hexact⟩ := follows_conversation hconversation hplain
    exact ⟨hfollows.mirrored, hexact⟩
  · intro before protocol scope serial moves e hrun hplain
    exact ⟨Exchange.recorded_of_run (Hall.empty_sound.run before) hrun, mirrored_of_run hrun hplain⟩

/-! ### A run with a change of names -/

/-- The proxy asks for all listeners, and then one is stored under another name. -/
def renamingMoves : List Exchange.Move :=
  [.send (.ask (.delta ⟨Exchange.listenerUrl, [], [], ∅, "", false⟩)), .takeInput,
    .hall (Exchange.writeListener "b" 2), .hall (.remove ⟨"a"⟩), .takeSnapshot]

def afterRenaming : Exchange :=
  ((Exchange.opening ([Exchange.writeListener "a" 1].foldl Hall.step .empty) .delta .v3
    .aggregated 0).run renamingMoves).get (by decide +kernel)

theorem held_after_renaming :
    (∃ turns s, turns.length = 2 ∧
      Conversation (fun _ => some .listener) (.delta .new) turns s ∧ Mirrored turns s) ∧
    afterRenaming.Rest ∧ ∃ m, mirror? Exchange.listenerUrl afterRenaming.turns = some m ∧
      m.Exact .listener (afterRenaming.hall.store.snapshot .v3).2 := by
  -- a rejection before anything was asked for, and a snapshot
  have hconversation : Conversation (fun _ => some .listener) (.delta .new) _ _ :=
    .news (.empty .v3) (fun _ => "") <|
      .ask (.delta ⟨Exchange.listenerUrl, [], [], ∅, "", true⟩) .listener (.empty .v3) "" .opening
        rfl
  have hmirrored := (mirror_convergence.1 _ _ _ hconversation (by
    intro r hr
    obtain rfl : r = _ := Ask.delta.inj (List.mem_singleton.mp hr)
    exact fun _ => ⟨rfl, rfl⟩)).1
  have hrun : (Exchange.opening ([Exchange.writeListener "a" 1].foldl Hall.step .empty) .delta .v3
      .aggregated 0).run renamingMoves = some afterRenaming := (Option.some_get _).symm
  have hplain : PlainMoves renamingMoves := by
    intro r hr
    simp only [renamingMoves, List.mem_cons, Exchange.Move.send.injEq, Input.ask.injEq,
      Ask.delta.injEq, reduceCtorEq, List.not_mem_nil, or_false] at hr
    subst hr
    exact fun h => absurd h Bool.false_ne_true
  have hrest : afterRenaming.Rest := by decide +kernel
  obtain ⟨m, hm⟩ := Option.isSome_iff_exists.mp
    (show (mirror? Exchange.listenerUrl afterRenaming.turns).isSome = true by decide +kernel)
  obtain ⟨-, -, -, hexact⟩ := mirror_convergence.2 _ _ _ _ _ _ hrun hplain
  obtain ⟨kind, hkind, hm'⟩ := hexact hrest Exchange.listenerUrl m hm
  have hlistener : Scope.aggregated.resolve .v3 Exchange.listenerUrl = .ok .listener := by
    decide +kernel
  obtain rfl := Except.ok.inj (hkind.symm.trans hlistener)
  exact ⟨⟨_, _, rfl, hconversation, hmirrored⟩, hrest, m, hm, hm'⟩

end ControlPlane.Discovery.Incremental
