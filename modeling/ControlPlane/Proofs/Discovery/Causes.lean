import ControlPlane.Proofs.Discovery.Multiplexing

/-! # Why a response is sent

A session knows of each type the nonce of its last response (`Session.KnowsNonces`), and with it
which requests are about this response.  A request that names another one is passed over and might
as well not have come (`Session.Like`); one that rejects the last response is not answered; and one
that accepts it is answered only if it asks for other names or if something else is selected by now,
as a snapshot is answered only where something else is selected.  So of two consecutive responses
for a type the second one has other resources, or the proxy has asked for it anew
(`resent_with_cause`). -/

namespace ControlPlane.Discovery

/-! ### Nonces -/

/-- The nonce of the last response for a type. -/
def lastNonce? (typeUrl : String) (turns : List Turn) : Option String :=
  (lastResponse? typeUrl turns).map (·.nonce)

/-- The names in effect for a type: those of the request that was answered last. -/
def names? (typeUrl : String) (turns : List Turn) : Option (List String) :=
  (answered? typeUrl turns).map (·.names)

/-- The session knows the nonces of the last responses. -/
def Session.KnowsNonces (session : Session) (turns : List Turn) : Prop :=
  ∀ typeUrl, (session.subscriptions.get? typeUrl).bind (·.lastNonce) = lastNonce? typeUrl turns

theorem lastNonce?_snoc {typeUrl : String} {turns : List Turn} {t : Turn} {said : Option Response}
    (h : t.responses typeUrl = said.toList) :
    lastNonce? typeUrl (turns ++ [t]) = (said.map (·.nonce)).or (lastNonce? typeUrl turns) := by
  unfold lastNonce?
  rw [lastResponse?_snoc, h]
  cases said <;> rfl

/-- A turn that says nothing of a type. -/
theorem lastNonce?_same {typeUrl : String} {turns : List Turn} {t : Turn}
    (h : t.responses typeUrl = []) :
    lastNonce? typeUrl (turns ++ [t]) = lastNonce? typeUrl turns := by
  unfold lastNonce?
  rw [lastResponse?_snoc, h]
  rfl

namespace Subscription
variable (s : Subscription) (snapshot : Snapshot)

theorem onRequest_lastNonce (request : Request) (nonce : String) :
    (s.onRequest request snapshot nonce).1.lastNonce =
      ((s.onRequest request snapshot nonce).2.map (·.nonce)).or s.lastNonce := by
  rcases s.onRequest_cases request snapshot nonce with ⟨heq, -⟩ | heq
  · rw [heq]
    rfl
  · rw [heq]
    rfl

theorem onSnapshot_lastNonce (typeUrl nonce : String) :
    (s.onSnapshot typeUrl snapshot nonce).1.lastNonce =
      ((s.onSnapshot typeUrl snapshot nonce).2.map (·.nonce)).or s.lastNonce := by
  rcases s.onSnapshot_cases typeUrl snapshot nonce with ⟨heq, -⟩ | ⟨heq, -⟩
  · rw [heq]
    rfl
  · rw [heq]
    rfl

end Subscription

section knows
variable {resolve : String → Option Kind} {turns : List Turn} {session : Session}

theorem Session.onRequest_get?_self (session : Session) (kind : Kind) (request : Request)
    (snapshot : Snapshot) (nonce : String) :
    (session.onRequest kind request snapshot nonce).1.subscriptions.get? request.typeUrl =
      some (((session.subscriptions.get? request.typeUrl).getD (.new kind)).onRequest request
        snapshot nonce).1 :=
  Catalog.get?_insert_self _ _ _

/-- A type that is not known yet was not answered either. -/
theorem Session.KnowsNonces.getD (h : session.KnowsNonces turns) (kind : Kind) (typeUrl : String) :
    ((session.subscriptions.get? typeUrl).getD (.new kind)).lastNonce =
      lastNonce? typeUrl turns := by
  rw [← h]
  cases session.subscriptions.get? typeUrl <;> rfl

theorem Session.KnowsNonces.ask (h : session.KnowsNonces turns) (kind : Kind) (request : Request)
    (snapshot : Snapshot) (nonce : String) :
    (session.onRequest kind request snapshot nonce).1.KnowsNonces
      (turns ++ [session.askTurn kind request snapshot nonce]) := by
  intro typeUrl
  have hresponses := session.askTurn_responses kind request snapshot nonce typeUrl
  by_cases htype : request.typeUrl = typeUrl
  · subst htype
    rw [if_pos rfl] at hresponses
    rw [lastNonce?_snoc hresponses, ← h.getD kind, session.onRequest_get?_self]
    exact Subscription.onRequest_lastNonce _ snapshot request nonce
  · rw [if_neg htype] at hresponses
    rw [session.onRequest_get?_of_ne kind snapshot nonce htype, lastNonce?_same hresponses]
    exact h typeUrl

theorem Session.KnowsNonces.news (h : session.KnowsNonces turns) (snapshot : Snapshot)
    (nonce : String → String) :
    (session.onSnapshot snapshot nonce).1.KnowsNonces
      (turns ++ [session.newsTurn snapshot nonce]) := by
  intro typeUrl
  rw [lastNonce?_snoc (session.newsTurn_responses snapshot nonce typeUrl), ← h typeUrl,
    session.onSnapshot_get?]
  cases session.subscriptions.get? typeUrl with
  | none => rfl
  | some s => exact s.onSnapshot_lastNonce snapshot typeUrl (nonce typeUrl)

theorem Conversation.knowsNonces {s : AnySession} (h : Conversation resolve (.whole .new) turns s) :
    ∃ session, s = .whole session ∧ session.KnowsNonces turns := by
  induction h with
  | opening => exact ⟨.new, rfl, fun _ => rfl⟩
  | ask ask kind snapshot nonce _ _ ih =>
      obtain ⟨session, rfl, hknows⟩ := ih
      cases ask with
      | whole request => exact ⟨_, rfl, hknows.ask kind request snapshot nonce⟩
      | delta request =>
          refine ⟨session, rfl, fun typeUrl => ?_⟩
          rw [lastNonce?_same rfl]
          exact hknows typeUrl
  | news snapshot nonce _ ih =>
      obtain ⟨session, rfl, hknows⟩ := ih
      exact ⟨_, rfl, hknows.news snapshot nonce⟩

/-- What a session knows after its turns. -/
theorem Conversation.knows (h : Conversation resolve (.whole .new) turns (.whole session)) :
    session.RemembersAll resolve turns ∧ session.KnowsNonces turns := by
  obtain ⟨_, heq, hremembers, -⟩ := h.whole
  obtain ⟨_, heq', hnonces⟩ := h.knowsNonces
  obtain rfl := AnySession.whole.inj heq
  obtain rfl := AnySession.whole.inj heq'
  exact ⟨hremembers, hnonces⟩

end knows

/-! ### Requests -/

namespace Subscription
variable {s : Subscription} {request : Request} {snapshot : Snapshot} {nonce : String}

theorem onRequest_snd : (s.onRequest request snapshot nonce).2 =
    if s.answers request snapshot then
      some (Response.build snapshot s.kind request.typeUrl request.names nonce)
    else none := by
  unfold onRequest
  split <;> rfl

/-- A request is answered if it names no response, or if it accepts the last one and wants other
names, or the selection has changed. -/
theorem answers_iff : s.answers request snapshot = true ↔ request.nonce = "" ∨
    s.lastNonce = some request.nonce ∧ request.isRejection = false ∧
      (s.names = request.names → s.isCurrent snapshot = false) := by
  unfold answers
  split
  · rename_i hempty
    simp [hempty]
  · rename_i hnamed
    split
    · rename_i hother
      simp [hnamed, hother]
    · rename_i hlast
      rw [not_not] at hlast
      split
      · rename_i hrejection
        simp [hnamed, hrejection]
      · rename_i haccepts
        simp only [hnamed, hlast, Bool.eq_false_iff.mpr haccepts, Bool.or_eq_true,
          Bool.not_eq_true', decide_eq_true_eq, true_and, false_or, imp_iff_not_or]

end Subscription

section requests
variable {resolve : String → Option Kind} {turns : List Turn} {session : Session}
  {request : Request}

/-- A request that names a response is answered only if it is the last one and not rejected. -/
theorem Session.onRequest_silent (hknows : session.KnowsNonces turns) (kind : Kind)
    (snapshot : Snapshot) (nonce : String) (hnamed : request.nonce ≠ "")
    (h : request.isRejection = true ∨ lastNonce? request.typeUrl turns ≠ some request.nonce) :
    ((session.subscriptions.get? request.typeUrl).getD (.new kind)).onRequest request snapshot
      nonce = ((session.subscriptions.get? request.typeUrl).getD (.new kind), none) := by
  have hsilent : ((session.subscriptions.get? request.typeUrl).getD (.new kind)).answers request
      snapshot = false := by
    rw [Bool.eq_false_iff, ne_eq, Subscription.answers_iff, hknows.getD]
    rintro (hempty | ⟨hnonce, haccepts, -⟩)
    · exact hnamed hempty
    · rcases h with hrejects | hother
      · rw [hrejects] at haccepts
        cases haccepts
      · exact hother hnonce
  unfold Subscription.onRequest
  rw [hsilent]
  rfl

/-! ### Sessions that go on alike -/

/-- The same is known of a type, or nothing was said of it although a request for it has come. -/
inductive Subscription.Like (resolve : String → Option Kind) (typeUrl : String) :
    Option Subscription → Option Subscription → Prop
  | same (known : Option Subscription) : Like resolve typeUrl known known
  | unanswered (kind : Kind) : resolve typeUrl = some kind →
      Like resolve typeUrl none (some (.new kind))

/-- The second session has been given requests that it passed over. -/
def Session.Like (resolve : String → Option Kind) (s s' : Session) : Prop :=
  ∀ typeUrl, Subscription.Like resolve typeUrl (s.subscriptions.get? typeUrl)
    (s'.subscriptions.get? typeUrl)

theorem Subscription.Like.getD_eq {known known' : Option Subscription} {typeUrl : String}
    {kind : Kind} (h : Like resolve typeUrl known known') (hkind : resolve typeUrl = some kind) :
    known'.getD (.new kind) = known.getD (.new kind) := by
  cases h with
  | same => rfl
  | unanswered kind' hkind' =>
      obtain rfl := Option.some.inj (hkind.symm.trans hkind')
      rfl

section like
variable {s s' : Session}

theorem Session.Like.ask (h : s.Like resolve s') {kind : Kind}
    (hkind : resolve request.typeUrl = some kind) (snapshot : Snapshot) (nonce : String) :
    (s'.onRequest kind request snapshot nonce).2 = (s.onRequest kind request snapshot nonce).2 ∧
      (s.onRequest kind request snapshot nonce).1.Like resolve
        (s'.onRequest kind request snapshot nonce).1 := by
  have hsame := (h request.typeUrl).getD_eq hkind
  unfold Session.onRequest
  dsimp only
  rw [hsame]
  refine ⟨rfl, fun typeUrl => ?_⟩
  rw [Catalog.get?_insert, Catalog.get?_insert]
  split
  · exact .same _
  · exact h typeUrl

/-- What is said at a snapshot is said by the subscriptions that were answered before. -/
theorem Session.onSnapshot_snd (snapshot : Snapshot) (nonce : String → String) :
    (s.onSnapshot snapshot nonce).2 =
      (s.subscriptions.filter fun _ known => known.lastNonce.isSome).entries.filterMap
        fun e => (e.2.onSnapshot e.1 snapshot (nonce e.1)).2 := by
  have hall : (s.onSnapshot snapshot nonce).2 = s.subscriptions.entries.filterMap
      fun e => (e.2.onSnapshot e.1 snapshot (nonce e.1)).2 := by
    simp [Session.onSnapshot, Catalog.values, Catalog.mapWithKey, List.filterMap_map,
      Function.comp_def]
  rw [hall, Catalog.filter, List.filterMap_filter]
  refine List.filterMap_congr fun e _ => ?_
  split
  · rfl
  · rename_i hnone
    unfold Subscription.onSnapshot
    rw [if_pos]
    simpa using Or.inl hnone

theorem Session.Like.news (h : s.Like resolve s') (snapshot : Snapshot)
    (nonce : String → String) :
    (s'.onSnapshot snapshot nonce).2 = (s.onSnapshot snapshot nonce).2 ∧
      (s.onSnapshot snapshot nonce).1.Like resolve (s'.onSnapshot snapshot nonce).1 := by
  constructor
  · have hspoken : s'.subscriptions.filter (fun _ known => known.lastNonce.isSome) =
        s.subscriptions.filter fun _ known => known.lastNonce.isSome := by
      refine Catalog.ext_get? fun typeUrl => ?_
      rw [Catalog.get?_filter, Catalog.get?_filter]
      have hlike := h typeUrl
      generalize s.subscriptions.get? typeUrl = known at hlike ⊢
      generalize s'.subscriptions.get? typeUrl = known' at hlike ⊢
      cases hlike with
      | same => rfl
      | unanswered kind hkind => rfl
    rw [onSnapshot_snd, onSnapshot_snd, hspoken]
  · intro typeUrl
    rw [s.onSnapshot_get?, s'.onSnapshot_get?]
    have hlike := h typeUrl
    generalize s.subscriptions.get? typeUrl = known at hlike ⊢
    generalize s'.subscriptions.get? typeUrl = known' at hlike ⊢
    cases hlike with
    | same => exact .same _
    | unanswered kind hkind => exact .unanswered kind hkind

/-- A request that is passed over leaves the session alike. -/
theorem Session.like_of_silent {kind : Kind} {snapshot : Snapshot} {nonce : String}
    (hkind : resolve request.typeUrl = some kind)
    (h : ((s.subscriptions.get? request.typeUrl).getD (.new kind)).onRequest request snapshot
      nonce = ((s.subscriptions.get? request.typeUrl).getD (.new kind), none)) :
    s.Like resolve (s.onRequest kind request snapshot nonce).1 := by
  intro typeUrl
  unfold Session.onRequest
  dsimp only
  rw [h, Catalog.get?_insert]
  split
  · rename_i htype
    subst htype
    cases s.subscriptions.get? request.typeUrl with
    | none => exact .unanswered kind hkind
    | some known => exact .same _
  · exact .same _

theorem Session.Like.answers (h : s.Like resolve s') (run : List Occasion) :
    (AnySession.whole s').answers resolve run = (AnySession.whole s).answers resolve run := by
  induction run generalizing s s' with
  | nil => rfl
  | cons o rest ih =>
      have hnext : ((AnySession.whole s').meet resolve o).2 =
          ((AnySession.whole s).meet resolve o).2 ∧
          ∃ t t', ((AnySession.whole s).meet resolve o).1 = .whole t ∧
            ((AnySession.whole s').meet resolve o).1 = .whole t' ∧ t.Like resolve t' := by
        cases o with
        | news snapshot nonce =>
            obtain ⟨hsaid, hlike⟩ := h.news snapshot nonce
            exact ⟨congrArg (List.map Reply.whole) hsaid, _, _, rfl, rfl, hlike⟩
        | ask ask snapshot nonce =>
            unfold AnySession.meet
            dsimp only
            cases hkind : resolve ask.typeUrl with
            | none => exact ⟨rfl, s, s', rfl, rfl, h⟩
            | some kind =>
                cases ask with
                | delta request => exact ⟨rfl, s, s', rfl, rfl, h⟩
                | whole request =>
                    obtain ⟨hsaid, hlike⟩ := h.ask hkind snapshot nonce
                    exact ⟨congrArg (fun r => (r.map Reply.whole).toList) hsaid, _, _, rfl, rfl,
                      hlike⟩
      obtain ⟨hsaid, t, t', ht, ht', hlike⟩ := hnext
      rw [AnySession.answers, AnySession.answers, hsaid, ht, ht', ih hlike]

end like
end requests

/-! ### Consecutive responses -/

/-- The request asks for its type anew: it names no response, or wants other names than those in
effect. -/
def Request.AsksAnew (r : Request) (earlier : List Turn) : Prop :=
  r.nonce = "" ∨ names? r.typeUrl earlier ≠ some r.names

/-- Of a type the turn says at most one thing: it has other resources than the last response had, or
answers a request that asks for the type anew. -/
structure Turn.HasCause (earlier : List Turn) (t : Turn) : Prop where
  length_le : ∀ typeUrl, (t.responses typeUrl).length ≤ 1
  differs : ∀ typeUrl first second, lastResponse? typeUrl earlier = some first →
    second ∈ t.responses typeUrl → second.resources ≠ first.resources ∨
      ∃ r, t.cause = .ask (.whole r) ∧ r.typeUrl = typeUrl ∧ r.AsksAnew earlier

section causes
variable {resolve : String → Option Kind} {turns : List Turn} {session : Session}
  {typeUrl : String} {last : Response}

/-- A type that was answered is remembered with its names and its last resources. -/
theorem Remembers.of_lastResponse {known : Option Subscription}
    (h : Remembers resolve typeUrl turns known) (hlast : lastResponse? typeUrl turns = some last) :
    ∃ s, known = some s ∧ resolve typeUrl = some s.kind ∧ s.lastNonce ≠ none ∧
      names? typeUrl turns = some s.names ∧ s.sent = last.resources := by
  cases h with
  | absent _ hnone =>
      rw [hnone] at hlast
      cases hlast
  | silent _ _ _ _ hnone =>
      rw [hnone] at hlast
      cases hlast
  | spoken s request response hkind hnonce hanswered hresponse hnames hsent =>
      obtain rfl := Option.some.inj (hresponse.symm.trans hlast)
      refine ⟨s, rfl, hkind, hnonce, ?_, hsent⟩
      rw [names?, hanswered, Option.map_some, hnames]

theorem Session.RemembersAll.askTurn_hasCause (h : session.RemembersAll resolve turns)
    (kind : Kind) (request : Request) (snapshot : Snapshot) (nonce : String) :
    (session.askTurn kind request snapshot nonce).HasCause turns where
  length_le typeUrl := by
    rw [session.askTurn_responses]
    split
    · exact Option.length_toList_le
    · exact Nat.zero_le 1
  differs typeUrl first second hfirst hsecond := by
    rw [session.askTurn_responses] at hsecond
    split at hsecond
    · rename_i htype
      subst htype
      obtain ⟨s, hknown, -, -, hnames, hsent⟩ := (h request.typeUrl).of_lastResponse hfirst
      have hanswer : (s.onRequest request snapshot nonce).2 = some second := by
        have hgetD : (session.subscriptions.get? request.typeUrl).getD (.new kind) = s := by
          rw [hknown, Option.getD_some]
        exact hgetD ▸ Option.mem_toList.mp hsecond
      rw [Subscription.onRequest_snd] at hanswer
      split at hanswer
      · rename_i hanswers
        rcases Subscription.answers_iff.mp hanswers with hempty | ⟨-, -, hcurrent⟩
        · exact Or.inr ⟨request, rfl, rfl, Or.inl hempty⟩
        · by_cases hsame : s.names = request.names
          · -- the names are those in effect, so it is the selection that has changed
            left
            have hchanged := of_decide_eq_false (hcurrent hsame)
            rw [hsent, hsame] at hchanged
            rw [← Option.some.inj hanswer]
            exact hchanged
          · refine Or.inr ⟨request, rfl, rfl, Or.inr ?_⟩
            rw [hnames]
            exact fun heq => hsame (Option.some.inj heq)
      · cases hanswer
    · cases hsecond

theorem Session.RemembersAll.newsTurn_hasCause (h : session.RemembersAll resolve turns)
    (snapshot : Snapshot) (nonce : String → String) :
    (session.newsTurn snapshot nonce).HasCause turns where
  length_le typeUrl := by
    rw [session.newsTurn_responses]
    exact Option.length_toList_le
  differs typeUrl first second hfirst hsecond := by
    obtain ⟨s, hknown, -, -, -, hsent⟩ := (h typeUrl).of_lastResponse hfirst
    rw [session.newsTurn_responses, hknown, Option.bind_some, Option.mem_toList] at hsecond
    left
    unfold Subscription.onSnapshot at hsecond
    split at hsecond
    · cases hsecond
    · rename_i hchanged
      rw [Bool.not_eq_true, Bool.or_eq_false_iff] at hchanged
      rw [← Option.some.inj hsecond, ← hsent]
      exact of_decide_eq_false hchanged.2

theorem Conversation.hasCause {s : AnySession} (h : Conversation resolve (.whole .new) turns s) :
    ∀ earlier t later, turns = earlier ++ t :: later → t.HasCause earlier := by
  induction h with
  | opening => simp
  | ask ask kind snapshot nonce hbefore hkind ih =>
      obtain ⟨session, rfl, hremembers, -⟩ := hbefore.whole
      refine forall_split_snoc ih ?_
      cases ask with
      | whole request => exact hremembers.askTurn_hasCause kind request snapshot nonce
      | delta request => exact ⟨fun _ => Nat.zero_le 1, fun _ _ _ _ hsecond => nomatch hsecond⟩
  | news snapshot nonce hbefore ih =>
      obtain ⟨session, rfl, hremembers, -⟩ := hbefore.whole
      exact forall_split_snoc ih (hremembers.newsTurn_hasCause snapshot nonce)

/-! ### Snapshots -/

/-- A type is answered at a snapshot if it was answered before and its names select other resources
now. -/
theorem Session.RemembersAll.mem_onSnapshot_iff (h : session.RemembersAll resolve turns)
    (snapshot : Snapshot) (nonce : String → String) :
    typeUrl ∈ (session.onSnapshot snapshot nonce).2.map (·.typeUrl) ↔ ∃ last names kind,
      lastResponse? typeUrl turns = some last ∧ names? typeUrl turns = some names ∧
        resolve typeUrl = some kind ∧
        (snapshot.select kind names).map (·.body) ≠ last.resources := by
  have hown : typeUrl ∈ (session.onSnapshot snapshot nonce).2.map (·.typeUrl) ↔
      ∃ response, ((session.subscriptions.get? typeUrl).bind fun s =>
        (s.onSnapshot typeUrl snapshot (nonce typeUrl)).2) = some response := by
    simp only [← Option.mem_toList, ← session.onSnapshot_filter, List.mem_filter, List.mem_map,
      decide_eq_true_eq]
  rw [hown]
  constructor
  · rintro ⟨response, hresponse⟩
    obtain ⟨s, hknown, hsaid⟩ := Option.bind_eq_some_iff.mp hresponse
    have hremembers := h typeUrl
    rw [hknown] at hremembers
    unfold Subscription.onSnapshot at hsaid
    split at hsaid
    · cases hsaid
    · rename_i hchanged
      rw [Bool.not_eq_true, Bool.or_eq_false_iff, Option.isNone_eq_false_iff] at hchanged
      obtain ⟨request, last, hanswered, hlast, hnames, hsent⟩ :=
        hremembers.spoken_of_nonce (Option.isSome_iff_ne_none.mp hchanged.1)
      refine ⟨last, s.names, s.kind, hlast, ?_, hremembers.kind_eq, ?_⟩
      · rw [names?, hanswered, Option.map_some, hnames]
      · rw [← hsent]
        exact of_decide_eq_false hchanged.2
  · rintro ⟨last, names, kind, hlast, hnames, hkind, hchanged⟩
    obtain ⟨s, hknown, hskind, hnonce, hsnames, hsent⟩ := (h typeUrl).of_lastResponse hlast
    obtain rfl := Option.some.inj (hnames.symm.trans hsnames)
    obtain rfl := Option.some.inj (hkind.symm.trans hskind)
    rw [← hsent] at hchanged
    rw [hknown, Option.bind_some]
    unfold Subscription.onSnapshot
    rw [if_neg]
    · exact ⟨_, rfl⟩
    · rw [Bool.or_eq_true, Option.isNone_iff_eq_none, not_or, Bool.not_eq_true]
      exact ⟨hnonce, decide_eq_false hchanged⟩

theorem Session.onSnapshot_nodup (session : Session) (snapshot : Snapshot)
    (nonce : String → String) :
    ((session.onSnapshot snapshot nonce).2.map (·.typeUrl)).Nodup := by
  refine List.nodup_iff_count_le_one.mpr fun typeUrl => ?_
  have hcount : ((session.onSnapshot snapshot nonce).2.map (·.typeUrl)).count typeUrl =
      ((session.onSnapshot snapshot nonce).2.filter fun r => r.typeUrl = typeUrl).length := by
    rw [List.count, List.countP_map, List.countP_eq_length_filter]
    rfl
  rw [hcount, session.onSnapshot_filter]
  exact Option.length_toList_le

/-- What is said at a snapshot is said by the subscription to its type. -/
theorem Session.get?_of_mem_onSnapshot {snapshot : Snapshot} {nonce : String → String}
    {response : Response} (h : response ∈ (session.onSnapshot snapshot nonce).2) :
    ∃ s, session.subscriptions.get? response.typeUrl = some s ∧
      (s.onSnapshot response.typeUrl snapshot (nonce response.typeUrl)).2 = some response := by
  have hown : response ∈ (session.onSnapshot snapshot nonce).2.filter fun r =>
      r.typeUrl = response.typeUrl := List.mem_filter.mpr ⟨h, decide_eq_true rfl⟩
  rw [session.onSnapshot_filter, Option.mem_toList] at hown
  exact Option.bind_eq_some_iff.mp hown

/-- After a snapshot the same one brings nothing. -/
theorem Session.UpToDate.onSnapshot_eq_nil {snapshot : Snapshot} (h : session.UpToDate snapshot)
    (nonce : String → String) : (session.onSnapshot snapshot nonce).2 = [] := by
  rw [List.eq_nil_iff_forall_not_mem]
  intro response hmem
  obtain ⟨s, hknown, hsaid⟩ := Session.get?_of_mem_onSnapshot hmem
  unfold Subscription.onSnapshot at hsaid
  split at hsaid
  · cases hsaid
  · rename_i hchanged
    rw [Bool.or_eq_true, Option.isNone_iff_eq_none, not_or] at hchanged
    exact hchanged.2 (h _ s hknown hchanged.1)

/-- Whatever a session is given: each response for a type has other resources than the one before
it for the type, a rejected one like any other, or answers a request that asks for the type anew.  A
request that rejects the response it names is not answered, and one that names another than the last
is neither answered nor does it change any later answer.  A snapshot is answered once for each type
that was answered before and of which it selects other resources than were sent last, so the same
snapshot brings nothing after it. -/
theorem resent_with_cause (h : Conversation resolve (.whole .new) turns (.whole session)) :
    (∀ earlier t later, turns = earlier ++ t :: later → t.HasCause earlier) ∧
    (∀ request kind snapshot nonce, resolve request.typeUrl = some kind → request.nonce ≠ "" →
      (request.isRejection = true →
        (session.onRequest kind request snapshot nonce).2 = none) ∧
      (lastNonce? request.typeUrl turns ≠ some request.nonce →
        (session.onRequest kind request snapshot nonce).2 = none ∧
        ∀ run, (AnySession.whole (session.onRequest kind request snapshot nonce).1).answers resolve
            run = (AnySession.whole session).answers resolve run)) ∧
    ∀ snapshot nonce,
      ((session.onSnapshot snapshot nonce).2.map (·.typeUrl)).Nodup ∧
      (∀ typeUrl, typeUrl ∈ (session.onSnapshot snapshot nonce).2.map (·.typeUrl) ↔
        ∃ last names kind, lastResponse? typeUrl turns = some last ∧
          names? typeUrl turns = some names ∧ resolve typeUrl = some kind ∧
          (snapshot.select kind names).map (·.body) ≠ last.resources) ∧
      ∀ nonce', ((session.onSnapshot snapshot nonce).1.onSnapshot snapshot nonce').2 = [] := by
  obtain ⟨hremembers, hknows⟩ := h.knows
  refine ⟨h.hasCause, fun request kind snapshot nonce hkind hnamed => ?_, fun snapshot nonce => ?_⟩
  · have hsilent := Session.onRequest_silent hknows kind snapshot nonce hnamed
    refine ⟨fun hrejects => congrArg Prod.snd (hsilent (Or.inl hrejects)), fun hother => ?_⟩
    refine ⟨congrArg Prod.snd (hsilent (Or.inr hother)), ?_⟩
    exact Session.Like.answers (session.like_of_silent hkind (hsilent (Or.inr hother)))
  · exact ⟨session.onSnapshot_nodup snapshot nonce,
      fun typeUrl => hremembers.mem_onSnapshot_iff snapshot nonce,
      (session.upToDate_news snapshot nonce).onSnapshot_eq_nil⟩

end causes

/-! ### A response that is rejected -/

section rejecting
open Exchange (listenerUrl listenersNamed)

/-- All listeners are asked for where there is one. -/
def asking : Session :=
  (Session.new.onRequest .listener ⟨listenerUrl, [], "", false⟩ (listenersNamed ["a"]) "0").1

/-- The listener is rejected. -/
def rejection : Request := ⟨listenerUrl, [], "0", true⟩

def rejecting : Session := (asking.onRequest .listener rejection (listenersNamed ["a"]) "1").1

def rejectingTurns : List Turn :=
  [Session.new.askTurn .listener ⟨listenerUrl, [], "", false⟩ (listenersNamed ["a"]) "0",
    asking.askTurn .listener rejection (listenersNamed ["a"]) "1"]

/-- The listener is not sent again with the same snapshot, nor for a late request, but both are sent
once there is another one. -/
theorem silent_after_rejection :
    Conversation (fun _ => some .listener) (.whole .new) rejectingTurns (.whole rejecting) ∧
    listenerUrl ∉
      (rejecting.onSnapshot (listenersNamed ["a"]) fun _ => "2").2.map (·.typeUrl) ∧
    (rejecting.onRequest .listener ⟨listenerUrl, ["b"], "late", false⟩
      (listenersNamed ["a", "b"]) "2").2 = none ∧
    listenerUrl ∈
      (rejecting.onSnapshot (listenersNamed ["a", "b"]) fun _ => "2").2.map (·.typeUrl) := by
  have hconversation : Conversation (fun _ => some .listener) (.whole .new) rejectingTurns
      (.whole rejecting) :=
    .ask (.whole rejection) .listener (listenersNamed ["a"]) "1"
      (.ask (.whole ⟨listenerUrl, [], "", false⟩) .listener (listenersNamed ["a"]) "0" .opening
        rfl) rfl
  obtain ⟨-, hrequests, hsnapshots⟩ := resent_with_cause hconversation
  have hlast : lastResponse? listenerUrl rejectingTurns =
      some ⟨1, listenerUrl, "0", [⟨listenerUrl, [1]⟩]⟩ := by decide +kernel
  have hnames : names? listenerUrl rejectingTurns = some [] := by decide +kernel
  refine ⟨hconversation, ?_, ?_, ?_⟩
  · rw [(hsnapshots _ _).2.1]
    rintro ⟨last, names, kind, hlast', hnames', hkind, hchanged⟩
    obtain rfl := Option.some.inj (hlast.symm.trans hlast')
    obtain rfl := Option.some.inj (hnames.symm.trans hnames')
    obtain rfl := Option.some.inj hkind
    exact hchanged (by decide +kernel)
  · exact ((hrequests _ .listener _ "2" rfl (by decide)).2 (by decide +kernel)).1
  · exact ((hsnapshots _ _).2.1 _).mpr ⟨_, _, .listener, hlast, hnames, rfl, by decide +kernel⟩

end rejecting
end ControlPlane.Discovery
