import ControlPlane.Proofs.Catalog
import ControlPlane.Proofs.Discovery.Exchange

/-! # State-of-the-world streams converge

Every response carries the selection of the snapshot that was current when it was built, by the
names of the request last answered for its type (`Turn.Exact`).  A session remembers of each type
just these names and what it sent last (`Remembers`), so it can tell whether a snapshot changes
the selection; and a stream that has nothing left to take up has sent, for every type, the
selection of the current snapshot (`convergence`). -/

namespace ControlPlane.Discovery

/-! ### What the turns tell of a type -/

/-- The request for a type that a turn answers. -/
def Turn.answers? (typeUrl : String) (t : Turn) : Option Request :=
  match t.cause with
  | .ask (.whole r) => if r.typeUrl = typeUrl ∧ t.replies ≠ [] then some r else none
  | _ => none

def Reply.whole? : Reply → Option Response
  | whole response => some response
  | delta _ => none

/-- The responses of a turn for a type. -/
def Turn.responses (typeUrl : String) (t : Turn) : List Response :=
  (t.replies.filterMap Reply.whole?).filter fun r => r.typeUrl = typeUrl

/-- The request for a type that was answered last. -/
def answered? (typeUrl : String) (turns : List Turn) : Option Request :=
  (turns.filterMap fun t => t.answers? typeUrl).getLast?

/-- The last response for a type. -/
def lastResponse? (typeUrl : String) (turns : List Turn) : Option Response :=
  (turns.flatMap fun t => t.responses typeUrl).getLast?

section turns
variable {typeUrl : String} {turns : List Turn} {t : Turn}

theorem answered?_snoc : answered? typeUrl (turns ++ [t]) =
    (t.answers? typeUrl).or (answered? typeUrl turns) := by
  unfold answered?
  rw [List.filterMap_append, List.getLast?_append]
  cases h : t.answers? typeUrl <;> simp [h]

theorem lastResponse?_snoc : lastResponse? typeUrl (turns ++ [t]) =
    (t.responses typeUrl).getLast?.or (lastResponse? typeUrl turns) := by
  unfold lastResponse?
  rw [List.flatMap_append, List.getLast?_append, List.flatMap_cons, List.flatMap_nil,
    List.append_nil]

end turns

/-- What a turn says is the selection of the snapshot it saw, by the names of the request last
answered for the type. -/
def Turn.Exact (resolve : String → Option Kind) (earlier : List Turn) (t : Turn) : Prop :=
  ∀ response, Reply.whole response ∈ t.replies → ∃ request kind,
    answered? response.typeUrl (earlier ++ [t]) = some request ∧
      resolve response.typeUrl = some kind ∧ response.version = t.snapshot.version ∧
      response.resources = (t.snapshot.select kind request.names).map (·.body)

/-! ### What a session remembers -/

/-- What is remembered of a type: nothing was answered yet, or the names of the request answered
last and the resources of the last response. -/
inductive Remembers (resolve : String → Option Kind) (typeUrl : String) (turns : List Turn) :
    Option Subscription → Prop
  | absent : answered? typeUrl turns = none → lastResponse? typeUrl turns = none →
      Remembers resolve typeUrl turns none
  | silent (s : Subscription) : resolve typeUrl = some s.kind → s.lastNonce = none →
      answered? typeUrl turns = none → lastResponse? typeUrl turns = none →
      Remembers resolve typeUrl turns (some s)
  | spoken (s : Subscription) (request : Request) (response : Response) :
      resolve typeUrl = some s.kind → s.lastNonce ≠ none →
      answered? typeUrl turns = some request → lastResponse? typeUrl turns = some response →
      s.names = request.names → s.sent = response.resources →
      Remembers resolve typeUrl turns (some s)

/-- How a subscription goes on with a request. -/
theorem Subscription.onRequest_cases (s : Subscription) (request : Request) (snapshot : Snapshot)
    (nonce : String) :
    (s.onRequest request snapshot nonce = (s, none) ∧ s.answers request snapshot = false) ∨
      s.onRequest request snapshot nonce =
        ({ s with
            names := request.names
            lastNonce := some nonce
            sent := (snapshot.select s.kind request.names).map (·.body) },
          some (Response.build snapshot s.kind request.typeUrl request.names nonce)) := by
  unfold onRequest
  cases h : s.answers request snapshot with
  | false => exact Or.inl ⟨rfl, rfl⟩
  | true => exact Or.inr rfl

/-- How a subscription goes on with a snapshot. -/
theorem Subscription.onSnapshot_cases (s : Subscription) (typeUrl : String) (snapshot : Snapshot)
    (nonce : String) :
    (s.onSnapshot typeUrl snapshot nonce = (s, none) ∧
        (s.lastNonce = none ∨ s.isCurrent snapshot = true)) ∨
      (s.onSnapshot typeUrl snapshot nonce =
          ({ s with
              lastNonce := some nonce
              sent := (snapshot.select s.kind s.names).map (·.body) },
            some (Response.build snapshot s.kind typeUrl s.names nonce)) ∧
        s.lastNonce ≠ none) := by
  unfold onSnapshot
  by_cases h : (s.lastNonce.isNone || s.isCurrent snapshot) = true
  · rw [if_pos h]
    rw [Bool.or_eq_true, Option.isNone_iff_eq_none] at h
    exact Or.inl ⟨rfl, h⟩
  · rw [if_neg h]
    rw [Bool.or_eq_true, Option.isNone_iff_eq_none, not_or] at h
    exact Or.inr ⟨rfl, h.1⟩

/-- A turn that says nothing of a type leaves what is remembered of it. -/
theorem Remembers.same {resolve : String → Option Kind} {typeUrl : String} {turns : List Turn}
    {known : Option Subscription} (h : Remembers resolve typeUrl turns known) {t : Turn}
    (hanswers : t.answers? typeUrl = none) (hresponses : t.responses typeUrl = []) :
    Remembers resolve typeUrl (turns ++ [t]) known := by
  have ha : answered? typeUrl (turns ++ [t]) = answered? typeUrl turns := by
    rw [answered?_snoc, hanswers, Option.none_or]
  have hl : lastResponse? typeUrl (turns ++ [t]) = lastResponse? typeUrl turns := by
    rw [lastResponse?_snoc, hresponses, List.getLast?_nil, Option.none_or]
  cases h with
  | absent h1 h2 => exact .absent (ha.trans h1) (hl.trans h2)
  | silent s hkind hnonce h1 h2 => exact .silent s hkind hnonce (ha.trans h1) (hl.trans h2)
  | spoken s request response hkind hnonce h1 h2 hnames hsent =>
      exact .spoken s request response hkind hnonce (ha.trans h1) (hl.trans h2) hnames hsent

theorem Remembers.kind_eq {resolve : String → Option Kind} {typeUrl : String} {turns : List Turn}
    {s : Subscription} (h : Remembers resolve typeUrl turns (some s)) :
    resolve typeUrl = some s.kind := by
  cases h with
  | silent _ hkind => exact hkind
  | spoken _ _ _ hkind => exact hkind

theorem Remembers.spoken_of_nonce {resolve : String → Option Kind} {typeUrl : String}
    {turns : List Turn} {s : Subscription} (h : Remembers resolve typeUrl turns (some s))
    (hnonce : s.lastNonce ≠ none) : ∃ request response,
      answered? typeUrl turns = some request ∧ lastResponse? typeUrl turns = some response ∧
        s.names = request.names ∧ s.sent = response.resources := by
  cases h with
  | silent _ _ hnone => exact absurd hnone hnonce
  | spoken _ request response _ _ h1 h2 hnames hsent =>
      exact ⟨request, response, h1, h2, hnames, hsent⟩

section remembers
variable {resolve : String → Option Kind} {typeUrl : String} {turns : List Turn} {t : Turn}

/-- A subscription, or a new one in its place, after a request: if it has answered, it remembers
the names of the request and its response. -/
theorem Remembers.ask {known : Option Subscription} {request : Request}
    (h : Remembers resolve request.typeUrl turns known) {kind : Kind}
    (hkind : resolve request.typeUrl = some kind) (snapshot : Snapshot) (nonce : String)
    (hanswers : t.answers? request.typeUrl =
      ((known.getD (.new kind)).onRequest request snapshot nonce).2.map fun _ => request)
    (hresponses : t.responses request.typeUrl =
      ((known.getD (.new kind)).onRequest request snapshot nonce).2.toList) :
    Remembers resolve request.typeUrl (turns ++ [t])
      (some ((known.getD (.new kind)).onRequest request snapshot nonce).1) := by
  rcases (known.getD (.new kind)).onRequest_cases request snapshot nonce with ⟨heq, -⟩ | heq
  · rw [heq] at hanswers hresponses ⊢
    have hsame := h.same hanswers hresponses
    cases known with
    | none =>
        cases hsame with
        | absent h1 h2 => exact .silent _ hkind rfl h1 h2
    | some s => exact hsame
  · have hskind : resolve request.typeUrl = some (known.getD (.new kind)).kind := by
      cases known with
      | none => exact hkind
      | some s => exact h.kind_eq
    rw [heq] at hanswers hresponses ⊢
    refine .spoken _ request
      (Response.build snapshot _ request.typeUrl request.names nonce) hskind (by simp) ?_ ?_ rfl rfl
    · rw [answered?_snoc, hanswers, Option.map_some, Option.some_or]
    · rw [lastResponse?_snoc, hresponses, Option.toList_some, List.getLast?_singleton,
        Option.some_or]

/-- A subscription after a snapshot remembers the names as before, and its response. -/
theorem Remembers.news {s : Subscription} (h : Remembers resolve typeUrl turns (some s))
    (snapshot : Snapshot) (nonce : String) (hanswers : t.answers? typeUrl = none)
    (hresponses : t.responses typeUrl = (s.onSnapshot typeUrl snapshot nonce).2.toList) :
    Remembers resolve typeUrl (turns ++ [t]) (some (s.onSnapshot typeUrl snapshot nonce).1) := by
  rcases s.onSnapshot_cases typeUrl snapshot nonce with ⟨heq, -⟩ | ⟨heq, hnonce⟩
  · rw [heq] at hresponses ⊢
    exact h.same hanswers hresponses
  · rw [heq] at hresponses ⊢
    obtain ⟨request, response, h1, h2, hnames, hsent⟩ := h.spoken_of_nonce hnonce
    refine .spoken _ request (Response.build snapshot s.kind typeUrl s.names nonce) h.kind_eq
      (by simp) ?_ ?_ hnames rfl
    · rw [answered?_snoc, hanswers, Option.none_or, h1]
    · rw [lastResponse?_snoc, hresponses, Option.toList_some, List.getLast?_singleton,
        Option.some_or]

end remembers

section session
variable {resolve : String → Option Kind} {turns : List Turn} {session : Session}

/-- What a session remembers of all types. -/
def Session.RemembersAll (session : Session) (resolve : String → Option Kind)
    (turns : List Turn) : Prop :=
  ∀ typeUrl, Remembers resolve typeUrl turns (session.subscriptions.get? typeUrl)

/-- The turn that a session takes at a request. -/
def Session.askTurn (session : Session) (kind : Kind) (request : Request) (snapshot : Snapshot)
    (nonce : String) : Turn where
  cause := .ask (.whole request)
  snapshot := snapshot
  replies := ((session.onRequest kind request snapshot nonce).2.map Reply.whole).toList

/-- The turn that a session takes at a snapshot. -/
def Session.newsTurn (session : Session) (snapshot : Snapshot) (nonce : String → String) :
    Turn where
  cause := .news
  snapshot := snapshot
  replies := (session.onSnapshot snapshot nonce).2.map Reply.whole

/-! ### Requests -/

theorem Session.askTurn_answers? (session : Session) (kind : Kind) (request : Request)
    (snapshot : Snapshot) (nonce : String) (typeUrl : String) :
    (session.askTurn kind request snapshot nonce).answers? typeUrl =
      if request.typeUrl = typeUrl then
        (session.onRequest kind request snapshot nonce).2.map fun _ => request
      else none := by
  unfold Turn.answers? Session.askTurn
  dsimp only
  cases (session.onRequest kind request snapshot nonce).2 <;> simp

theorem Session.askTurn_responses (session : Session) (kind : Kind) (request : Request)
    (snapshot : Snapshot) (nonce : String) (typeUrl : String) :
    (session.askTurn kind request snapshot nonce).responses typeUrl =
      if request.typeUrl = typeUrl then
        (session.onRequest kind request snapshot nonce).2.toList
      else [] := by
  unfold Turn.responses Session.askTurn Session.onRequest
  dsimp only
  rcases ((session.subscriptions.get? request.typeUrl).getD (.new kind)).onRequest_cases request
    snapshot nonce with ⟨heq, -⟩ | heq
  · rw [heq]
    simp
  · rw [heq]
    simp [Reply.whole?, Response.build, List.filter_cons]

theorem Session.RemembersAll.ask (h : session.RemembersAll resolve turns) {kind : Kind}
    {request : Request} (hkind : resolve request.typeUrl = some kind) (snapshot : Snapshot)
    (nonce : String) :
    (session.onRequest kind request snapshot nonce).1.RemembersAll resolve
      (turns ++ [session.askTurn kind request snapshot nonce]) := by
  intro typeUrl
  have hanswers := session.askTurn_answers? kind request snapshot nonce typeUrl
  have hresponses := session.askTurn_responses kind request snapshot nonce typeUrl
  have hget : (session.onRequest kind request snapshot nonce).1.subscriptions.get? typeUrl =
      if typeUrl = request.typeUrl then
        some (((session.subscriptions.get? request.typeUrl).getD (.new kind)).onRequest request
          snapshot nonce).1
      else session.subscriptions.get? typeUrl := Catalog.get?_insert _ _ _ _
  rw [hget]
  split
  · rename_i htype
    subst htype
    rw [if_pos rfl] at hanswers hresponses
    exact (h request.typeUrl).ask hkind snapshot nonce hanswers hresponses
  · rename_i htype
    rw [if_neg (Ne.symm htype)] at hanswers hresponses
    exact (h typeUrl).same hanswers hresponses

theorem Session.RemembersAll.askTurn_exact (h : session.RemembersAll resolve turns) {kind : Kind}
    {request : Request} (hkind : resolve request.typeUrl = some kind) (snapshot : Snapshot)
    (nonce : String) :
    (session.askTurn kind request snapshot nonce).Exact resolve turns := by
  intro response hmem
  have hskind : resolve request.typeUrl =
      some ((session.subscriptions.get? request.typeUrl).getD (.new kind)).kind := by
    have hknown := h request.typeUrl
    cases hget : session.subscriptions.get? request.typeUrl with
    | none => exact hkind
    | some s => exact (hget ▸ hknown).kind_eq
  have hresponse : (((session.subscriptions.get? request.typeUrl).getD (.new kind)).onRequest
      request snapshot nonce).2 = some response := by
    obtain ⟨r, hr, heq⟩ := Option.map_eq_some_iff.mp (Option.mem_toList.mp hmem)
    rw [← Reply.whole.inj heq]
    exact hr
  rcases ((session.subscriptions.get? request.typeUrl).getD (.new kind)).onRequest_cases request
    snapshot nonce with ⟨heq, -⟩ | heq
  · rw [heq] at hresponse
    cases hresponse
  · have hanswers := session.askTurn_answers? kind request snapshot nonce request.typeUrl
    have hsome : (session.onRequest kind request snapshot nonce).2 = some response := hresponse
    rw [if_pos rfl, hsome, Option.map_some] at hanswers
    rw [heq] at hresponse
    obtain rfl := Option.some.inj hresponse
    refine ⟨request, _, ?_, hskind, rfl, rfl⟩
    rw [answered?_snoc]
    exact (congrArg (Option.or · _) hanswers).trans Option.some_or

/-! ### Snapshots -/

theorem Session.onSnapshot_get? (session : Session) (snapshot : Snapshot)
    (nonce : String → String) (typeUrl : String) :
    (session.onSnapshot snapshot nonce).1.subscriptions.get? typeUrl =
      (session.subscriptions.get? typeUrl).map fun s =>
        (s.onSnapshot typeUrl snapshot (nonce typeUrl)).1 := by
  unfold Session.onSnapshot
  dsimp only
  rw [Catalog.get?_mapWithKey, Catalog.get?_mapWithKey, Option.map_map]
  rfl

theorem Session.newsTurn_responses (session : Session) (snapshot : Snapshot)
    (nonce : String → String) (typeUrl : String) :
    (session.newsTurn snapshot nonce).responses typeUrl =
      ((session.subscriptions.get? typeUrl).bind fun s =>
        (s.onSnapshot typeUrl snapshot (nonce typeUrl)).2).toList := by
  unfold Session.newsTurn Turn.responses
  dsimp only
  rw [filterMap_map_some (f := Reply.whole) (g := Reply.whole?) fun _ => rfl]
  refine Catalog.filter_filterMap_mapWithKey session.subscriptions
    (fun typeUrl s => s.onSnapshot typeUrl snapshot (nonce typeUrl)) Response.typeUrl ?_ typeUrl
  intro typeUrl s response hresponse
  rcases s.onSnapshot_cases typeUrl snapshot (nonce typeUrl) with ⟨heq, -⟩ | ⟨heq, -⟩
  · rw [heq] at hresponse
    cases hresponse
  · rw [heq] at hresponse
    obtain rfl := Option.some.inj hresponse
    rfl

theorem Session.RemembersAll.news (h : session.RemembersAll resolve turns) (snapshot : Snapshot)
    (nonce : String → String) :
    (session.onSnapshot snapshot nonce).1.RemembersAll resolve
      (turns ++ [session.newsTurn snapshot nonce]) := by
  intro typeUrl
  have hknown := h typeUrl
  have hresponses := session.newsTurn_responses snapshot nonce typeUrl
  have hanswers : (session.newsTurn snapshot nonce).answers? typeUrl = none := rfl
  rw [session.onSnapshot_get?]
  cases hget : session.subscriptions.get? typeUrl with
  | none =>
      rw [hget] at hknown hresponses
      exact hknown.same hanswers hresponses
  | some s =>
      rw [hget] at hknown hresponses
      exact hknown.news snapshot (nonce typeUrl) hanswers hresponses

theorem Session.RemembersAll.newsTurn_exact (h : session.RemembersAll resolve turns)
    (snapshot : Snapshot) (nonce : String → String) :
    (session.newsTurn snapshot nonce).Exact resolve turns := by
  intro response hmem
  -- the type of the response is that of a subscription that has spoken
  have htype : response ∈ (session.newsTurn snapshot nonce).responses response.typeUrl := by
    unfold Turn.responses
    rw [List.mem_filter, List.mem_filterMap]
    exact ⟨⟨.whole response, hmem, rfl⟩, decide_eq_true rfl⟩
  rw [session.newsTurn_responses, Option.mem_toList] at htype
  obtain ⟨s, hget, hresponse⟩ := Option.bind_eq_some_iff.mp htype
  have hknown := h response.typeUrl
  rw [hget] at hknown
  rcases s.onSnapshot_cases response.typeUrl snapshot (nonce response.typeUrl) with
    ⟨heq, -⟩ | ⟨heq, hnonce⟩
  · rw [heq] at hresponse
    cases hresponse
  · rw [heq] at hresponse
    have hbuild := (Option.some.inj hresponse).symm
    have hanswers : (session.newsTurn snapshot nonce).answers? response.typeUrl = none := rfl
    obtain ⟨request, last, h1, -, hnames, -⟩ := hknown.spoken_of_nonce hnonce
    refine ⟨request, s.kind, ?_, hknown.kind_eq, ?_, ?_⟩
    · rw [answered?_snoc, hanswers, Option.none_or, h1]
    · exact congrArg Response.version hbuild
    · rw [← hnames]
      exact congrArg Response.resources hbuild

end session

/-! ### Conversations -/

/-- A conversation turn by turn: the session remembers what the turns tell, and each response is
exact. -/
theorem Conversation.whole {resolve : String → Option Kind} {turns : List Turn} {s : AnySession}
    (h : Conversation resolve (.whole .new) turns s) :
    ∃ session, s = .whole session ∧ session.RemembersAll resolve turns ∧
      ∀ earlier t later, turns = earlier ++ t :: later → t.Exact resolve earlier := by
  induction h with
  | opening =>
      refine ⟨.new, rfl, fun typeUrl => .absent rfl rfl, fun earlier t later hsplit => ?_⟩
      simp at hsplit
  | ask ask kind snapshot nonce _ hkind ih =>
      obtain ⟨session, rfl, hremembers, hexact⟩ := ih
      cases ask with
      | whole request =>
          exact ⟨_, rfl, hremembers.ask hkind snapshot nonce,
            forall_split_snoc hexact (hremembers.askTurn_exact hkind snapshot nonce)⟩
      | delta request =>
          refine ⟨session, rfl, fun typeUrl => (hremembers typeUrl).same rfl rfl,
            forall_split_snoc hexact fun response hmem => ?_⟩
          cases hmem
  | news snapshot nonce _ ih =>
      obtain ⟨session, rfl, hremembers, hexact⟩ := ih
      exact ⟨_, rfl, hremembers.news snapshot nonce,
        forall_split_snoc hexact (hremembers.newsTurn_exact snapshot nonce)⟩

/-! ### Up to date -/

/-- Each type that has been answered was last sent what the snapshot selects. -/
def Session.UpToDate (session : Session) (snapshot : Snapshot) : Prop :=
  ∀ typeUrl s, session.subscriptions.get? typeUrl = some s → s.lastNonce ≠ none →
    s.isCurrent snapshot = true

def upToDate : AnySession → Snapshot → Prop
  | .whole session, snapshot => session.UpToDate snapshot
  | .delta _, _ => True

theorem Session.UpToDate.ask {session : Session} {snapshot : Snapshot}
    (h : session.UpToDate snapshot) (kind : Kind) (request : Request) (nonce : String) :
    (session.onRequest kind request snapshot nonce).1.UpToDate snapshot := by
  intro typeUrl s hget hnonce
  unfold Session.onRequest at hget
  dsimp only at hget
  rw [Catalog.get?_insert] at hget
  split at hget
  · have hs := Option.some.inj hget
    rcases Subscription.onRequest_cases
      ((session.subscriptions.get? request.typeUrl).getD (.new kind)) request snapshot nonce with
      ⟨heq, -⟩ | heq
    · rw [heq] at hs
      cases hknown : session.subscriptions.get? request.typeUrl with
      | none =>
          rw [hknown] at hs
          obtain rfl : Subscription.new kind = s := hs
          exact absurd rfl hnonce
      | some s' =>
          rw [hknown] at hs
          obtain rfl : s' = s := hs
          exact h _ _ hknown hnonce
    · rw [heq] at hs
      obtain rfl := hs
      exact decide_eq_true rfl
  · exact h typeUrl s hget hnonce

theorem Session.upToDate_news (session : Session) (snapshot : Snapshot) (nonce : String → String) :
    (session.onSnapshot snapshot nonce).1.UpToDate snapshot := by
  intro typeUrl s hget hnonce
  rw [session.onSnapshot_get?] at hget
  obtain ⟨s', hknown, hs⟩ := Option.map_eq_some_iff.mp hget
  rcases s'.onSnapshot_cases typeUrl snapshot (nonce typeUrl) with ⟨heq, hcurrent⟩ | ⟨heq, -⟩
  · rw [heq] at hs
    obtain rfl : s' = s := hs
    exact hcurrent.resolve_left hnonce
  · rw [heq] at hs
    obtain rfl := hs
    exact decide_eq_true rfl

theorem upToDate_steady : Steady (.whole .new) upToDate where
  opening snapshot typeUrl s hget := by cases hget
  ask s ask kind snapshot nonce h := by
    cases s with
    | delta session => cases ask <;> trivial
    | whole session =>
        cases ask with
        | whole request => exact Session.UpToDate.ask h kind request nonce
        | delta request => exact h
  news s snapshot nonce := by
    cases s with
    | delta session => trivial
    | whole session => exact session.upToDate_news snapshot nonce

/-! ### Streams -/

/-- The responses of turns, in order. -/
def responses (turns : List Turn) : List Response :=
  (turns.flatMap (·.replies)).filterMap Reply.whole?

/-- Turns at snapshots of no older and older versions have responses of such versions. -/
theorem responses_pairwise {turns : List Turn}
    (hsorted : turns.Pairwise fun a b => a.snapshot.version ≤ b.snapshot.version)
    (hversion : ∀ t ∈ turns, ∀ r, Reply.whole r ∈ t.replies → r.version = t.snapshot.version) :
    (responses turns).Pairwise fun a b => a.version ≤ b.version := by
  have hmem : ∀ {replies : List Reply} {r : Response},
      r ∈ replies.filterMap Reply.whole? → Reply.whole r ∈ replies := by
    intro replies r hr
    obtain ⟨reply, hreply, heq⟩ := List.mem_filterMap.mp hr
    cases reply with
    | whole r' => rwa [← Option.some.inj heq]
    | delta r' => cases heq
  induction turns with
  | nil => exact .nil
  | cons t rest ih =>
      obtain ⟨hfirst, hrest⟩ := List.pairwise_cons.mp hsorted
      unfold responses at ih ⊢
      rw [List.flatMap_cons, List.filterMap_append]
      refine List.pairwise_append.mpr ⟨?_, ?_, ?_⟩
      · refine List.pairwise_of_forall_mem_list fun a ha b hb => le_of_eq ?_
        rw [hversion t List.mem_cons_self a (hmem ha), hversion t List.mem_cons_self b (hmem hb)]
      · exact ih hrest fun u hu => hversion u (List.mem_cons_of_mem _ hu)
      · intro a ha b hb
        obtain ⟨u, hu, hreply⟩ := List.mem_flatMap.mp (hmem hb)
        rw [hversion t List.mem_cons_self a (hmem ha),
          hversion u (List.mem_cons_of_mem _ hu) b hreply]
        exact hfirst u hu

section stream
variable {before : List Hall.Move} {protocol : Protocol} {scope : Scope} {serial : ℕ}
  {moves : List Exchange.Move} {e : Exchange}

/-- A stream over a store and its listeners, after any moves: its turns tell of the requests and
of the snapshots that were current; each response is the selection of the snapshot of its turn;
versions never go back; and at rest the last response of every type is the selection of the current
snapshot. -/
theorem convergence
    (hrun : (Exchange.opening (before.foldl Hall.step .empty) .stream protocol scope serial).run
      moves = some e) :
    e.Recorded protocol moves ∧
    (∀ earlier t later, e.turns = earlier ++ t :: later →
      t.Exact (fun typeUrl => (scope.resolve protocol typeUrl).toOption) earlier) ∧
    (responses e.turns).Pairwise (fun a b => a.version ≤ b.version) ∧
    (e.Rest → ∀ typeUrl response, lastResponse? typeUrl e.turns = some response →
      ∃ request kind, answered? typeUrl e.turns = some request ∧
        scope.resolve protocol typeUrl = .ok kind ∧
        response.resources =
          ((e.hall.store.snapshot protocol).2.select kind request.names).map (·.body)) := by
  have hs := (Exchange.opening_sound (Hall.empty_sound.run before) .stream protocol scope serial
    upToDate_steady).run upToDate_steady hrun
  have hrecorded := Exchange.recorded_of_run (Hall.empty_sound.run before) hrun
  have hprotocol : e.stream.protocol = protocol := (Exchange.run_frame hrun).1
  obtain ⟨s, hconversation, hsession⟩ := hs.session
  obtain ⟨session, rfl, hremembers, hexact⟩ := hconversation.whole
  rw [Exchange.resolve?_of_run hrun] at hexact hremembers
  refine ⟨hrecorded, hexact, ?_, ?_⟩
  · refine responses_pairwise hs.sorted fun t ht r hr => ?_
    obtain ⟨earlier, later, hsplit⟩ := List.append_of_mem ht
    obtain ⟨request, kind, -, -, hversion, -⟩ := hexact earlier t later hsplit r hr
    exact hversion
  · intro hrest typeUrl response hlast
    have hcurrent := (hs.fresh hrest.isOpen).resolve_left (by rw [hrest.noNews]; simp)
    rw [hsession hrest.isOpen] at hcurrent
    rw [← hprotocol, hs.snapshot_eq hrest.isOpen, hprotocol]
    have hknown := hremembers typeUrl
    cases hget : session.subscriptions.get? typeUrl with
    | none =>
        rw [hget] at hknown
        cases hknown with
        | absent _ hnone =>
            rw [hnone] at hlast
            cases hlast
    | some sub =>
        rw [hget] at hknown
        cases hknown with
        | silent _ _ _ _ hnone =>
            rw [hnone] at hlast
            cases hlast
        | spoken _ request response' hkind hnonce hanswered hlast' hnames hsent =>
            obtain rfl : response' = response := Option.some.inj (hlast'.symm.trans hlast)
            refine ⟨request, sub.kind, hanswered, ok_of_toOption hkind, ?_⟩
            rw [← hsent, ← hnames]
            exact (of_decide_eq_true (hcurrent typeUrl sub hget hnonce)).symm

end stream

/-! ### A run with a change between the requests -/

namespace Exchange

/-- The proxy asks for all listeners and then for one, while another is stored and the first one
changes. -/
def narrowingMoves : List Move :=
  [.send (.ask (.whole ⟨listenerUrl, [], "", false⟩)), .takeInput,
    .hall (writeListener "b" 2), .send (.ask (.whole ⟨listenerUrl, ["b"], token 0 0, false⟩)),
    .takeInput, .takeSnapshot, .hall (writeListener "b" 3), .takeSnapshot]

def afterNarrowing : Exchange :=
  ((opening ([writeListener "a" 1].foldl Hall.step .empty) .stream .v3 .aggregated 0).run
    narrowingMoves).get (by decide +kernel)

end Exchange

theorem response_after_narrowing : Exchange.afterNarrowing.Rest ∧
    ∃ response, lastResponse? Exchange.listenerUrl Exchange.afterNarrowing.turns = some response ∧
      response.resources =
        ((Exchange.afterNarrowing.hall.store.snapshot .v3).2.select .listener ["b"]).map
          (·.body) := by
  have hrun : (Exchange.opening ([Exchange.writeListener "a" 1].foldl Hall.step .empty) .stream .v3
      .aggregated 0).run Exchange.narrowingMoves = some Exchange.afterNarrowing :=
    (Option.some_get _).symm
  have hrest : Exchange.afterNarrowing.Rest := by decide +kernel
  obtain ⟨response, hlast⟩ := Option.isSome_iff_exists.mp
    (show (lastResponse? Exchange.listenerUrl Exchange.afterNarrowing.turns).isSome = true by
      decide +kernel)
  have hanswered : answered? Exchange.listenerUrl Exchange.afterNarrowing.turns =
      some ⟨Exchange.listenerUrl, ["b"], token 0 0, false⟩ := by decide +kernel
  obtain ⟨-, -, -, hcurrent⟩ := convergence hrun
  obtain ⟨request, kind, hrequest, hkind, hresources⟩ :=
    hcurrent hrest Exchange.listenerUrl response hlast
  obtain rfl := Option.some.inj (hrequest.symm.trans hanswered)
  have hlistener : Scope.aggregated.resolve .v3 Exchange.listenerUrl = .ok .listener := by
    decide +kernel
  obtain rfl := Except.ok.inj (hkind.symm.trans hlistener)
  exact ⟨hrest, response, hlast, hresources⟩

end ControlPlane.Discovery
