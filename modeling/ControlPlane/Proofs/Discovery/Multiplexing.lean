import ControlPlane.Proofs.Discovery.Incremental
import ControlPlane.Proofs.Discovery.StateOfTheWorld

/-! # Types on one stream keep apart

A session takes up requests for many types and snapshots (`AnySession.answers`).  What it says of
one type is what another session says that is given the same snapshots but only the requests for
this type, up to the nonces, of which the k-th of one run stands for the k-th of the other
(`Restates`).  All that a session goes by is what it knows of the type (`Twins`), and a request
for another type leaves that alone.  A stream that serves all kinds is such a session, and passes
over the requests for types that are not served (`answers_apart`). -/

namespace ControlPlane.Discovery

def Reply.typeUrl : Reply → String
  | whole r => r.typeUrl
  | delta r => r.typeUrl

def Reply.nonce : Reply → String
  | whole r => r.nonce
  | delta r => r.nonce

/-- A response but for its nonce. -/
def Response.content (r : Response) : Response := { r with nonce := "" }

def Incremental.Response.content (r : Response) : Response := { r with nonce := "" }

def Reply.content : Reply → Reply
  | whole r => whole r.content
  | delta r => delta r.content

def Reply.withNonce (nonce : String) : Reply → Reply
  | whole r => whole { r with nonce := nonce }
  | delta r => delta { r with nonce := nonce }

theorem Reply.content_withNonce (r : Reply) : r.content.withNonce r.nonce = r := by
  cases r <;> rfl

def Ask.nonce : Ask → String
  | whole r => r.nonce
  | delta r => r.nonce

/-- The same request with another nonce. -/
def Ask.withNonce (nonce : String) : Ask → Ask
  | whole r => whole { r with nonce := nonce }
  | delta r => delta { r with nonce := nonce }

/-! ### Runs of a session -/

/-- What a session is given to take up, and nonces for what it may say to that. -/
inductive Occasion where
  | ask (ask : Ask) (snapshot : Snapshot) (nonce : String)
  | news (snapshot : Snapshot) (nonce : String → String)

/-- Every snapshot concerns all types. -/
def Occasion.concerns (typeUrl : String) : Occasion → Bool
  | ask a _ _ => a.typeUrl = typeUrl
  | news _ _ => true

/-- The nonce for what may be said of a type. -/
def Occasion.nonceFor (typeUrl : String) : Occasion → String
  | ask _ _ nonce => nonce
  | news _ nonce => nonce typeUrl

namespace AnySession

/-- Takes up one thing.  Requests for types that resolve to no kind are passed over. -/
def meet (resolve : String → Option Kind) (s : AnySession) : Occasion → AnySession × List Reply
  | .ask ask snapshot nonce =>
    match resolve ask.typeUrl with
    | none => (s, [])
    | some kind =>
      let (s, reply) := s.onRequest kind ask snapshot nonce
      (s, reply.toList)
  | .news snapshot nonce => s.onSnapshot snapshot nonce

/-- A run, with what the session says at each point of it. -/
def answers (resolve : String → Option Kind) :
    AnySession → List Occasion → List (Occasion × List Reply)
  | _, [] => []
  | s, o :: rest => (o, (s.meet resolve o).2) :: answers resolve (s.meet resolve o).1 rest

end AnySession

/-- The replies for a type. -/
def about (typeUrl : String) (replies : List Reply) : List Reply :=
  replies.filter fun r => r.typeUrl = typeUrl

/-- What is said of a type at one point of a run, but for the nonces. -/
def contents (typeUrl : String) (point : Occasion × List Reply) : List Reply :=
  (about typeUrl point.2).map Reply.content

/-- The nonces that were issued for a type, in order. -/
def nonces (typeUrl : String) (points : List (Occasion × List Reply)) : List String :=
  points.flatMap fun p => (about typeUrl p.2).map Reply.nonce

/-- Two nonces that stand for the same response: each is the k-th that was issued, or neither was
issued.  A request that names no response has an empty one. -/
structure SameNonce (issued issued' : List String) (nonce nonce' : String) : Prop where
  isEmpty : nonce = "" ↔ nonce' = ""
  number : ∀ k : ℕ, issued[k]? = some nonce ↔ issued'[k]? = some nonce'

/-- The same occasion in two runs that issue these nonces for a type. -/
inductive Restates (issued issued' : List String) : Occasion → Occasion → Prop
  | ask (ask : Ask) (snapshot : Snapshot) (named nonce nonce' : String) :
      SameNonce issued issued' ask.nonce named →
      Restates issued issued' (.ask ask snapshot nonce)
        (.ask (ask.withNonce named) snapshot nonce')
  | news (snapshot : Snapshot) (nonce nonce' : String → String) :
      Restates issued issued' (.news snapshot nonce) (.news snapshot nonce')

/-! ### What a session knows of a type -/

/-- What two sessions know of a type after they have issued these nonces for it. -/
inductive Twin (issued issued' : List String) : Subscription → Subscription → Prop
  | intro (kind : Kind) (names : List String) (sent : List Payload) :
      Twin issued issued' ⟨kind, names, issued.getLast?, sent⟩
        ⟨kind, names, issued'.getLast?, sent⟩

/-- Two sessions that go on alike as far as a type is concerned. -/
inductive Twins (typeUrl : String) (issued issued' : List String) : AnySession → AnySession → Prop
  | unknown (s s' : Session) : issued = [] → issued' = [] →
      s.subscriptions.get? typeUrl = none → s'.subscriptions.get? typeUrl = none →
      Twins typeUrl issued issued' (.whole s) (.whole s')
  | known (s s' : Session) (known known' : Subscription) :
      s.subscriptions.get? typeUrl = some known → s'.subscriptions.get? typeUrl = some known' →
      Twin issued issued' known known' →
      Twins typeUrl issued issued' (.whole s) (.whole s')
  | delta (s s' : Incremental.Session) :
      s.subscriptions.get? typeUrl = s'.subscriptions.get? typeUrl →
      Twins typeUrl issued issued' (.delta s) (.delta s')

/-- The nonces issued so far are the first of all that two runs issue. -/
structure Soon (issued issued' all all' : List String) : Prop where
  length : issued.length = issued'.length
  isPrefix : issued <+: all
  isPrefix' : issued' <+: all'

theorem SameNonce.last {issued issued' all all' : List String} {nonce nonce' : String}
    (h : SameNonce all all' nonce nonce') (hsoon : Soon issued issued' all all') :
    issued.getLast? = some nonce ↔ issued'.getLast? = some nonce' := by
  obtain ⟨later, rfl⟩ := hsoon.isPrefix
  obtain ⟨later', rfl⟩ := hsoon.isPrefix'
  have hnumber := h.number (issued.length - 1)
  rw [List.getLast?_eq_getElem?, List.getLast?_eq_getElem?, ← hsoon.length]
  rcases Nat.eq_zero_or_pos issued.length with hzero | hpos
  · have hzero' : issued'.length = 0 := hsoon.length ▸ hzero
    rw [List.length_eq_zero_iff.mp hzero, List.length_eq_zero_iff.mp hzero']
    simp
  · have hlt : issued.length - 1 < issued.length := by omega
    have hlt' : issued.length - 1 < issued'.length := hsoon.length ▸ hlt
    rwa [List.getElem?_append_left hlt, List.getElem?_append_left hlt'] at hnumber

section twin
variable {issued issued' all all' : List String} {known known' : Subscription}

theorem Twin.isCurrent_eq (h : Twin issued issued' known known') (snapshot : Snapshot) :
    known.isCurrent snapshot = known'.isCurrent snapshot := by
  cases h
  rfl

/-- Two subscriptions for which other names are asked. -/
theorem Twin.rename (h : Twin issued issued' known known') (names : List String) :
    Twin issued issued' { known with names := names } { known' with names := names } := by
  cases h
  exact .intro _ _ _

/-- Two subscriptions that respond say the same. -/
theorem Twin.respond (h : Twin issued issued' known known') (typeUrl : String)
    (snapshot : Snapshot) (nonce nonce' : String) :
    let x := known.respond typeUrl snapshot nonce
    let y := known'.respond typeUrl snapshot nonce'
    x.2.content = y.2.content ∧
      Twin (issued ++ [x.2.nonce]) (issued' ++ [y.2.nonce]) x.1 y.1 := by
  have hlast : ∀ (l : List String) (n : String), some n = (l ++ [n]).getLast? :=
    fun l n => by simp
  cases h with
  | intro kind names sent =>
      refine ⟨rfl, ?_⟩
      simp only [Subscription.respond, Response.build]
      rw [hlast issued nonce, hlast issued' nonce']
      exact .intro _ _ _

/-- Whether a request is answered does not depend on how the nonces are called. -/
theorem Twin.answers_eq (h : Twin issued issued' known known') {request : Request}
    {named : String} (hsame : SameNonce all all' request.nonce named)
    (hsoon : Soon issued issued' all all') (snapshot : Snapshot) :
    known.answers request snapshot = known'.answers { request with nonce := named } snapshot := by
  have hcurrent := h.isCurrent_eq snapshot
  have hlast := hsame.last hsoon
  cases h with
  | intro kind names sent =>
      unfold Subscription.answers
      dsimp only
      rw [hcurrent]
      simp only [ne_eq, hlast, hsame.isEmpty]

/-- Two subscriptions after a request: both answer, or neither does. -/
theorem Twin.onRequest (h : Twin issued issued' known known') {request : Request}
    {named : String} (hsame : SameNonce all all' request.nonce named)
    (hsoon : Soon issued issued' all all') (snapshot : Snapshot) (nonce nonce' : String) :
    let x := known.onRequest request snapshot nonce
    let y := known'.onRequest { request with nonce := named } snapshot nonce'
    x.2.map Response.content = y.2.map Response.content ∧
      Twin (issued ++ x.2.toList.map (·.nonce)) (issued' ++ y.2.toList.map (·.nonce)) x.1 y.1 := by
  have hanswers := h.answers_eq hsame hsoon snapshot
  unfold Subscription.onRequest
  rw [← hanswers]
  cases known.answers request snapshot with
  | false => simpa using h
  | true =>
      obtain ⟨hcontent, htwin⟩ :=
        (h.rename request.names).respond request.typeUrl snapshot nonce nonce'
      exact ⟨congrArg some hcontent, htwin⟩

/-- Two subscriptions after a snapshot. -/
theorem Twin.onSnapshot (h : Twin issued issued' known known')
    (hlength : issued.length = issued'.length) (typeUrl : String) (snapshot : Snapshot)
    (nonce nonce' : String) :
    let x := known.onSnapshot typeUrl snapshot nonce
    let y := known'.onSnapshot typeUrl snapshot nonce'
    x.2.map Response.content = y.2.map Response.content ∧
      Twin (issued ++ x.2.toList.map (·.nonce)) (issued' ++ y.2.toList.map (·.nonce)) x.1 y.1 := by
  have hcurrent := h.isCurrent_eq snapshot
  have hspoken : known.lastNonce.isNone = known'.lastNonce.isNone := by
    cases h
    rw [Bool.eq_iff_iff, Option.isNone_iff_eq_none, Option.isNone_iff_eq_none,
      List.getLast?_eq_none_iff, List.getLast?_eq_none_iff, ← List.length_eq_zero_iff,
      ← List.length_eq_zero_iff, hlength]
  unfold Subscription.onSnapshot
  rw [← hcurrent, ← hspoken]
  cases (known.lastNonce.isNone || known.isCurrent snapshot) with
  | true => simpa using h
  | false =>
      obtain ⟨hcontent, htwin⟩ := h.respond typeUrl snapshot nonce nonce'
      exact ⟨congrArg some hcontent, htwin⟩

end twin

/-! ### Sessions -/

section about
variable (typeUrl : String)

theorem about_map_whole (l : List Response) :
    about typeUrl (l.map .whole) = (l.filter fun r => r.typeUrl = typeUrl).map .whole := by
  unfold about
  rw [List.filter_map]
  rfl

theorem about_map_delta (l : List Incremental.Response) :
    about typeUrl (l.map .delta) = (l.filter fun r => r.typeUrl = typeUrl).map .delta := by
  unfold about
  rw [List.filter_map]
  rfl

/-- What a turn says of a type. -/
theorem responses_of_whole (cause : Cause) (snapshot : Snapshot) (l : List Response) :
    (Turn.mk cause snapshot (l.map .whole)).responses typeUrl =
      l.filter fun r => r.typeUrl = typeUrl := by
  unfold Turn.responses
  rw [filterMap_map_some (f := Reply.whole) (g := Reply.whole?) fun _ => rfl]

theorem responsesFor_of_delta (cause : Cause) (snapshot : Snapshot)
    (l : List Incremental.Response) :
    Incremental.responsesFor typeUrl (Turn.mk cause snapshot (l.map .delta)) =
      l.filter fun r => r.typeUrl = typeUrl := by
  unfold Incremental.responsesFor
  rw [filterMap_map_some (f := Reply.delta) (g := Incremental.delta?) fun _ => rfl]

end about

section whole
variable (session : Session) (kind : Kind) {request : Request} (snapshot : Snapshot)

/-- A request is answered, if it is, with a response for its type. -/
theorem Session.onRequest_filter (request : Request) (nonce typeUrl : String) :
    ((session.onRequest kind request snapshot nonce).2.toList.filter fun r => r.typeUrl = typeUrl) =
      if request.typeUrl = typeUrl then (session.onRequest kind request snapshot nonce).2.toList
      else [] := by
  rw [← session.askTurn_responses kind request snapshot nonce typeUrl, Session.askTurn,
    Option.toList_map, responses_of_whole]

theorem Session.onRequest_get?_of_ne (nonce : String) {typeUrl : String}
    (h : request.typeUrl ≠ typeUrl) :
    (session.onRequest kind request snapshot nonce).1.subscriptions.get? typeUrl =
      session.subscriptions.get? typeUrl :=
  Catalog.get?_insert_of_ne _ _ (Ne.symm h)

/-- A snapshot is answered for each type by its own subscription. -/
theorem Session.onSnapshot_filter (nonce : String → String) (typeUrl : String) :
    ((session.onSnapshot snapshot nonce).2.filter fun r => r.typeUrl = typeUrl) =
      ((session.subscriptions.get? typeUrl).bind fun s =>
        (s.onSnapshot typeUrl snapshot (nonce typeUrl)).2).toList := by
  rw [← session.newsTurn_responses snapshot nonce typeUrl, Session.newsTurn, responses_of_whole]

theorem Session.onRequest_nonce {nonce : String} {response : Response}
    (h : (session.onRequest kind request snapshot nonce).2 = some response) :
    response.nonce = nonce := by
  have hanswer : (((session.subscriptions.get? request.typeUrl).getD (.new kind)).onRequest request
      snapshot nonce).2 = some response := h
  rcases ((session.subscriptions.get? request.typeUrl).getD (.new kind)).onRequest_cases request
    snapshot nonce with ⟨heq, -⟩ | heq
  · rw [heq] at hanswer
    cases hanswer
  · rw [heq] at hanswer
    exact (congrArg Response.nonce (Option.some.inj hanswer)).symm

theorem Session.onSnapshot_nonce {nonce : String → String} {response : Response}
    (h : response ∈ (session.onSnapshot snapshot nonce).2) :
    response.nonce = nonce response.typeUrl := by
  have hown : response ∈ (session.onSnapshot snapshot nonce).2.filter fun r =>
      r.typeUrl = response.typeUrl := List.mem_filter.mpr ⟨h, decide_eq_true rfl⟩
  rw [session.onSnapshot_filter, Option.mem_toList] at hown
  obtain ⟨subscription, -, hsaid⟩ := Option.bind_eq_some_iff.mp hown
  rcases subscription.onSnapshot_cases response.typeUrl snapshot (nonce response.typeUrl) with
    ⟨heq, -⟩ | ⟨heq, -⟩
  · rw [heq] at hsaid
    cases hsaid
  · rw [heq] at hsaid
    exact (congrArg Response.nonce (Option.some.inj hsaid)).symm

end whole

namespace Incremental

/-- What a response says does not depend on the nonce. -/
theorem respond_content (s : Subscription) (typeUrl : String) (snapshot : Snapshot)
    (nonce nonce' : String) (always : Bool) :
    (s.respond typeUrl snapshot nonce always).2.map Response.content =
        (s.respond typeUrl snapshot nonce' always).2.map Response.content ∧
      (s.respond typeUrl snapshot nonce always).1
        = (s.respond typeUrl snapshot nonce' always).1 := by
  unfold Subscription.respond
  dsimp only
  split
  · exact ⟨rfl, rfl⟩
  · exact ⟨rfl, rfl⟩

theorem respond_nonce {s : Subscription} {typeUrl nonce : String} {snapshot : Snapshot}
    {always : Bool} {response : Response}
    (h : (s.respond typeUrl snapshot nonce always).2 = some response) : response.nonce = nonce := by
  unfold Subscription.respond at h
  dsimp only at h
  split at h
  · cases h
  · rw [← Option.some.inj h]

section delta
variable (session : Session) (kind : Kind) (snapshot : Snapshot)

theorem Session.onRequest_filter (request : Request) (nonce typeUrl : String) :
    ((session.onRequest kind request snapshot nonce).2.toList.filter fun r => r.typeUrl = typeUrl) =
      if request.typeUrl = typeUrl then (session.onRequest kind request snapshot nonce).2.toList
      else [] := by
  rw [← session.askTurn_responses kind request snapshot nonce typeUrl, Session.askTurn,
    Option.toList_map, responsesFor_of_delta]

theorem Session.onRequest_get?_of_ne {request : Request} (nonce : String) {typeUrl : String}
    (h : request.typeUrl ≠ typeUrl) :
    (session.onRequest kind request snapshot nonce).1.subscriptions.get? typeUrl =
      session.subscriptions.get? typeUrl := by
  rcases session.onRequest_cases kind request snapshot nonce with ⟨-, hsame, -⟩ | ⟨-, heq⟩
  · exact hsame typeUrl
  · rw [heq]
    exact Catalog.get?_insert_of_ne _ _ (Ne.symm h)

theorem Session.onSnapshot_filter (nonce : String → String) (typeUrl : String) :
    ((session.onSnapshot snapshot nonce).2.filter fun r => r.typeUrl = typeUrl) =
      ((session.subscriptions.get? typeUrl).bind fun s =>
        (s.respond typeUrl snapshot (nonce typeUrl) false).2).toList := by
  rw [← session.newsTurn_responses snapshot nonce typeUrl, Session.newsTurn, responsesFor_of_delta]

theorem Session.onRequest_nonce {request : Request} {nonce : String} {response : Response}
    (h : (session.onRequest kind request snapshot nonce).2 = some response) :
    response.nonce = nonce := by
  rcases session.onRequest_cases kind request snapshot nonce with ⟨hnone, -⟩ | ⟨-, heq⟩
  · rw [hnone] at h
    cases h
  · rw [heq] at h
    exact respond_nonce h

theorem Session.onSnapshot_nonce {nonce : String → String} {response : Response}
    (h : response ∈ (session.onSnapshot snapshot nonce).2) :
    response.nonce = nonce response.typeUrl := by
  have hown : response ∈ (session.onSnapshot snapshot nonce).2.filter fun r =>
      r.typeUrl = response.typeUrl := List.mem_filter.mpr ⟨h, decide_eq_true rfl⟩
  rw [session.onSnapshot_filter, Option.mem_toList] at hown
  obtain ⟨subscription, -, hsaid⟩ := Option.bind_eq_some_iff.mp hown
  exact respond_nonce hsaid

/-- Sessions that know the same of a type answer a request for it alike, whatever it names. -/
theorem Session.onRequest_content {session session' : Session} {request : Request}
    (hsame : session.subscriptions.get? request.typeUrl =
      session'.subscriptions.get? request.typeUrl) (named nonce nonce' : String) :
    let x := session.onRequest kind request snapshot nonce
    let y := session'.onRequest kind { request with nonce := named } snapshot nonce'
    x.2.map Response.content = y.2.map Response.content ∧
      x.1.subscriptions.get? request.typeUrl = y.1.subscriptions.get? request.typeUrl := by
  have hnew : Subscription.new kind { request with nonce := named } = .new kind request := rfl
  have happly : ∀ s : Subscription,
      s.applyInterest { request with nonce := named } = s.applyInterest request := fun _ => rfl
  unfold Session.onRequest
  dsimp only
  rw [← hsame, hnew, happly]
  split
  · exact ⟨rfl, hsame⟩
  · generalize session.subscriptions.get? request.typeUrl = known
    dsimp only
    rw [Catalog.get?_insert_self, Catalog.get?_insert_self]
    split
    · exact ⟨rfl, rfl⟩
    · obtain ⟨hcontent, hsubscription⟩ := respond_content
        ((known.getD (.new kind request)).applyInterest request) request.typeUrl snapshot nonce
        nonce' known.isNone
      exact ⟨hcontent, congrArg some hsubscription⟩

end delta

end Incremental

/-! ### One thing at a time -/

/-- What two sessions say of a type at one point, and how they go on. -/
structure Together (typeUrl : String) (issued issued' : List String)
    (x y : AnySession × List Reply) : Prop where
  contents : (about typeUrl x.2).map Reply.content = (about typeUrl y.2).map Reply.content
  twins : Twins typeUrl (issued ++ (about typeUrl x.2).map Reply.nonce)
    (issued' ++ (about typeUrl y.2).map Reply.nonce) x.1 y.1

section meet
variable {resolve : String → Option Kind} {typeUrl : String} {issued issued' all all' : List String}
  {s s' : AnySession} {o o' : Occasion}

/-- Sessions whose subscriptions answer, or do not. -/
theorem Together.whole {t t' : Session} {known known' : Subscription}
    {answer answer' : Option Response} {replies replies' : List Response}
    (hknown : t.subscriptions.get? typeUrl = some known)
    (hknown' : t'.subscriptions.get? typeUrl = some known')
    (hsaid : (replies.filter fun r => r.typeUrl = typeUrl) = answer.toList)
    (hsaid' : (replies'.filter fun r => r.typeUrl = typeUrl) = answer'.toList)
    (h : answer.map Response.content = answer'.map Response.content ∧
      Twin (issued ++ answer.toList.map (·.nonce)) (issued' ++ answer'.toList.map (·.nonce))
        known known') :
    Together typeUrl issued issued' (.whole t, replies.map .whole)
      (.whole t', replies'.map .whole) := by
  have hcontent : ∀ o : Option Response, (o.toList.map Reply.whole).map Reply.content =
      (o.map Response.content).toList.map Reply.whole := fun o => by
    cases o <;> rfl
  have hnonce : ∀ l : List Response, (l.map Reply.whole).map Reply.nonce = l.map (·.nonce) :=
    fun l => List.map_map
  constructor
  · rw [about_map_whole, about_map_whole, hsaid, hsaid', hcontent, hcontent, h.1]
  · rw [about_map_whole, about_map_whole, hsaid, hsaid', hnonce, hnonce]
    exact .known t t' known known' hknown hknown' h.2

theorem Together.delta {t t' : Incremental.Session} {answer answer' : Option Incremental.Response}
    {replies replies' : List Incremental.Response}
    (hsame : t.subscriptions.get? typeUrl = t'.subscriptions.get? typeUrl)
    (hsaid : (replies.filter fun r => r.typeUrl = typeUrl) = answer.toList)
    (hsaid' : (replies'.filter fun r => r.typeUrl = typeUrl) = answer'.toList)
    (h : answer.map Incremental.Response.content = answer'.map Incremental.Response.content) :
    Together typeUrl issued issued' (.delta t, replies.map .delta)
      (.delta t', replies'.map .delta) := by
  have hcontent : ∀ o : Option Incremental.Response, (o.toList.map Reply.delta).map Reply.content =
      (o.map Incremental.Response.content).toList.map Reply.delta := fun o => by
    cases o <;> rfl
  constructor
  · rw [about_map_delta, about_map_delta, hsaid, hsaid', hcontent, hcontent, h]
  · exact .delta t t' hsame

/-- A request for the type, in both runs. -/
theorem Twins.ask (h : Twins typeUrl issued issued' s s') (hsoon : Soon issued issued' all all')
    {ask : Ask} (htype : ask.typeUrl = typeUrl) {named : String}
    (hsame : SameNonce all all' ask.nonce named) (kind : Kind) (snapshot : Snapshot)
    (nonce nonce' : String) :
    let x := s.onRequest kind ask snapshot nonce
    let y := s'.onRequest kind (ask.withNonce named) snapshot nonce'
    Together typeUrl issued issued' (x.1, x.2.toList) (y.1, y.2.toList) := by
  have hsilent : Together typeUrl issued issued' (s, []) (s', []) :=
    ⟨rfl, by simpa [about] using h⟩
  have hwhole : ∀ t t' : Session,
      Twin issued issued' ((t.subscriptions.get? typeUrl).getD (.new kind))
        ((t'.subscriptions.get? typeUrl).getD (.new kind)) →
      s = .whole t → s' = .whole t' →
      let x := s.onRequest kind ask snapshot nonce
      let y := s'.onRequest kind (ask.withNonce named) snapshot nonce'
      Together typeUrl issued issued' (x.1, x.2.toList) (y.1, y.2.toList) := by
    rintro t t' htwin rfl rfl
    cases ask with
    | delta request => exact hsilent
    | whole request =>
        subst htype
        simp only [AnySession.onRequest, Ask.withNonce, Option.toList_map]
        refine .whole (Catalog.get?_insert_self _ _ _) (Catalog.get?_insert_self _ _ _) ?_ ?_
          (htwin.onRequest hsame hsoon snapshot nonce nonce')
        · exact (t.onRequest_filter kind snapshot request nonce request.typeUrl).trans (if_pos rfl)
        · exact (t'.onRequest_filter kind snapshot _ nonce' request.typeUrl).trans (if_pos rfl)
  cases h with
  | unknown t t' hnone hnone' hget hget' =>
      subst hnone hnone'
      refine hwhole t t' ?_ rfl rfl
      rw [hget, hget']
      exact .intro kind [] []
  | known t t' known known' hget hget' htwin =>
      refine hwhole t t' ?_ rfl rfl
      rw [hget, hget']
      exact htwin
  | delta t t' hget =>
      cases ask with
      | whole request => exact hsilent
      | delta request =>
          subst htype
          simp only [AnySession.onRequest, Ask.withNonce, Option.toList_map]
          obtain ⟨hcontent, hgets⟩ :=
            Incremental.Session.onRequest_content kind snapshot hget named nonce nonce'
          refine .delta hgets ?_ ?_ hcontent
          · exact (t.onRequest_filter kind snapshot request nonce request.typeUrl).trans
              (if_pos rfl)
          · exact (t'.onRequest_filter kind snapshot _ nonce' request.typeUrl).trans (if_pos rfl)

/-- A snapshot, in both runs. -/
theorem Twins.news (h : Twins typeUrl issued issued' s s') (hsoon : Soon issued issued' all all')
    (snapshot : Snapshot) (nonce nonce' : String → String) :
    Together typeUrl issued issued' (s.onSnapshot snapshot nonce)
      (s'.onSnapshot snapshot nonce') := by
  cases h with
  | unknown t t' hnone hnone' hget hget' =>
      have hsaid := t.onSnapshot_filter snapshot nonce typeUrl
      have hsaid' := t'.onSnapshot_filter snapshot nonce' typeUrl
      rw [hget] at hsaid
      rw [hget'] at hsaid'
      refine ⟨?_, ?_⟩
      · simp only [AnySession.onSnapshot]
        rw [about_map_whole, about_map_whole, hsaid, hsaid']
        rfl
      · simp only [AnySession.onSnapshot]
        rw [about_map_whole, about_map_whole, hsaid, hsaid', hnone, hnone']
        refine .unknown _ _ rfl rfl ?_ ?_
        · rw [t.onSnapshot_get?, hget]
          rfl
        · rw [t'.onSnapshot_get?, hget']
          rfl
  | known t t' known known' hget hget' htwin =>
      have hkept : ∀ (session : Session) (subscription : Subscription) (nonce : String → String),
          session.subscriptions.get? typeUrl = some subscription →
          (session.onSnapshot snapshot nonce).1.subscriptions.get? typeUrl =
              some (subscription.onSnapshot typeUrl snapshot (nonce typeUrl)).1 ∧
            ((session.onSnapshot snapshot nonce).2.filter fun r => r.typeUrl = typeUrl) =
              (subscription.onSnapshot typeUrl snapshot (nonce typeUrl)).2.toList := by
        intro session subscription nonce hsubscription
        rw [session.onSnapshot_get?, session.onSnapshot_filter, hsubscription]
        exact ⟨rfl, rfl⟩
      obtain ⟨hknown, hsaid⟩ := hkept t known nonce hget
      obtain ⟨hknown', hsaid'⟩ := hkept t' known' nonce' hget'
      exact .whole hknown hknown' hsaid hsaid'
        (htwin.onSnapshot hsoon.length typeUrl snapshot (nonce typeUrl) (nonce' typeUrl))
  | delta t t' hget =>
      have hkept : (t.onSnapshot snapshot nonce).1.subscriptions.get? typeUrl =
          (t'.onSnapshot snapshot nonce').1.subscriptions.get? typeUrl := by
        rw [t.onSnapshot_get?, t'.onSnapshot_get?, ← hget]
        cases t.subscriptions.get? typeUrl with
        | none => rfl
        | some known =>
            exact congrArg some (Incremental.respond_content known typeUrl snapshot (nonce typeUrl)
              (nonce' typeUrl) false).2
      refine .delta hkept (t.onSnapshot_filter snapshot nonce typeUrl)
        (t'.onSnapshot_filter snapshot nonce' typeUrl) ?_
      rw [← hget]
      cases t.subscriptions.get? typeUrl with
      | none => rfl
      | some known =>
          exact (Incremental.respond_content known typeUrl snapshot (nonce typeUrl)
            (nonce' typeUrl) false).1

/-- The same occasion in both runs. -/
theorem Twins.meet (h : Twins typeUrl issued issued' s s') (resolve : String → Option Kind)
    (hsoon : Soon issued issued' all all') (ho : Restates all all' o o')
    (hconcerns : o.concerns typeUrl = true) :
    Together typeUrl issued issued' (s.meet resolve o) (s'.meet resolve o') := by
  cases ho with
  | news snapshot nonce nonce' => exact h.news hsoon snapshot nonce nonce'
  | ask ask snapshot named nonce nonce' hsame =>
      have htype : ask.typeUrl = typeUrl := of_decide_eq_true hconcerns
      have htype' : (ask.withNonce named).typeUrl = ask.typeUrl := by cases ask <;> rfl
      unfold AnySession.meet
      dsimp only
      rw [htype']
      cases resolve ask.typeUrl with
      | none => exact ⟨rfl, by simpa [about] using h⟩
      | some kind => exact h.ask hsoon htype hsame kind snapshot nonce nonce'

/-- A request for another type says nothing of this one. -/
theorem about_of_other (s : AnySession) (h : o.concerns typeUrl = false) :
    about typeUrl (s.meet resolve o).2 = [] := by
  cases o with
  | news => cases h
  | ask ask snapshot nonce =>
      have htype : ask.typeUrl ≠ typeUrl := of_decide_eq_false h
      unfold AnySession.meet
      dsimp only
      cases resolve ask.typeUrl with
      | none => rfl
      | some kind =>
          cases s with
          | whole session =>
              cases ask with
              | delta request => rfl
              | whole request =>
                  have htype : request.typeUrl ≠ typeUrl := htype
                  simp only [AnySession.onRequest, Option.toList_map]
                  rw [about_map_whole, session.onRequest_filter, if_neg htype]
                  rfl
          | delta session =>
              cases ask with
              | whole request => rfl
              | delta request =>
                  have htype : request.typeUrl ≠ typeUrl := htype
                  simp only [AnySession.onRequest, Option.toList_map]
                  rw [about_map_delta, session.onRequest_filter, if_neg htype]
                  rfl

/-- A request for another type that one of two sessions is given. -/
theorem Twins.pass (h : Twins typeUrl issued issued' s s') (hother : o.concerns typeUrl = false) :
    Twins typeUrl issued issued' (s.meet resolve o).1 s' := by
  cases o with
  | news => cases hother
  | ask ask snapshot nonce =>
      have htype : ask.typeUrl ≠ typeUrl := of_decide_eq_false hother
      unfold AnySession.meet
      dsimp only
      cases resolve ask.typeUrl with
      | none => exact h
      | some kind =>
          cases ask with
          | whole request =>
              cases h with
              | unknown t t' hnone hnone' hget hget' =>
                  exact .unknown _ t' hnone hnone'
                    ((t.onRequest_get?_of_ne kind snapshot nonce htype).trans hget) hget'
              | known t t' known known' hget hget' htwin =>
                  exact .known _ t' known known'
                    ((t.onRequest_get?_of_ne kind snapshot nonce htype).trans hget) hget' htwin
              | delta t t' hget => exact .delta t t' hget
          | delta request =>
              cases h with
              | unknown t t' hnone hnone' hget hget' => exact .unknown t t' hnone hnone' hget hget'
              | known t t' known known' hget hget' htwin =>
                  exact .known t t' known known' hget hget' htwin
              | delta t t' hget =>
                  exact .delta _ t' ((t.onRequest_get?_of_ne kind snapshot nonce htype).trans hget)

end meet

/-! ### Runs -/

section runs
variable {resolve : String → Option Kind} {typeUrl : String} {issued issued' : List String}
  {s s' : AnySession} {run run' : List Occasion}

theorem nonces_cons (o : Occasion) (replies : List Reply) (rest : List (Occasion × List Reply)) :
    nonces typeUrl ((o, replies) :: rest) =
      (about typeUrl replies).map Reply.nonce ++ nonces typeUrl rest :=
  List.flatMap_cons

/-- What is said of the type does not depend on the requests for others. -/
theorem Twins.answers (h : Twins typeUrl issued issued' s s')
    (hlength : issued.length = issued'.length)
    (hruns : List.Forall₂ (Restates (issued ++ nonces typeUrl (s.answers resolve run))
        (issued' ++ nonces typeUrl (s'.answers resolve run')))
      (run.filter (·.concerns typeUrl)) run') :
    (s'.answers resolve run').map (contents typeUrl) =
      ((s.answers resolve run).filter (·.1.concerns typeUrl)).map (contents typeUrl) := by
  induction run generalizing s s' issued issued' run' with
  | nil =>
      rw [List.filter_nil] at hruns
      cases hruns
      rfl
  | cons o rest ih =>
      cases hconcerns : o.concerns typeUrl with
      | false =>
          rw [List.filter_cons_of_neg (by simp [hconcerns]), AnySession.answers, nonces_cons,
            about_of_other s hconcerns, List.map_nil, List.nil_append] at hruns
          rw [AnySession.answers, List.filter_cons_of_neg (by simp [hconcerns])]
          exact ih (h.pass hconcerns) hlength hruns
      | true =>
          rw [List.filter_cons_of_pos hconcerns] at hruns
          cases hruns with
          | cons ho hrest =>
              rename_i o' rest'
              have htogether := h.meet resolve
                ⟨hlength, List.prefix_append _ _, List.prefix_append _ _⟩ ho hconcerns
              have hlength' := congrArg List.length htogether.contents
              rw [List.length_map, List.length_map] at hlength'
              rw [AnySession.answers, AnySession.answers, nonces_cons, nonces_cons,
                ← List.append_assoc, ← List.append_assoc] at hrest
              rw [AnySession.answers, AnySession.answers,
                List.filter_cons_of_pos (by exact hconcerns), List.map_cons, List.map_cons,
                ih htogether.twins (by simp [hlength, hlength']) hrest]
              exact congrArg (· :: _) htogether.contents.symm

/-- What is said bears the nonces that are at hand. -/
theorem nonce_of_mem {o : Occasion} {s : AnySession} {r : Reply}
    (hmem : r ∈ (s.meet resolve o).2) : r.nonce = o.nonceFor r.typeUrl := by
  cases o with
  | ask ask snapshot nonce =>
      unfold AnySession.meet at hmem
      dsimp only at hmem
      cases hkind : resolve ask.typeUrl with
      | none =>
          rw [hkind] at hmem
          cases hmem
      | some kind =>
          rw [hkind] at hmem
          cases s with
          | whole session =>
              cases ask with
              | delta request => cases hmem
              | whole request =>
                  obtain ⟨response, hanswer, rfl⟩ :=
                    Option.map_eq_some_iff.mp (Option.mem_toList.mp hmem)
                  exact session.onRequest_nonce kind snapshot hanswer
          | delta session =>
              cases ask with
              | whole request => cases hmem
              | delta request =>
                  obtain ⟨response, hanswer, rfl⟩ :=
                    Option.map_eq_some_iff.mp (Option.mem_toList.mp hmem)
                  exact session.onRequest_nonce kind snapshot hanswer
  | news snapshot nonce =>
      cases s with
      | whole session =>
          obtain ⟨response, hanswer, rfl⟩ := List.mem_map.mp hmem
          exact session.onSnapshot_nonce snapshot hanswer
      | delta session =>
          obtain ⟨response, hanswer, rfl⟩ := List.mem_map.mp hmem
          exact session.onSnapshot_nonce snapshot hanswer

/-- With the same nonces at hand the very same is said. -/
theorem about_eq_of_contents {o : Occasion}
    (h : (about typeUrl (s.meet resolve o).2).map Reply.content =
      (about typeUrl (s'.meet resolve o).2).map Reply.content) :
    about typeUrl (s.meet resolve o).2 = about typeUrl (s'.meet resolve o).2 := by
  have hback : ∀ s : AnySession, ((about typeUrl (s.meet resolve o).2).map Reply.content).map
      (Reply.withNonce (o.nonceFor typeUrl)) = about typeUrl (s.meet resolve o).2 := by
    intro s
    rw [List.map_map]
    refine (List.map_congr_left fun r hr => ?_).trans (List.map_id _)
    obtain ⟨hsaid, htype⟩ := List.mem_filter.mp hr
    have hnonce := nonce_of_mem hsaid
    rw [of_decide_eq_true htype] at hnonce
    rw [← hnonce]
    exact r.content_withNonce
  rw [← hback s, ← hback s', h]

/-- What is said of the type if the other requests are left out. -/
theorem Twins.purged (h : Twins typeUrl issued issued s s') :
    (s'.answers resolve (run.filter (·.concerns typeUrl))).map (fun p => about typeUrl p.2) =
      ((s.answers resolve run).filter (·.1.concerns typeUrl)).map fun p => about typeUrl p.2 := by
  induction run generalizing s s' issued with
  | nil => rfl
  | cons o rest ih =>
      cases hconcerns : o.concerns typeUrl with
      | false =>
          rw [List.filter_cons_of_neg (by simp [hconcerns]), AnySession.answers,
            List.filter_cons_of_neg (by simp [hconcerns])]
          exact ih (h.pass hconcerns)
      | true =>
          have hsame : Restates issued issued o o := by
            cases o with
            | news snapshot nonce => exact .news snapshot nonce nonce
            | ask ask snapshot nonce =>
                have hask : ask.withNonce ask.nonce = ask := by cases ask <;> rfl
                have hrestates := Restates.ask ask snapshot ask.nonce nonce nonce
                  (SameNonce.mk Iff.rfl fun k => Iff.rfl : SameNonce issued issued _ _)
                rwa [hask] at hrestates
          have htogether := h.meet resolve
            ⟨rfl, List.prefix_rfl, List.prefix_rfl⟩ hsame hconcerns
          have habout := about_eq_of_contents htogether.contents
          have htwins := htogether.twins
          rw [← habout] at htwins
          rw [List.filter_cons_of_pos hconcerns, AnySession.answers, AnySession.answers,
            List.filter_cons_of_pos (by exact hconcerns), List.map_cons, List.map_cons, ih htwins,
            habout]

/-- Nothing is said of the type at a request for another. -/
theorem about_of_mem_answers {p : Occasion × List Reply} (hp : p ∈ s.answers resolve run)
    (hother : p.1.concerns typeUrl = false) : about typeUrl p.2 = [] := by
  induction run generalizing s with
  | nil => cases hp
  | cons o rest ih =>
      rw [AnySession.answers] at hp
      rcases List.mem_cons.mp hp with rfl | hp
      · exact about_of_other s hother
      · exact ih hp

end runs

/-! ### Streams -/

/-- What a stream is given to take up. -/
inductive Feed where
  | ask (ask : Ask) (snapshot : Snapshot)
  | news (snapshot : Snapshot)

def Occasion.feed : Occasion → Feed
  | ask a snapshot _ => .ask a snapshot
  | news snapshot _ => .news snapshot

namespace Stream

def takeFeed (s : Stream) : Feed → Stream
  | .ask a snapshot => s.takeInput snapshot (.ask a)
  | .news snapshot => s.takeSnapshot snapshot

/-- What the session of a stream is given, with the nonces of the stream. -/
def occasion (s : Stream) : Feed → Occasion
  | .ask a snapshot => .ask a snapshot (token s.serial s.issued)
  | .news snapshot => .news snapshot fun typeUrl =>
      token s.serial (s.issued + s.session.typeUrls.idxOf typeUrl)

/-- An open stream of all kinds, of which somebody takes the responses. -/
structure Multiplexes (s : Stream) : Prop where
  isOpen : s.isOpen = true
  isHeard : s.isHeard = true
  scope : s.scope = .aggregated

theorem emitReplies_of_heard (replies : List Reply) :
    ∀ {s : Stream}, s.isOpen = true → s.isHeard = true →
      replies.foldl (fun s r => s.emit (.reply r)) s =
        { s with outbox := s.outbox ++ replies.map .reply } := by
  induction replies with
  | nil =>
      intro s _ _
      simp
  | cons r rest ih =>
      intro s hopen hheard
      rw [List.foldl_cons, emit_of_heard hopen hheard, ih (by exact hopen) (by exact hheard)]
      simp

/-- The stream does what its session does. -/
theorem Multiplexes.takeFeed {s : Stream} (h : s.Multiplexes) (f : Feed) :
    (s.takeFeed f).Multiplexes ∧ (s.takeFeed f).resolve? = s.resolve? ∧
      (s.takeFeed f).session = (s.session.meet s.resolve? (s.occasion f)).1 ∧
      (s.takeFeed f).outbox =
        s.outbox ++ (s.session.meet s.resolve? (s.occasion f)).2.map .reply := by
  cases f with
  | news snapshot =>
      have htaken : s.takeFeed (.news snapshot) = s.updated (s.session.onSnapshot snapshot
          fun typeUrl => token s.serial (s.issued + s.session.typeUrls.idxOf typeUrl)) := by
        unfold Stream.takeFeed takeSnapshot
        dsimp only
        rw [if_neg (by simp [h.isOpen])]
        exact emitReplies_of_heard _ h.isOpen h.isHeard
      rw [htaken]
      exact ⟨⟨h.isOpen, h.isHeard, h.scope⟩, rfl, rfl, rfl⟩
  | ask a snapshot =>
      unfold Stream.takeFeed occasion AnySession.meet
      dsimp only
      cases hresolve : s.scope.resolve s.protocol a.typeUrl with
      | error e =>
          have hnone : s.resolve? a.typeUrl = none := by
            rw [resolve?, hresolve]
            rfl
          have hsame : s.takeInput snapshot (.ask a) = s := by
            unfold takeInput
            rw [if_neg (by simp [h.isOpen])]
            simp only [hresolve]
            exact if_pos h.scope
          rw [hsame, hnone]
          exact ⟨h, rfl, rfl, (List.append_nil _).symm⟩
      | ok kind =>
          have hsome : s.resolve? a.typeUrl = some kind := by
            rw [resolve?, hresolve]
            rfl
          rw [takeInput_ask snapshot h.isOpen hresolve, emitReplies_of_heard _ (by exact h.isOpen)
            (by exact h.isHeard), hsome]
          exact ⟨⟨h.isOpen, h.isHeard, h.scope⟩, rfl, rfl, rfl⟩

/-- A stream of all kinds says what its session says, and passes over the requests for types that
are not served. -/
theorem Multiplexes.takeFeeds (feeds : List Feed) : ∀ {s : Stream}, s.Multiplexes →
    ∃ run : List Occasion, run.map Occasion.feed = feeds ∧
      (feeds.foldl Stream.takeFeed s).outbox =
        s.outbox ++ ((s.session.answers s.resolve? run).flatMap (·.2)).map .reply := by
  induction feeds with
  | nil =>
      intro s _
      exact ⟨[], rfl, (List.append_nil _).symm⟩
  | cons f rest ih =>
      intro s h
      obtain ⟨hnext, hresolve, hsession, houtbox⟩ := h.takeFeed f
      obtain ⟨run, hrun, hsaid⟩ := ih hnext
      refine ⟨s.occasion f :: run, ?_, ?_⟩
      · rw [List.map_cons, hrun]
        cases f <;> rfl
      · rw [List.foldl_cons, hsaid, houtbox, hresolve, hsession, AnySession.answers,
          List.flatMap_cons, List.map_append, List.append_assoc]

end Stream

/-- On one session, whatever it is given, a type is answered as on a session that is given the same
snapshots but of the requests only those for the type: with the same nonces at hand by the very
same responses, and with others by the same but for them.  Nothing is said of the type at other
requests.  An open stream of all kinds says what its session says, and passes over the requests
for types that are not served. -/
theorem answers_apart :
    (∀ (resolve : String → Option Kind) (method : Method) (typeUrl : String)
      (run : List Occasion),
      let points := (AnySession.new method).answers resolve run
      ((AnySession.new method).answers resolve (run.filter (·.concerns typeUrl))).map
          (fun p => about typeUrl p.2) =
        (points.filter (·.1.concerns typeUrl)).map (fun p => about typeUrl p.2) ∧
      (∀ p ∈ points, p.1.concerns typeUrl = false → about typeUrl p.2 = []) ∧
      ∀ run', List.Forall₂
          (Restates (nonces typeUrl points)
            (nonces typeUrl ((AnySession.new method).answers resolve run')))
          (run.filter (·.concerns typeUrl)) run' →
        ((AnySession.new method).answers resolve run').map (contents typeUrl) =
          (points.filter (·.1.concerns typeUrl)).map (contents typeUrl)) ∧
    ∀ (s : Stream) (feeds : List Feed), s.Multiplexes →
      ∃ run : List Occasion, run.map Occasion.feed = feeds ∧
        (feeds.foldl Stream.takeFeed s).outbox =
          s.outbox ++ ((s.session.answers s.resolve? run).flatMap (·.2)).map .reply := by
  have hnew : ∀ (method : Method) (typeUrl : String),
      Twins typeUrl [] [] (AnySession.new method) (AnySession.new method) := by
    intro method typeUrl
    cases method with
    | stream => exact .unknown _ _ rfl rfl rfl rfl
    | fetch => exact .unknown _ _ rfl rfl rfl rfl
    | delta => exact .delta _ _ rfl
  constructor
  · intro resolve method typeUrl run
    refine ⟨(hnew method typeUrl).purged, fun p hp hother => about_of_mem_answers hp hother, ?_⟩
    intro run' hruns
    exact (hnew method typeUrl).answers rfl hruns
  · intro s feeds h
    exact h.takeFeeds feeds

/-! ### Listeners among other requests -/

/-- Listeners and clusters are asked for, and a type that nobody serves; a listener appears, the
clusters are rejected, and then the listener is asked for by its name. -/
def mingledRun : List Occasion :=
  let listener : Entry :=
    ⟨.listener, ⟨"a"⟩, "a", ⟨"a", "1"⟩, ⟨Exchange.listenerUrl, [1]⟩⟩
  let clusterUrl := MessageType.url ⟨.v3, .cluster⟩
  [.ask (.whole ⟨Exchange.listenerUrl, [], "", false⟩) (.empty .v3) "a",
    .ask (.whole ⟨clusterUrl, [], "", false⟩) (.empty .v3) "b",
    .ask (.whole ⟨"x", [], "", false⟩) (.empty .v3) "c",
    .news ⟨1, .v3, [listener]⟩ fun _ => "d",
    .ask (.whole ⟨clusterUrl, [], "b", true⟩) ⟨1, .v3, [listener]⟩ "e",
    .ask (.whole ⟨Exchange.listenerUrl, ["a"], "d", false⟩) ⟨1, .v3, [listener]⟩ "f"]

/-- The listeners alone, with other nonces. -/
def listenerRun : List Occasion :=
  let listener : Entry :=
    ⟨.listener, ⟨"a"⟩, "a", ⟨"a", "1"⟩, ⟨Exchange.listenerUrl, [1]⟩⟩
  [.ask (.whole ⟨Exchange.listenerUrl, [], "", false⟩) (.empty .v3) "1",
    .news ⟨1, .v3, [listener]⟩ fun _ => "2",
    .ask (.whole ⟨Exchange.listenerUrl, ["a"], "2", false⟩) ⟨1, .v3, [listener]⟩ "3"]

theorem listeners_apart :
    let resolve := fun typeUrl => (Scope.aggregated.resolve .v3 typeUrl).toOption
    let points := (AnySession.new .stream).answers resolve mingledRun
    ((AnySession.new .stream).answers resolve listenerRun).map (contents Exchange.listenerUrl) =
        (points.filter (·.1.concerns Exchange.listenerUrl)).map (contents Exchange.listenerUrl) ∧
      nonces Exchange.listenerUrl points = ["a", "d", "f"] ∧
      (∀ p ∈ points, p.1.concerns Exchange.listenerUrl = false →
        about Exchange.listenerUrl p.2 = []) ∧
      ∃ run : List Occasion, run.map Occasion.feed = mingledRun.map Occasion.feed ∧
        ((mingledRun.map Occasion.feed).foldl Stream.takeFeed
            (Stream.start .stream .v3 .aggregated 0 .empty).1).outbox =
          (((AnySession.new .stream).answers resolve run).flatMap (·.2)).map .reply := by
  intro resolve points
  have hissued : nonces Exchange.listenerUrl points = ["a", "d", "f"] := by decide +kernel
  have hissued' : nonces Exchange.listenerUrl
      ((AnySession.new .stream).answers resolve listenerRun) = ["1", "2", "3"] := by decide +kernel
  have hfresh : SameNonce ["a", "d", "f"] ["1", "2", "3"] "" "" := by
    refine ⟨Iff.rfl, fun k => ?_⟩
    rcases k with _ | _ | _ | k <;> simp
  have hnamed : SameNonce ["a", "d", "f"] ["1", "2", "3"] "d" "2" := by
    refine ⟨by simp, fun k => ?_⟩
    rcases k with _ | _ | _ | k <;> simp
  obtain ⟨-, hothers, hrenamed⟩ := answers_apart.1 resolve .stream Exchange.listenerUrl mingledRun
  refine ⟨hrenamed listenerRun ?_, hissued, hothers, ?_⟩
  · show List.Forall₂ (Restates (nonces Exchange.listenerUrl points) _) _ _
    rw [hissued, hissued']
    exact .cons (.ask _ _ "" "a" "1" hfresh) <| .cons (.news _ _ _) <|
      .cons (.ask _ _ "2" "f" "3" hnamed) .nil
  · obtain ⟨run, hrun, hsaid⟩ := answers_apart.2 (Stream.start .stream .v3 .aggregated 0 .empty).1
      (mingledRun.map Occasion.feed) ⟨rfl, rfl, rfl⟩
    exact ⟨run, hrun, hsaid⟩

end ControlPlane.Discovery
