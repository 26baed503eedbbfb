import ControlPlane.Proofs.Controller.Interleaving
import ControlPlane.Proofs.Discovery.Incremental
import ControlPlane.Proofs.Discovery.StateOfTheWorld
import ControlPlane.Proofs.Store.Authenticity

/-! # What is sent is of the type, the protocol and the names asked for

Passes keep the resource store in line with the objects, and streams and single requests are
answered from it, all in any order (`Deployment.run`).  A store that only passes write to publishes
only what was validated (`ResourceStore.Authentic`), each turn of a stream is taken at what is
published for its protocol (`Line.Sound`), and a session sends nothing but what it selects from the
snapshot: by the names of the request answered last, or by the interest that the requests so far
have left (`interest?`).  So whatever is sent is a resource of the kind and the protocol that was
asked for, under a name that was asked for (`served_genuine`). -/

namespace ControlPlane

namespace Reconcile

/-! ### Passes whose calls may fail -/

theorem attempt_authentic [NewerMessages] {s : Stores} (h : s.resources.Authentic) (key : ObjectKey)
    (now : Time.Timestamp) (failure : Option StoreError) :
    (attempt key now failure s).1.resources.Authentic ∧
      ∀ pass, (attempt key now failure s).2.judged? = some pass → pass.Vetted := by
  have hbegin : ∀ answer, (begin key now answer s.resources).1.Authentic ∧
      ∀ pass, (begin key now answer s.resources).2.judged? = some pass → pass.Vetted := by
    intro answer
    obtain ⟨hstore, hjudged⟩ := begin_authentic h key now answer
    refine ⟨hstore, fun pass hpass => hjudged pass ?_⟩
    cases hprogress : (begin key now answer s.resources).2 with
    | ended result =>
        rw [hprogress] at hpass
        cases hpass
    | judged judged =>
        rw [hprogress] at hpass
        exact congrArg Progress.judged (Option.some.inj hpass)
  cases failure with
  | none => exact hbegin (s.objects.get key)
  | some e => exact hbegin (.error e)

theorem complete_authentic [NewerMessages] {s : Stores} (h : s.resources.Authentic) {pass : Judged}
    (hpass : pass.Vetted) (failure : Option StoreError) :
    (complete pass failure s).1.resources.Authentic := by
  have hfinish := fun answer => finish_authentic h hpass answer
  cases failure with
  | some e => exact hfinish (.error e)
  | none =>
      unfold complete conclude
      dsimp only
      split
      · exact hfinish _
      · exact hfinish _

end Reconcile

namespace Discovery

open ResourceStore (Vetted)

namespace Incremental

/-! ### What incremental sessions send -/

/-- Rejections are passed over, whatever names they carry. -/
def isHeeded (t : Turn) : Bool :=
  match t.cause with
  | .ask (.delta r) => !r.isRejection
  | _ => true

/-- What is asked for of a type after these turns: names, or the wildcard. -/
def interest? (typeUrl : String) (turns : List Turn) : Option (String → Bool) :=
  (mirror? typeUrl (turns.filter isHeeded)).map (·.asks)

/-- A response that carries only what a subscription wants of the snapshot. -/
def Offered (s : Subscription) (snapshot : Snapshot) (response : Response) : Prop :=
  ∀ item ∈ response.resources, ∃ e ∈ s.wanted snapshot, item.name = e.envoyName ∧ item.body = e.body

/-- What is sent is one of the resources offered. -/
theorem offer_items (l : List Entry) :
    ∀ {state : Catalog String String × List Item} {item : Item},
      item ∈ (l.foldl Subscription.offer state).2 →
      item ∈ state.2 ∨ ∃ e ∈ l, item.name = e.envoyName ∧ item.body = e.body := by
  induction l with
  | nil => exact fun h => Or.inl h
  | cons e rest ih =>
      intro state item h
      rcases ih h with h | ⟨e', he', hitem⟩
      · unfold Subscription.offer at h
        dsimp only at h
        split at h
        · exact Or.inl h
        · rcases List.mem_append.mp h with h | h
          · exact Or.inl h
          · obtain rfl := List.mem_singleton.mp h
            exact Or.inr ⟨e, List.mem_cons_self, rfl, rfl⟩
      · exact Or.inr ⟨e', List.mem_cons_of_mem _ he', hitem⟩

theorem respond_offered {s : Subscription} {typeUrl nonce : String} {snapshot : Snapshot}
    {always : Bool} {response : Response}
    (h : (s.respond typeUrl snapshot nonce always).2 = some response) :
    Offered (s.respond typeUrl snapshot nonce always).1 snapshot response := by
  have hwanted : (s.respond typeUrl snapshot nonce always).1.wanted snapshot =
      s.wanted snapshot := by
    rw [respond_fst]
    rfl
  intro item hitem
  rw [hwanted]
  unfold Subscription.respond at h
  dsimp only at h
  split at h
  · cases h
  · rw [← Option.some.inj h, diff_eq] at hitem
    exact (offer_items _ hitem).resolve_left List.not_mem_nil

section session
variable {session : Session} {kind : Kind} {snapshot : Snapshot} {response : Response}

/-- The response to a request carries only what the subscription wants then. -/
theorem Session.onRequest_offered {r : Request} {nonce : String}
    (h : (session.onRequest kind r snapshot nonce).2 = some response) :
    ∃ s, (session.onRequest kind r snapshot nonce).1.subscriptions.get? response.typeUrl = some s ∧
      Offered s snapshot response := by
  rcases session.onRequest_cases kind r snapshot nonce with ⟨hnone, -⟩ | ⟨-, heq⟩
  · rw [hnone] at h
    cases h
  · rw [heq] at h ⊢
    have htype : response.typeUrl = r.typeUrl := respond_typeUrl _ _ _ _ _ h
    rw [htype]
    exact ⟨_, Catalog.get?_insert_self _ _ _, respond_offered h⟩

theorem Session.onSnapshot_offered {nonce : String → String}
    (h : response ∈ (session.onSnapshot snapshot nonce).2) :
    ∃ s, (session.onSnapshot snapshot nonce).1.subscriptions.get? response.typeUrl = some s ∧
      Offered s snapshot response := by
  obtain ⟨update, hupdate, hresponse⟩ := List.mem_filterMap.mp h
  obtain ⟨typeUrl, hget⟩ := Catalog.mem_values_iff.mp hupdate
  rw [Catalog.get?_mapWithKey] at hget
  obtain ⟨s, hs, rfl⟩ := Option.map_eq_some_iff.mp hget
  obtain rfl : response.typeUrl = typeUrl := respond_typeUrl _ _ _ _ _ hresponse
  refine ⟨_, ?_, respond_offered hresponse⟩
  rw [session.onSnapshot_get?, hs]
  rfl

end session

/-- A turn sends only what the snapshot has of the kind, under names that are asked for if not all
are. -/
def Sifted (resolve : String → Option Kind) (earlier : List Turn) (t : Turn) : Prop :=
  ∀ response, Reply.delta response ∈ t.replies → ∃ kind asks,
    resolve response.typeUrl = some kind ∧
    interest? response.typeUrl (earlier ++ [t]) = some asks ∧
    ∀ item ∈ response.resources, ∃ e ∈ t.snapshot.resources kind,
      item.name = e.envoyName ∧ item.body = e.body ∧
        (asks wildcard = false → asks item.name = true)

/-- What a session offers that follows its proxies. -/
theorem Session.FollowsAll.sifted {session : Session} {resolve : String → Option Kind}
    {turns : List Turn} (h : session.FollowsAll resolve (turns.filter isHeeded))
    {response : Response} {s : Subscription} {snapshot : Snapshot}
    (hget : session.subscriptions.get? response.typeUrl = some s)
    (hoffered : Offered s snapshot response) :
    ∃ kind asks, resolve response.typeUrl = some kind ∧
      interest? response.typeUrl turns = some asks ∧
      ∀ item ∈ response.resources, ∃ e ∈ snapshot.resources kind,
        item.name = e.envoyName ∧ item.body = e.body ∧
          (asks wildcard = false → asks item.name = true) := by
  have hknown := h response.typeUrl
  rw [hget] at hknown
  unfold interest?
  generalize mirror? response.typeUrl (turns.filter isHeeded) = mirror at hknown
  cases hknown with
  | present _ m hkind hfollows =>
      refine ⟨s.kind, m.asks, hkind, rfl, fun item hitem => ?_⟩
      obtain ⟨e, he, hname, hbody⟩ := hoffered item hitem
      obtain ⟨hresource, hwants⟩ := List.mem_filter.mp he
      refine ⟨e, hresource, hname, hbody, fun hsome => ?_⟩
      rw [hfollows.interests.wants_eq, hsome, Bool.false_or] at hwants
      rw [hname]
      exact hwants

/-- A conversation turn by turn: each sends only what is asked for then. -/
theorem sifted_conversation {resolve : String → Option Kind} {turns : List Turn} {s : AnySession}
    (h : Conversation resolve (.delta .new) turns s) :
    ∃ session, s = .delta session ∧ session.FollowsAll resolve (turns.filter isHeeded) ∧
      ∀ earlier t later, turns = earlier ++ t :: later → Sifted resolve earlier t := by
  induction h with
  | opening =>
      refine ⟨.new, rfl, fun typeUrl => .absent, fun earlier t later hsplit => ?_⟩
      simp at hsplit
  | ask ask kind snapshot nonce _ hkind ih =>
      obtain ⟨session, rfl, hfollows, hsifted⟩ := ih
      cases ask with
      | whole r =>
          refine ⟨session, rfl, fun typeUrl => ?_, forall_split_snoc hsifted ?_⟩
          · rw [List.filter_append, List.filter_cons_of_pos rfl, List.filter_nil,
              mirror?_same rfl rfl]
            exact hfollows typeUrl
          · intro response hmem
            cases hmem
      | delta r =>
          cases hrejection : r.isRejection with
          | true =>
              have hpassed : session.onRequest kind r snapshot nonce = (session, none) := by
                unfold Session.onRequest
                rw [if_pos hrejection]
              refine ⟨session, ?_, ?_, forall_split_snoc hsifted ?_⟩
              · simp only [AnySession.onRequest, hpassed]
              · rw [List.filter_append, List.filter_cons_of_neg (by simp [isHeeded, hrejection]),
                  List.filter_nil, List.append_nil]
                exact hfollows
              · intro response hmem
                simp [AnySession.onRequest, hpassed] at hmem
          | false =>
              have hplain : r.IsPlain := fun h => absurd h (by simp [hrejection])
              have hnext := hfollows.ask hkind hplain snapshot nonce
              have hheeded : ∀ turns : List Turn,
                  (turns ++ [session.askTurn kind r snapshot nonce]).filter isHeeded =
                    turns.filter isHeeded ++ [session.askTurn kind r snapshot nonce] := by
                intro turns
                rw [List.filter_append, List.filter_cons_of_pos (by
                  simp [isHeeded, Session.askTurn, hrejection]), List.filter_nil]
              rw [← hheeded] at hnext
              refine ⟨_, rfl, hnext, forall_split_snoc hsifted ?_⟩
              intro response hmem
              obtain ⟨answer, hanswer, heq⟩ :=
                Option.map_eq_some_iff.mp (Option.mem_toList.mp hmem)
              obtain rfl := Reply.delta.inj heq
              obtain ⟨s, hget, hoffered⟩ := Session.onRequest_offered hanswer
              exact hnext.sifted hget hoffered
  | news snapshot nonce _ ih =>
      obtain ⟨session, rfl, hfollows, hsifted⟩ := ih
      have hnext := hfollows.news snapshot nonce
      have hheeded : ∀ turns : List Turn,
          (turns ++ [session.newsTurn snapshot nonce]).filter isHeeded =
            turns.filter isHeeded ++ [session.newsTurn snapshot nonce] := by
        intro turns
        rw [List.filter_append, List.filter_cons_of_pos rfl, List.filter_nil]
      rw [← hheeded] at hnext
      refine ⟨_, rfl, hnext, forall_split_snoc hsifted ?_⟩
      intro response hmem
      obtain ⟨answer, hanswer, heq⟩ := List.mem_map.mp hmem
      obtain rfl := Reply.delta.inj heq
      obtain ⟨s, hget, hoffered⟩ := Session.onSnapshot_offered hanswer
      exact hnext.sifted hget hoffered

end Incremental

/-! ### What a stream sends -/

/-- Whether a session says replies of this form. -/
def AnySession.speaks : AnySession → Reply → Bool
  | whole _ => fun reply => reply.whole?.isSome
  | delta _ => fun reply => (Incremental.delta? reply).isSome

theorem AnySession.onRequest_speaks (s : AnySession) (kind : Kind) (ask : Ask)
    (snapshot : Snapshot) (nonce : String) :
    (s.onRequest kind ask snapshot nonce).1.speaks = s.speaks ∧
      ∀ reply ∈ (s.onRequest kind ask snapshot nonce).2.toList, s.speaks reply = true := by
  cases s with
  | whole session =>
      cases ask with
      | delta request => exact ⟨rfl, fun reply hreply => absurd hreply List.not_mem_nil⟩
      | whole request =>
          refine ⟨rfl, fun reply hreply => ?_⟩
          obtain ⟨response, -, rfl⟩ := Option.map_eq_some_iff.mp (Option.mem_toList.mp hreply)
          rfl
  | delta session =>
      cases ask with
      | whole request => exact ⟨rfl, fun reply hreply => absurd hreply List.not_mem_nil⟩
      | delta request =>
          refine ⟨rfl, fun reply hreply => ?_⟩
          obtain ⟨response, -, rfl⟩ := Option.map_eq_some_iff.mp (Option.mem_toList.mp hreply)
          rfl

theorem AnySession.onSnapshot_speaks (s : AnySession) (snapshot : Snapshot)
    (nonce : String → String) :
    (s.onSnapshot snapshot nonce).1.speaks = s.speaks ∧
      ∀ reply ∈ (s.onSnapshot snapshot nonce).2, s.speaks reply = true := by
  cases s with
  | whole session =>
      refine ⟨rfl, fun reply hreply => ?_⟩
      obtain ⟨response, -, rfl⟩ := List.mem_map.mp hreply
      rfl
  | delta session =>
      refine ⟨rfl, fun reply hreply => ?_⟩
      obtain ⟨response, -, rfl⟩ := List.mem_map.mp hreply
      rfl

/-- A conversation goes on in the form in which it has begun. -/
theorem Conversation.speaks {resolve : String → Option Kind} {start s : AnySession}
    {turns : List Turn} (h : Conversation resolve start turns s) :
    s.speaks = start.speaks ∧ ∀ t ∈ turns, ∀ reply ∈ t.replies, start.speaks reply = true := by
  have hsnoc : ∀ {turns : List Turn} {t : Turn},
      (∀ t ∈ turns, ∀ reply ∈ t.replies, start.speaks reply = true) →
      (∀ reply ∈ t.replies, start.speaks reply = true) →
      ∀ t' ∈ turns ++ [t], ∀ reply ∈ t'.replies, start.speaks reply = true := by
    intro turns t hturns ht t' ht'
    rcases List.mem_append.mp ht' with hold | hnew
    · exact hturns t' hold
    · obtain rfl := List.mem_singleton.mp hnew
      exact ht
  induction h with
  | opening => exact ⟨rfl, fun t ht => absurd ht List.not_mem_nil⟩
  | ask ask kind snapshot nonce _ _ ih =>
      obtain ⟨hsame, hturns⟩ := ih
      obtain ⟨hnext, hreplies⟩ := AnySession.onRequest_speaks _ kind ask snapshot nonce
      exact ⟨hnext.trans hsame, hsnoc hturns fun reply hreply => hsame ▸ hreplies reply hreply⟩
  | news snapshot nonce _ ih =>
      obtain ⟨hsame, hturns⟩ := ih
      obtain ⟨hnext, hreplies⟩ := AnySession.onSnapshot_speaks _ snapshot nonce
      exact ⟨hnext.trans hsame, hsnoc hturns fun reply hreply => hsame ▸ hreplies reply hreply⟩

/-- Resources of a kind in a protocol, under these names if there are any. -/
def Proper [NewerMessages] (protocol : Protocol) (kind : Kind) (names : List String)
    (bodies : List Payload) : Prop :=
  ∀ body ∈ bodies, ∃ name, Genuine protocol kind name body ∧ (names ≠ [] → name ∈ names)

theorem proper_of_select [NewerMessages] {protocol : Protocol} {snapshot : Snapshot}
    (h : Vetted protocol snapshot) (kind : Kind) (names : List String) :
    Proper protocol kind names ((snapshot.select kind names).map (·.body)) := by
  intro body hbody
  obtain ⟨e, he, rfl⟩ := List.mem_map.mp hbody
  obtain ⟨hgenuine, hnamed⟩ := h.select he
  exact ⟨e.envoyName, hgenuine, hnamed⟩

/-- Moves of a stream and its proxy, as opposed to what befalls the store. -/
def Exchange.Move.isOwn : Exchange.Move → Bool
  | hall _ => false
  | send _ | hangUp | takeInput | takeSnapshot | cancel => true

/-- A stream that was opened by a method, and the turns that it has taken. -/
structure Line where
  method : Method
  stream : Stream
  turns : List Turn

namespace Line

/-- The turns tell all that has gone out, and each was taken at what is published for the
protocol. -/
structure Sound [NewerMessages] (l : Line) : Prop where
  receiver : l.stream.receiver.protocol = l.stream.protocol
  said : l.stream.outbox.filterMap Output.reply? = l.turns.flatMap (·.replies)
  session : ∃ s, Conversation l.stream.resolve? (.new l.method) l.turns s ∧
    (l.stream.isOpen = true → l.stream.session = s)
  seen : ∀ t ∈ l.turns, Vetted l.stream.protocol t.snapshot

/-- What a line sends is of the kind that the request's type stands for, in the protocol of the
stream, and under a name that is asked for unless all are. -/
structure Faithful [NewerMessages] (l : Line) : Prop where
  said : l.stream.outbox.filterMap Output.reply? = l.turns.flatMap (·.replies)
  /-- The names asked for are those of the request answered last. -/
  whole : ∀ earlier t later, l.turns = earlier ++ t :: later →
    ∀ response, Reply.whole response ∈ t.replies → ∃ kind request,
      l.stream.scope.resolve l.stream.protocol response.typeUrl = .ok kind ∧
      answered? response.typeUrl (earlier ++ [t]) = some request ∧
      Proper l.stream.protocol kind request.names response.resources
  /-- They are those of the interest that the requests have left. -/
  delta : ∀ earlier t later, l.turns = earlier ++ t :: later →
    ∀ response, Reply.delta response ∈ t.replies → ∃ kind asks,
      l.stream.scope.resolve l.stream.protocol response.typeUrl = .ok kind ∧
      Incremental.interest? response.typeUrl (earlier ++ [t]) = some asks ∧
      ∀ item ∈ response.resources, Genuine l.stream.protocol kind item.name item.body ∧
        (asks Incremental.wildcard = false → asks item.name = true)

theorem Sound.faithful [NewerMessages] {l : Line} (h : l.Sound) : l.Faithful := by
  obtain ⟨s, hconversation, -⟩ := h.session
  have hmem : ∀ {earlier t later}, l.turns = earlier ++ t :: later → t ∈ l.turns :=
    fun hsplit => by simp [hsplit]
  have hspeaks : ∀ {earlier t later reply}, l.turns = earlier ++ t :: later → reply ∈ t.replies →
      (AnySession.new l.method).speaks reply = true :=
    fun hsplit hreply => hconversation.speaks.2 _ (hmem hsplit) _ hreply
  have hform : AnySession.new l.method = .whole .new ∨ AnySession.new l.method = .delta .new := by
    cases l.method with
    | stream => exact Or.inl rfl
    | fetch => exact Or.inl rfl
    | delta => exact Or.inr rfl
  rcases hform with hform | hform
  · rw [hform] at hconversation hspeaks
    obtain ⟨-, -, -, hexact⟩ := hconversation.whole
    refine ⟨h.said, fun earlier t later hsplit response hreply => ?_,
      fun earlier t later hsplit response hreply => ?_⟩
    · obtain ⟨request, kind, hrequest, hkind, -, hresources⟩ :=
        hexact earlier t later hsplit response hreply
      refine ⟨kind, request, ok_of_toOption hkind, hrequest, ?_⟩
      rw [hresources]
      exact proper_of_select (h.seen t (hmem hsplit)) kind request.names
    · exact absurd (hspeaks hsplit hreply) Bool.false_ne_true
  · rw [hform] at hconversation hspeaks
    obtain ⟨-, -, -, hsifted⟩ := Incremental.sifted_conversation hconversation
    refine ⟨h.said, fun earlier t later hsplit response hreply => ?_,
      fun earlier t later hsplit response hreply => ?_⟩
    · exact absurd (hspeaks hsplit hreply) Bool.false_ne_true
    · obtain ⟨kind, asks, hkind, hasks, hitems⟩ := hsifted earlier t later hsplit response hreply
      refine ⟨kind, asks, ok_of_toOption hkind, hasks, fun item hitem => ?_⟩
      obtain ⟨e, he, hname, hbody, hasked⟩ := hitems item hitem
      obtain ⟨hentry, hekind⟩ := List.mem_filter.mp he
      have hgenuine := h.seen t (hmem hsplit) e hentry
      rw [of_decide_eq_true hekind, ← hname, ← hbody] at hgenuine
      exact ⟨hgenuine, hasked⟩

/-! ### One move of a stream -/

/-- A line as it stands at a store. -/
def exchange (l : Line) (hall : Hall) : Exchange := ⟨hall, l.stream, l.turns⟩

/-- The line after its exchange has gone on. -/
def after (l : Line) (e : Exchange) : Line := { l with stream := e.stream, turns := e.turns }

section step
variable [NewerMessages] {l : Line} {hall : Hall} {e : Exchange}

/-- A line on which nothing has happened that turns tell of. -/
theorem Sound.quiet (h : l.Sound) {stream : Stream}
    (hprotocol : stream.protocol = l.stream.protocol) (hscope : stream.scope = l.stream.scope)
    (hreceiver : stream.receiver = l.stream.receiver)
    (hopen : stream.isOpen = l.stream.isOpen) (hsession : stream.session = l.stream.session)
    (hsaid : stream.outbox = l.stream.outbox) : Sound { l with stream := stream } := by
  have hresolve : stream.resolve? = l.stream.resolve? := by
    funext typeUrl
    rw [Stream.resolve?, Stream.resolve?, hprotocol, hscope]
  obtain ⟨s, hs, hlast⟩ := h.session
  exact {
    receiver := by rw [hreceiver, hprotocol, h.receiver]
    said := by rw [hsaid, h.said]
    session := ⟨s, hresolve ▸ hs, fun ho => by rw [hsession]; exact hlast (hopen ▸ ho)⟩
    seen := by rw [hprotocol]; exact h.seen }

/-- A line whose stream has ended. -/
theorem Sound.ended (h : l.Sound) {stream : Stream} (hended : l.stream.Ended stream)
    {r : Receiver} (hreceiver : r.protocol = l.stream.protocol) :
    Sound { l with stream := { stream with receiver := r } } := by
  have hresolve : ({ stream with receiver := r } : Stream).resolve? = l.stream.resolve? := by
    funext typeUrl
    rw [Stream.resolve?, Stream.resolve?, hended.protocol, hended.scope]
  have hclosed : stream.isOpen ≠ true := by rw [hended.isOpen]; exact Bool.false_ne_true
  obtain ⟨s, hs, -⟩ := h.session
  exact {
    receiver := hreceiver.trans hended.protocol.symm
    said := hended.said.trans h.said
    session := ⟨s, hresolve ▸ hs, fun hopen => absurd hopen hclosed⟩
    seen := by rw [hended.protocol]; exact h.seen }

/-- A line that has taken a turn. -/
theorem Sound.turned (h : l.Sound) {stream : Stream} {snapshot : Snapshot} {cause : Cause}
    {replies : List Reply} (hvetted : Vetted l.stream.protocol snapshot)
    (hprotocol : stream.protocol = l.stream.protocol) (hscope : stream.scope = l.stream.scope)
    (hreceiver : stream.receiver.protocol = l.stream.protocol)
    (hsaid : stream.outbox = l.stream.outbox ++ replies.map .reply)
    (hturn : Conversation l.stream.resolve? (.new l.method)
      (l.turns ++ [⟨cause, snapshot, replies⟩]) stream.session) :
    Sound { l with
      stream := stream
      turns := l.turns ++ [⟨cause, snapshot, Stream.heard l.stream stream⟩] } := by
  have hreply : (replies.map Output.reply).filterMap Output.reply? = replies :=
    filterMap_map_some (f := Output.reply) (g := Output.reply?) (fun _ => rfl) replies
  have hheard : Stream.heard l.stream stream = replies := by
    rw [Stream.heard, hsaid, List.drop_left, hreply]
  have hresolve : stream.resolve? = l.stream.resolve? := by
    funext typeUrl
    rw [Stream.resolve?, Stream.resolve?, hprotocol, hscope]
  rw [hheard]
  exact {
    receiver := hreceiver.trans hprotocol.symm
    said := by
      rw [hsaid, List.filterMap_append, h.said, hreply, List.flatMap_append, List.flatMap_cons,
        List.flatMap_nil, List.append_nil]
    session := ⟨stream.session, hresolve ▸ hturn, fun _ => rfl⟩
    seen := by
      rw [hprotocol]
      intro t ht
      rcases List.mem_append.mp ht with ht | ht
      · exact h.seen t ht
      · obtain rfl := List.mem_singleton.mp ht
        exact hvetted }

/-- What the line sees is published for its protocol. -/
theorem Sound.view_vetted (h : l.Sound) (hstore : hall.store.Authentic) :
    Vetted l.stream.protocol (l.exchange hall).view :=
  h.receiver ▸ hstore.published _

theorem Sound.takeInput (h : l.Sound) (hstore : hall.store.Authentic) {input : Input}
    {rest : List Input} (hopen : l.stream.isOpen = true) :
    (l.after ((l.exchange hall).next
      ({ l.stream with inbox := rest }.takeInput (l.exchange hall).view input)
      (l.stream.cause? input))).Sound := by
  unfold Exchange.next
  split
  · rename_i hstill
    obtain ⟨-, htaken⟩ := Stream.takeInput_cases hstill
    generalize ({ l.stream with inbox := rest } : Stream).takeInput (l.exchange hall).view input =
      stream at htaken ⊢
    cases htaken with
    | answered ask kind hkind =>
        have hkind : l.stream.resolve? ask.typeUrl = some kind := hkind
        obtain ⟨s, hs, hlast⟩ := h.session
        obtain rfl := hlast hopen
        rw [show l.stream.cause? (.ask ask) = some (.ask ask) by
          rw [Stream.cause?, hkind, Option.map_some]]
        exact h.turned (h.view_vetted hstore) rfl rfl h.receiver rfl
          (.ask ask kind (l.exchange hall).view _ hs hkind)
    | unserved ask hkind =>
        have hkind : l.stream.resolve? ask.typeUrl = none := hkind
        rw [show l.stream.cause? (.ask ask) = none by rw [Stream.cause?, hkind, Option.map_none]]
        simp only [Option.toList_none, List.map_nil, List.append_nil]
        exact h.quiet rfl rfl rfl rfl rfl rfl
  · rename_i hclosed
    have hended := Stream.takeInput_ended (s := { l.stream with inbox := rest }) hopen
      (Bool.eq_false_iff.mpr hclosed)
    have hreceiver := congrArg Receiver.protocol hended.receiver
    exact h.ended ⟨hended.isOpen, hended.protocol, hended.scope, hended.receiver, hended.said⟩
      (hreceiver.trans h.receiver)

theorem Sound.takeSnapshot (h : l.Sound) (hstore : hall.store.Authentic)
    (hopen : l.stream.isOpen = true) :
    (l.after ((l.exchange hall).next { l.stream.takeSnapshot (l.exchange hall).view with
      receiver := hall.store.acknowledge l.stream.receiver } (some .news))).Sound := by
  unfold Exchange.next
  split
  · rename_i hstill
    obtain ⟨-, htaken⟩ := Stream.takeSnapshot_of_open (s := l.stream) hstill
    obtain ⟨s, hs, hlast⟩ := h.session
    obtain rfl := hlast hopen
    rw [htaken]
    exact h.turned (h.view_vetted hstore) rfl rfl h.receiver rfl
      (.news (l.exchange hall).view _ hs)
  · rename_i hclosed
    have hended := Stream.takeSnapshot_ended hopen (Bool.eq_false_iff.mpr hclosed)
    exact h.ended hended h.receiver

/-- A line and its store after the stream or its proxy has moved. -/
theorem Sound.step (h : l.Sound) (hstore : hall.store.Authentic) {m : Exchange.Move}
    (hown : m.isOwn = true) (hm : (l.exchange hall).step m = some e) :
    (l.after e).Sound ∧ e.hall.store.Authentic := by
  have hnext : ∀ stream cause, ((l.exchange hall).next stream cause).hall.store.Authentic := by
    intro stream cause
    unfold Exchange.next
    split
    · exact hstore
    · exact hstore.unsubscribe _
  cases m with
  | hall m => cases hown
  | send input =>
      obtain rfl := Option.some.inj hm
      exact ⟨h.quiet rfl rfl rfl rfl rfl rfl, hstore⟩
  | hangUp =>
      obtain rfl := Option.some.inj hm
      exact ⟨h.quiet rfl rfl rfl rfl rfl rfl, hstore⟩
  | takeInput =>
      simp only [Exchange.step] at hm
      split at hm
      · rename_i hopen _
        obtain rfl := Option.some.inj hm
        exact ⟨h.takeInput hstore hopen, hnext _ _⟩
      · cases hm
  | takeSnapshot =>
      simp only [Exchange.step] at hm
      split at hm
      · rename_i hready
        obtain rfl := Option.some.inj hm
        exact ⟨h.takeSnapshot hstore (Bool.and_eq_true_iff.mp hready).1, hnext _ _⟩
      · cases hm
  | cancel =>
      simp only [Exchange.step] at hm
      split at hm
      · rename_i hopen
        obtain rfl := Option.some.inj hm
        have hended := Stream.close_ended hopen
        refine ⟨?_, hnext _ _⟩
        rw [Exchange.next, if_neg (by rw [hended.isOpen]; exact Bool.false_ne_true)]
        exact h.ended hended (hended.receiver ▸ h.receiver)
      · cases hm

end step

end Line

/-! ### Single requests -/

/-- The answer to a single request. -/
structure Fetched where
  protocol : Protocol
  scope : Scope
  request : Request
  answer : Except CallError Response

/-- An answer, if it is no refusal, carries resources of the kind that the request's type stands
for, in the protocol of the call, and under a name that is asked for unless all are. -/
def Fetched.Faithful [NewerMessages] (f : Fetched) : Prop :=
  ∀ response, f.answer = .ok response → response.typeUrl = f.request.typeUrl ∧ ∃ kind,
    f.scope.resolve f.protocol f.request.typeUrl = .ok kind ∧
    Proper f.protocol kind f.request.names response.resources

theorem fetch_faithful [NewerMessages] {store : ResourceStore} (h : store.Authentic)
    (protocol : Protocol) (scope : Scope) (request : Request) (nonce : String) :
    (fetch store protocol scope request nonce).1.Authentic ∧
      Fetched.Faithful
        ⟨protocol, scope, request, (fetch store protocol scope request nonce).2⟩ := by
  unfold fetch Fetched.Faithful
  cases hkind : scope.resolve protocol request.typeUrl with
  | error e => exact ⟨h, fun response hresponse => by cases hresponse⟩
  | ok kind =>
      have hfresh : (store.freshen protocol).Authentic := h.freshen protocol
      refine ⟨hfresh, fun response hresponse => ?_⟩
      obtain rfl := Except.ok.inj hresponse
      exact ⟨rfl, kind, rfl, proper_of_select (hfresh.published protocol) kind request.names⟩

/-! ### All together -/

/-- The two stores with the passes that are open, how many listen to each publication, the streams
that were opened, and the answers to single requests. -/
structure Deployment where
  reconcilers : Reconcilers
  listeners : Protocol → ℕ
  lines : List Line
  fetched : List Fetched

namespace Deployment

inductive Move where
  /-- A client writes to the object store, or a pass goes on. -/
  | reconcile (move : Reconcilers.Move)
  | connect (method : Method) (protocol : Protocol) (scope : Scope) (serial : ℕ)
  /-- A stream or its proxy moves. -/
  | line (index : ℕ) (move : Exchange.Move)
  | fetch (protocol : Protocol) (scope : Scope) (request : Request) (nonce : String)

def hall (d : Deployment) : Hall := ⟨d.reconcilers.stores.resources, d.listeners⟩

def withHall (d : Deployment) (hall : Hall) : Deployment :=
  { d with
    reconcilers := ⟨⟨d.reconcilers.stores.objects, hall.store⟩, d.reconcilers.passes⟩
    listeners := hall.listeners }

/-- One move, if it can be made.  Streams do not write to the store. -/
def step [NewerMessages] (d : Deployment) : Move → Option Deployment
  | .reconcile m => (d.reconcilers.step m).map fun r => { d with reconcilers := r }
  | .connect method protocol scope serial =>
    let e := Exchange.opening d.hall method protocol scope serial
    some { d.withHall e.hall with lines := d.lines ++ [⟨method, e.stream, e.turns⟩] }
  | .line index m =>
    if m.isOwn then do
      let l ← d.lines[index]?
      let e ← (l.exchange d.hall).step m
      return { d.withHall e.hall with lines := d.lines.set index (l.after e) }
    else none
  | .fetch protocol scope request nonce =>
    let (store, answer) := Discovery.fetch d.hall.store protocol scope request nonce
    some { d.withHall ⟨store, d.listeners⟩ with
      fetched := d.fetched ++ [⟨protocol, scope, request, answer⟩] }

def run [NewerMessages] (d : Deployment) (moves : List Move) : Option Deployment :=
  moves.foldlM step d

/-- Nothing is served, no pass is open and nobody is connected. -/
def opening (objects : ObjectStore) : Deployment := ⟨.opening objects, fun _ => 0, [], []⟩

structure Sound [NewerMessages] (d : Deployment) : Prop where
  store : d.reconcilers.stores.resources.Authentic
  passes : ∀ pass ∈ d.reconcilers.passes, pass.Vetted
  lines : ∀ l ∈ d.lines, l.Sound
  fetched : ∀ f ∈ d.fetched, f.Faithful

section runs
variable [NewerMessages] {d f : Deployment}

theorem Sound.start (h : d.Sound) (key : ObjectKey) (now : Time.Timestamp)
    (failure : Option StoreError) :
    let x := Reconcile.attempt key now failure d.reconcilers.stores
    Sound { d with reconcilers := ⟨x.1, x.2.judged?.toList ++ d.reconcilers.passes⟩ } := by
  intro x
  obtain ⟨hstore, hjudged⟩ := Reconcile.attempt_authentic h.store key now failure
  refine ⟨hstore, fun pass hpass => ?_, h.lines, h.fetched⟩
  rcases List.mem_append.mp hpass with hnew | hold
  · exact hjudged pass (Option.mem_toList.mp hnew)
  · exact h.passes pass hold

theorem Sound.finish (h : d.Sound) {pass : Reconcile.Judged}
    (hpass : pass ∈ d.reconcilers.passes) (index : ℕ) (failure : Option StoreError) :
    Sound { d with
      reconcilers := ⟨(Reconcile.complete pass failure d.reconcilers.stores).1,
        d.reconcilers.passes.eraseIdx index⟩ } where
  store := Reconcile.complete_authentic h.store (h.passes pass hpass) failure
  passes p hp := h.passes p (List.mem_of_mem_eraseIdx hp)
  lines := h.lines
  fetched := h.fetched

theorem Sound.reconcile (h : d.Sound) {m : Reconcilers.Move} {r : Reconcilers}
    (hm : d.reconcilers.step m = some r) : Sound { d with reconcilers := r } := by
  cases m with
  | client w =>
      obtain rfl := Option.some.inj hm
      exact ⟨h.store, h.passes, h.lines, h.fetched⟩
  | start key now failure =>
      obtain rfl := Option.some.inj hm
      exact h.start key now failure
  | finish index failure =>
      obtain ⟨pass, -, hpass, rfl⟩ := Reconcilers.step_finish hm
      exact h.finish hpass index failure

theorem Sound.connect (h : d.Sound) (method : Method) (protocol : Protocol) (scope : Scope)
    (serial : ℕ) :
    let e := Exchange.opening d.hall method protocol scope serial
    Sound { d.withHall e.hall with lines := d.lines ++ [⟨method, e.stream, e.turns⟩] } := by
  intro e
  have hhall : e.hall.store.Authentic := h.store.subscribe protocol
  refine ⟨hhall, h.passes, fun l hl => ?_, h.fetched⟩
  rcases List.mem_append.mp hl with hold | hnew
  · exact h.lines l hold
  · obtain rfl := List.mem_singleton.mp hnew
    exact {
      receiver := rfl
      said := rfl
      session := ⟨.new method, .opening, fun _ => rfl⟩
      seen := fun t ht => absurd ht List.not_mem_nil }

theorem Sound.line (h : d.Sound) {index : ℕ} {m : Exchange.Move} (hown : m.isOwn = true) {l : Line}
    (hl : d.lines[index]? = some l) {e : Exchange} (he : (l.exchange d.hall).step m = some e) :
    Sound { d.withHall e.hall with lines := d.lines.set index (l.after e) } := by
  obtain ⟨hline, hstore⟩ := (h.lines l (List.mem_of_getElem? hl)).step h.store hown he
  refine ⟨hstore, h.passes, fun l' hl' => ?_, h.fetched⟩
  rcases List.mem_or_eq_of_mem_set hl' with hold | rfl
  · exact h.lines l' hold
  · exact hline

theorem Sound.fetch (h : d.Sound) (protocol : Protocol) (scope : Scope) (request : Request)
    (nonce : String) :
    let x := Discovery.fetch d.hall.store protocol scope request nonce
    Sound { d.withHall ⟨x.1, d.listeners⟩ with
      fetched := d.fetched ++ [⟨protocol, scope, request, x.2⟩] } := by
  intro x
  obtain ⟨hstore, hfaithful⟩ := fetch_faithful h.store protocol scope request nonce
  refine ⟨hstore, h.passes, h.lines, fun f hf => ?_⟩
  rcases List.mem_append.mp hf with hold | hnew
  · exact h.fetched f hold
  · obtain rfl := List.mem_singleton.mp hnew
    exact hfaithful

theorem Sound.step (h : d.Sound) {m : Move} (hm : d.step m = some f) : f.Sound := by
  cases m with
  | reconcile m =>
      obtain ⟨r, hr, rfl⟩ := Option.map_eq_some_iff.mp hm
      exact h.reconcile hr
  | connect method protocol scope serial =>
      obtain rfl := Option.some.inj hm
      exact h.connect method protocol scope serial
  | line index m =>
      simp only [Deployment.step] at hm
      split at hm
      · rename_i hown
        obtain ⟨l, hl, hm⟩ := Option.bind_eq_some_iff.mp hm
        obtain ⟨e, he, hm⟩ := Option.bind_eq_some_iff.mp hm
        obtain rfl := Option.some.inj hm
        exact h.line hown hl he
      · cases hm
  | fetch protocol scope request nonce =>
      obtain rfl := Option.some.inj hm
      exact h.fetch protocol scope request nonce

theorem opening_sound (objects : ObjectStore) : (opening objects).Sound where
  store := ResourceStore.empty_authentic
  passes pass hpass := by cases hpass
  lines l hl := by cases hl
  fetched f hf := by cases hf

/-- Whatever clients, passes, streams and single requests do, all that is sent on a stream or in
answer to a single request is of the kind and the protocol that were asked for, validates as such,
and bears a name that is asked for unless all are. -/
theorem served_genuine {objects : ObjectStore} {moves : List Move}
    (hrun : (opening objects).run moves = some d) :
    (∀ l ∈ d.lines, l.Faithful) ∧ ∀ f ∈ d.fetched, f.Faithful := by
  have hsound : d.Sound :=
    run_keeps (opening_sound objects) (fun _ _ _ _ hd hm => hd.step hm) hrun
  exact ⟨fun l hl => (hsound.lines l hl).faithful, hsound.fetched⟩

end runs

/-! ### An object that changes its protocol -/

/-- A cluster of one protocol is served on a stream; then its payload becomes one of the other. -/
def switchMoves : List Move :=
  let url : Protocol → String := fun p => MessageType.url ⟨p, .cluster⟩
  let cluster : Protocol → Object := fun p => .declare .cluster "default" "web" ⟨url p, [10, 1, 97]⟩
  let start : Move := .reconcile (.start (cluster .v3).key ⟨1, 0⟩ none)
  [.reconcile (.client (.create ⟨"first", ⟨0, 0⟩⟩ (cluster .v3))), start,
    .reconcile (.finish 0 none), .connect .stream .v3 .aggregated 0,
    .line 0 (.send (.ask (.whole ⟨url .v3, ["a"], "", false⟩))), .line 0 .takeInput,
    .reconcile (.client (.update (cluster .v2))), start, .reconcile (.finish 0 none),
    .line 0 .takeSnapshot, .fetch .v2 (.single .cluster) ⟨url .v2, [], "", false⟩ "n"]

def afterSwitch : Deployment :=
  ((opening .empty).run switchMoves).get (by decide +kernel)

/-- What the stream has sent goes away with the change, and is there for the other protocol. -/
theorem genuine_after_switch :
    (∀ l ∈ afterSwitch.lines, l.Faithful) ∧ (∀ f ∈ afterSwitch.fetched, f.Faithful) ∧
      (afterSwitch.lines.map fun l => (l.turns.flatMap (·.replies)).map fun r =>
        (r.whole?.map fun r => r.resources.length)) = [[some 1, some 0]] ∧
      (afterSwitch.fetched.map fun f => f.answer.toOption.map fun r => r.resources.length) =
        [some 1] := by
  have hrun : (opening .empty).run switchMoves = some afterSwitch := (Option.some_get _).symm
  obtain ⟨hlines, hfetched⟩ := served_genuine hrun
  exact ⟨hlines, hfetched, by decide +kernel, by decide +kernel⟩

end Deployment

end Discovery

end ControlPlane
