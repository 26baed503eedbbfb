import ControlPlane.Proofs.Discovery.Exchange
import ControlPlane.Proofs.Runs
import ControlPlane.Proofs.Store.Snapshots

/-! # Fetching and streaming give the same first answer

A fetch asks the store for its snapshot, while a stream looks at the publication that it listens to.
Either of them may be the one for which a marked publication is rebuilt, and a new stream may take
note of that before it comes to its first request.  None of this can be told from the answer: both
show the store as it is (`Response.build_alike`), so the stream says what the fetch came to
(`first_answer`). -/

namespace ControlPlane

/-! ### Stores that have not changed -/

namespace Hall

/-- Whether the stored resources may change. -/
def Move.writes : Move → Bool
  | write .. | remove _ => true
  | read _ | join _ | leave _ => false

/-- Publications without a mark show the store. -/
def Current (h : Hall) : Prop := ∀ p, h.store.Current p

section current
variable {h : Hall}

theorem empty_current : empty.Current := ResourceStore.empty_current

theorem Current.step (hc : h.Current) (m : Move) : (h.step m).Current := by
  intro p
  cases m with
  | write name version resource => exact (hc p).update name version resource
  | remove name => exact (hc p).delete name
  | read q => exact (hc p).freshen q
  | join q => exact (hc p).subscribe q
  | leave r => exact (hc p).unsubscribe r

theorem Current.run (hc : h.Current) (moves : List Move) : (moves.foldl Hall.step h).Current := by
  induction moves generalizing h with
  | nil => exact hc
  | cons m rest ih => exact ih (hc.step m)

theorem step_stored {m : Move} (hm : m.writes = false) :
    (h.step m).store.resources = h.store.resources ∧
      (h.step m).store.version = h.store.version := by
  cases m with
  | write => cases hm
  | remove => cases hm
  | read q => exact ⟨h.store.freshen_resources q, h.store.freshen_version q⟩
  | join q =>
      refine ⟨?_, h.store.subscribe_version q⟩
      exact (ResourceStore.freshen_resources _ q).trans (ResourceStore.setPublication_resources _ _ _)
  | leave r => exact ⟨ResourceStore.setPublication_resources _ _ _, h.store.unsubscribe_version r⟩

end current
end Hall

namespace Discovery

/-! ### Answers from a snapshot that shows the store -/

namespace Response

/-- The responses tell of the same type and version and carry the same resources in this order. -/
structure Alike (a b : Response) : Prop where
  typeUrl : a.typeUrl = b.typeUrl
  version : a.version = b.version
  resources : a.resources = b.resources

section alike
variable {s t : ResourceStore} {p : Protocol} {a b : Snapshot}

/-- What is selected, from what is served. -/
theorem select_bodies (a : Snapshot) (kind : Kind) (names : List String) :
    (a.select kind names).map (·.body) = (((a.resources kind).map Entry.served).filter
      fun e => names.isEmpty || names.contains e.2.1).map fun e => e.2.2 := by
  rw [List.filter_map, List.map_map]
  rfl

/-- A response does not depend on which of the snapshots that show the store it is made from. -/
theorem build_alike (ha : s.Shows p a) (hb : t.Shows p b) (hresources : t.resources = s.resources)
    (hversion : t.version = s.version) (kind : Kind) (typeUrl : String) (names : List String)
    (nonce nonce' : String) :
    (build a kind typeUrl names nonce).Alike (build b kind typeUrl names nonce') where
  typeUrl := rfl
  version := ha.version.trans (hversion.symm.trans hb.version.symm)
  resources := by
    have hoffered := ResourceStore.offered_congr hresources p kind
    show (a.select kind names).map (·.body) = (b.select kind names).map (·.body)
    rw [select_bodies, select_bodies, ha.entries, hb.entries, hoffered]

end alike
end Response

/-- What a call came to and what a new stream has said are the same. -/
structure Agrees (result : Except CallError Response) (s : Stream) : Prop where
  refused : ∀ error, result = .error error ↔ s.outbox = [.refused error] ∧ s.isOpen = false
  answered : ∀ response, result = .ok response →
    ∃ answer, s.outbox = [.reply (.whole answer)] ∧ s.isOpen = true ∧ answer.Alike response

section agrees
variable {s : Stream} {error : CallError} {answer response : Response}

theorem Agrees.of_error (houtbox : s.outbox = [.refused error]) (hclosed : s.isOpen = false) :
    Agrees (.error error) s where
  refused other := by
    constructor
    · intro h
      obtain rfl := Except.error.inj h
      exact ⟨houtbox, hclosed⟩
    · rintro ⟨h, -⟩
      rw [houtbox] at h
      rw [Output.refused.inj (List.singleton_inj.mp h)]
  answered response h := by cases h

theorem Agrees.of_ok (houtbox : s.outbox = [.reply (.whole answer)]) (hopen : s.isOpen = true)
    (halike : answer.Alike response) : Agrees (.ok response) s where
  refused error := by
    constructor
    · intro h
      cases h
    · rintro ⟨h, -⟩
      rw [houtbox] at h
      cases List.singleton_inj.mp h
  answered other h := by
    obtain rfl := Except.ok.inj h
    exact ⟨answer, houtbox, hopen, halike⟩

end agrees

/-! ### The first request of a stream -/

section first
variable {s : Stream} {request : Request} {kind : Kind}

/-- A type that the service does not serve is refused, and the stream ends. -/
theorem takeInput_refused (hopen : s.isOpen = true) (hheard : s.isHeard = true)
    (hscope : s.scope ≠ .aggregated) {ask : Ask} {error : CallError}
    (hresolve : s.scope.resolve s.protocol ask.typeUrl = .error error) (snapshot : Snapshot) :
    s.takeInput snapshot (.ask ask) =
      { s with outbox := s.outbox ++ [.refused error], isOpen := false } := by
  unfold Stream.takeInput
  rw [if_neg (by simp [hopen])]
  simp only [hresolve]
  rw [if_neg hscope, Stream.emit_of_heard hopen hheard]

/-- A request without a nonce is answered by a new session. -/
theorem Session.new_onRequest (hnonce : request.nonce = "") (snapshot : Snapshot)
    (nonce : String) :
    (Session.new.onRequest kind request snapshot nonce).2 =
      some (Response.build snapshot kind request.typeUrl request.names nonce) := by
  have hanswers : (Subscription.new kind).answers request snapshot = true := if_pos hnonce
  show ((Subscription.new kind).onRequest request snapshot nonce).2 = _
  unfold Subscription.onRequest
  rw [if_pos hanswers]
  rfl

theorem takeInput_answered (hopen : s.isOpen = true) (hheard : s.isHeard = true)
    (hsession : s.session = .whole .new) (hnonce : request.nonce = "")
    (hresolve : s.scope.resolve s.protocol request.typeUrl = .ok kind) (snapshot : Snapshot) :
    (s.takeInput snapshot (.ask (.whole request))).outbox =
        s.outbox ++ [.reply (.whole (Response.build snapshot kind request.typeUrl request.names
          (token s.serial s.issued)))] ∧
      (s.takeInput snapshot (.ask (.whole request))).isOpen = true := by
  have hreply : (s.session.onRequest kind (.whole request) snapshot
      (token s.serial s.issued)).2 = some (.whole (Response.build snapshot kind
        request.typeUrl request.names (token s.serial s.issued))) := by
    rw [hsession]
    exact congrArg (Option.map Reply.whole) (Session.new_onRequest hnonce snapshot _)
  have hask := Stream.takeInput_ask snapshot hopen
    (show s.scope.resolve s.protocol (Ask.whole request).typeUrl = .ok kind from hresolve)
  dsimp only at hask
  rw [hreply] at hask
  rw [hask, Option.toList_some, List.foldl_cons, List.foldl_nil]
  have hemit := Stream.emit_of_heard (s := { s with
    session := (s.session.onRequest kind (.whole request) snapshot (token s.serial s.issued)).1
    issued := s.issued + 1 }) hopen hheard
  rw [hemit]
  exact ⟨rfl, hopen⟩

end first

namespace Exchange

/-! ### Before the first request is taken up -/

/-- Moves that are made before the first request is taken up on a stream that goes on. -/
def Move.isEarly : Move → Bool
  | hall _ | send _ | takeSnapshot => true
  | hangUp | takeInput | cancel => false

/-- Whether the stored resources may change. -/
def Move.writes : Move → Bool
  | hall m => m.writes
  | send _ | hangUp | takeInput | takeSnapshot | cancel => false

/-- The stream has been sent these inputs and has not taken up any. -/
structure Waiting (e : Exchange) (sent : List Input) : Prop where
  isOpen : e.stream.isOpen = true
  isHeard : e.stream.isHeard = true
  session : e.stream.session = .whole .new
  silent : e.stream.outbox = []
  inbox : e.stream.inbox = sent
  current : e.hall.Current

section waiting
variable {e f : Exchange} {sent : List Input} {hall : Hall} {protocol : Protocol} {kind : Kind}
  {serial : ℕ} {moves : List Move}

theorem run_eq_foldlM (e : Exchange) (moves : List Move) :
    e.run moves = moves.foldlM Exchange.step e := by
  induction moves generalizing e with
  | nil => rfl
  | cons m rest ih =>
      rw [run, List.foldlM_cons]
      exact congrArg _ (funext ih)

theorem opening_waiting (hc : hall.Current) :
    (opening hall .stream protocol (.single kind) serial).Waiting [] :=
  ⟨rfl, rfl, rfl, rfl, rfl, hc.step (.join protocol)⟩

/-- A stream that nothing was asked of has nothing to say to a snapshot. -/
theorem takeSnapshot_of_new {s : Stream} (hopen : s.isOpen = true)
    (hsession : s.session = .whole .new) (snapshot : Snapshot) : s.takeSnapshot snapshot = s := by
  obtain ⟨protocol, scope, session, receiver, serial, issued, isOpen, isHeard, inbox, outbox⟩ := s
  obtain rfl : isOpen = true := hopen
  obtain rfl : session = .whole .new := hsession
  rfl

theorem Waiting.step (h : e.Waiting sent) {m : Move} (hearly : m.isEarly = true)
    (hm : e.step m = some f) :
    f.Waiting (sent ++ m.sent?.toList) ∧ (m.writes = false →
      f.hall.store.resources = e.hall.store.resources ∧
        f.hall.store.version = e.hall.store.version) := by
  cases m with
  | hall m =>
      simp only [Exchange.step] at hm
      split at hm
      · obtain rfl := Option.some.inj hm
        have hinbox : e.stream.inbox = sent ++ [] := h.inbox.trans (List.append_nil sent).symm
        exact ⟨⟨h.isOpen, h.isHeard, h.session, h.silent, hinbox, h.current.step m⟩,
          fun hquiet => Hall.step_stored hquiet⟩
      · cases hm
  | send input =>
      obtain rfl := Option.some.inj hm
      have hinbox : e.stream.inbox ++ [input] = sent ++ [input] := by rw [h.inbox]
      exact ⟨⟨h.isOpen, h.isHeard, h.session, h.silent, hinbox, h.current⟩, fun _ => ⟨rfl, rfl⟩⟩
  | takeSnapshot =>
      simp only [Exchange.step] at hm
      split at hm
      · rw [takeSnapshot_of_new h.isOpen h.session] at hm
        obtain rfl := Option.some.inj hm
        have hinbox : e.stream.inbox = sent ++ [] := h.inbox.trans (List.append_nil sent).symm
        rw [next, if_pos h.isOpen]
        exact ⟨⟨h.isOpen, h.isHeard, h.session, h.silent, hinbox, h.current⟩, fun _ => ⟨rfl, rfl⟩⟩
      · cases hm
  | hangUp => cases hearly
  | takeInput => cases hearly
  | cancel => cases hearly

/-- Until the first request is taken up all that was sent is in wait, and if nothing was written
then the same is stored. -/
theorem Waiting.run (h : e.Waiting []) (hearly : ∀ m ∈ moves, m.isEarly = true)
    (hrun : e.run moves = some f) :
    f.Waiting (moves.filterMap Move.sent?) ∧ ((∀ m ∈ moves, m.writes = false) →
      f.hall.store.resources = e.hall.store.resources ∧
        f.hall.store.version = e.hall.store.version) := by
  rw [run_eq_foldlM] at hrun
  refine run_induction (P := fun made f => f.Waiting (made.filterMap Move.sent?) ∧
    ((∀ m ∈ made, m.writes = false) → f.hall.store.resources = e.hall.store.resources ∧
      f.hall.store.version = e.hall.store.version)) ⟨h, fun _ => ⟨rfl, rfl⟩⟩ ?_ hrun
  intro made m rest q r hmoves _ ih hm
  have hmem : m ∈ moves := by
    rw [hmoves]
    exact List.mem_append_right _ List.mem_cons_self
  obtain ⟨hwaiting, hstored⟩ := ih.1.step (hearly m hmem) hm
  constructor
  · rw [List.filterMap_append]
    cases m <;> exact hwaiting
  · intro hquiet
    obtain ⟨hresources, hversion⟩ := ih.2 fun n hn => hquiet n (List.mem_append_left _ hn)
    obtain ⟨hresources', hversion'⟩ := hstored (hquiet m (by simp))
    exact ⟨hresources'.trans hresources, hversion'.trans hversion⟩

/-- The stream takes up the first request in wait, and says what a call comes to that looks at a
store in which the same is stored. -/
theorem Waiting.first {store : ResourceStore} {request : Request} {later : List Input}
    (h : e.Waiting (.ask (.whole request) :: later)) (hview : e.hall.store.Shows protocol e.view)
    (hprotocol : e.stream.protocol = protocol) (hscope : e.stream.scope = .single kind)
    (hnonce : request.nonce = "") (hstore : store.Current protocol)
    (hresources : store.resources = e.hall.store.resources)
    (hversion : store.version = e.hall.store.version) (nonce : String) :
    ∃ f, e.step .takeInput = some f ∧
      Agrees (fetch store protocol (.single kind) request nonce).2 f.stream := by
  have hmove : e.step .takeInput = some (e.next
      ({ e.stream with inbox := later }.takeInput e.view (.ask (.whole request)))
      (e.stream.cause? (.ask (.whole request)))) := by
    simp only [Exchange.step, h.isOpen, h.inbox]
  refine ⟨_, hmove, ?_⟩
  rw [next_stream]
  have hsilent : ({ e.stream with inbox := later } : Stream).outbox = [] := h.silent
  subst hprotocol
  unfold fetch
  cases hresolve : Scope.resolve (.single kind) e.stream.protocol request.typeUrl with
  | error error =>
      have hresolve' : e.stream.scope.resolve e.stream.protocol (Ask.whole request).typeUrl =
          .error error := by
        rw [hscope]
        exact hresolve
      have hscope' : e.stream.scope ≠ .aggregated := by simp [hscope]
      have hafter := takeInput_refused (s := { e.stream with inbox := later }) h.isOpen h.isHeard
        hscope' hresolve' e.view
      rw [hafter, hsilent]
      exact .of_error rfl rfl
  | ok served =>
      have hresolve' : e.stream.scope.resolve e.stream.protocol request.typeUrl = .ok served := by
        rw [hscope, hresolve]
      obtain ⟨houtbox, hopen⟩ := takeInput_answered (s := { e.stream with inbox := later }) h.isOpen
        h.isHeard h.session hnonce hresolve' e.view
      rw [hsilent] at houtbox
      exact .of_ok houtbox hopen (Response.build_alike hview hstore.snapshot hresources hversion
        served request.typeUrl request.names _ nonce)

end waiting

/-- A new stream of one kind says to its first request what a fetch comes to, whatever has happened
to the store before and up to the moment when the request is taken up.  The fetch may be made at that
moment, or before the stream is opened if nothing is written since. -/
theorem first_answer {before : List Hall.Move} {protocol : Protocol} {kind : Kind} {serial : ℕ}
    {moves : List Move} {e : Exchange} {request : Request} {later : List Input}
    {store : ResourceStore}
    (hrun : (opening (before.foldl Hall.step .empty) .stream protocol (.single kind) serial).run
      moves = some e)
    (hearly : ∀ m ∈ moves, m.isEarly = true)
    (hsent : moves.filterMap Move.sent? = .ask (.whole request) :: later)
    (hnonce : request.nonce = "")
    (hstore : store = e.hall.store ∨
      store = (before.foldl Hall.step .empty).store ∧ ∀ m ∈ moves, m.writes = false)
    (nonce : String) :
    (∃ f, e.step .takeInput = some f ∧
      Agrees (fetch store protocol (.single kind) request nonce).2 f.stream) ∧
    ∀ response, (fetch store protocol (.single kind) request nonce).2 = .ok response →
      response.version = store.version := by
  have hsteady : Steady (.new .stream) fun _ _ => True :=
    ⟨fun _ => trivial, fun _ _ _ _ _ _ => trivial, fun _ _ _ => trivial⟩
  have hcurrent : (before.foldl Hall.step .empty).Current := Hall.empty_current.run before
  have hsound := (opening_sound (Hall.empty_sound.run before) .stream protocol (.single kind) serial
    hsteady).run hsteady hrun
  obtain ⟨hprotocol, hscope⟩ := run_frame hrun
  obtain ⟨hwaiting, hstored⟩ := (opening_waiting hcurrent).run hearly hrun
  rw [hsent] at hwaiting
  have hview : e.hall.store.Shows protocol e.view := by
    have hsnapshot := hsound.snapshot_eq hwaiting.isOpen
    have hshows := (hwaiting.current e.stream.protocol).snapshot
    rw [hsnapshot, hprotocol] at hshows
    exact hshows
  have hsame : store.Current protocol ∧ store.resources = e.hall.store.resources ∧
      store.version = e.hall.store.version := by
    rcases hstore with rfl | ⟨rfl, hquiet⟩
    · exact ⟨hwaiting.current protocol, rfl, rfl⟩
    · obtain ⟨hresources, hversion⟩ := hstored hquiet
      obtain ⟨hjoined, hjoinedVersion⟩ :=
        Hall.step_stored (h := before.foldl Hall.step .empty) (m := .join protocol) rfl
      exact ⟨hcurrent protocol, (hresources.trans hjoined).symm,
        (hversion.trans hjoinedVersion).symm⟩
  obtain ⟨hshown, hresources, hversion⟩ := hsame
  refine ⟨hwaiting.first hview hprotocol hscope hnonce hshown hresources hversion nonce, ?_⟩
  intro response h
  unfold fetch at h
  cases hresolve : Scope.resolve (.single kind) protocol request.typeUrl with
  | error error =>
      rw [hresolve] at h
      cases h
  | ok served =>
      rw [hresolve] at h
      obtain rfl := Except.ok.inj h
      exact hshown.snapshot.version

/-- The clusters "a" and "b" are stored, and the second is written when nobody listens any more. -/
def silentMoves : List Hall.Move :=
  let url := "type.googleapis.com/envoy.config.cluster.v3.Cluster"
  [.write ⟨"default/cluster/a"⟩ ⟨"1", "1"⟩ ⟨.cluster, .v3, url, "a", [10, 1, 97]⟩, .join .v3,
    .leave ⟨.v3, 1⟩, .write ⟨"default/cluster/b"⟩ ⟨"2", "2"⟩ ⟨.cluster, .v3, url, "b", [10, 1, 98]⟩]

/-- A request for the second cluster. -/
def requestForOne : Request where
  typeUrl := "type.googleapis.com/envoy.config.cluster.v3.Cluster"
  names := ["b"]
  nonce := ""
  isRejection := false

/-- The publication is marked, so it is rebuilt for the stream, which takes note of that first; and
still the stream says what a fetch before it was opened comes to. -/
theorem first_answer_after_silence :
    ((silentMoves.foldl Hall.step .empty).store.publication .v3).isStale = true ∧
    (fetch (silentMoves.foldl Hall.step .empty).store .v3 (.single .cluster) requestForOne "n").2 =
      .ok ⟨2, requestForOne.typeUrl, "n", [⟨requestForOne.typeUrl, [10, 1, 98]⟩]⟩ ∧
    ∃ e f, (opening (silentMoves.foldl Hall.step .empty) .stream .v3 (.single .cluster) 0).run
        [.send (.ask (.whole requestForOne)), .takeSnapshot] = some e ∧
      e.step .takeInput = some f ∧ Agrees (fetch (silentMoves.foldl Hall.step .empty).store .v3
        (.single .cluster) requestForOne "n").2 f.stream := by
  have hrun : ((opening (silentMoves.foldl Hall.step .empty) .stream .v3 (.single .cluster) 0).run
      [.send (.ask (.whole requestForOne)), .takeSnapshot]).isSome = true := by
    decide +kernel
  obtain ⟨e, he⟩ := Option.isSome_iff_exists.mp hrun
  have hearly : ∀ m ∈ [Move.send (.ask (.whole requestForOne)), .takeSnapshot],
      m.isEarly = true := by
    simp [Move.isEarly]
  have hquiet : ∀ m ∈ [Move.send (.ask (.whole requestForOne)), .takeSnapshot],
      m.writes = false := by
    simp [Move.writes]
  obtain ⟨⟨f, hf, hagrees⟩, -⟩ := first_answer he hearly rfl rfl (Or.inr ⟨rfl, hquiet⟩) "n"
  exact ⟨by decide +kernel, by decide +kernel, e, f, he, hf, hagrees⟩

end Exchange
end Discovery
end ControlPlane
