import ControlPlane.Proofs.Discovery.Streams
import ControlPlane.Proofs.Store.Publications

/-! # Streams in small steps

A stream takes up one request or one snapshot at a time, while its proxy goes on sending and the
store goes on changing in any order (`Exchange.run`).  What it took up and what it said to that is
noted down turn by turn.  Seen from the session alone the turns are a `Conversation`, with whatever
snapshots; the streams add that the snapshots are those of the store, never older than before, and
that a stream with no news in wait has seen the current one (`Exchange.Sound`).  The requests that
turns were taken at are those that the proxy sent, in order (`Exchange.Accounts`). -/

namespace ControlPlane.Discovery

/-- What makes a stream take a turn. -/
inductive Cause where
  | ask (ask : Ask)
  | news

/-- What a stream took up, the snapshot that it saw then, and what it said. -/
structure Turn where
  cause : Cause
  snapshot : Snapshot
  replies : List Reply

def Turn.ask? (t : Turn) : Option Ask :=
  match t.cause with
  | .ask ask => some ask
  | .news => none

/-- The requests that turns were taken at, in order. -/
def asks (turns : List Turn) : List Ask := turns.filterMap Turn.ask?

theorem asks_snoc (turns : List Turn) (t : Turn) :
    asks (turns ++ [t]) = asks turns ++ t.ask?.toList := by
  unfold asks
  rw [List.filterMap_append]
  cases h : t.ask? <;> simp [h]

/-- The turns that lead a session from its start to where it is, with any snapshots and nonces.
Type URLs that resolve to no kind are not heard of. -/
inductive Conversation (resolve : String → Option Kind) (start : AnySession) :
    List Turn → AnySession → Prop
  | opening : Conversation resolve start [] start
  | ask {turns : List Turn} {s : AnySession} (ask : Ask) (kind : Kind) (snapshot : Snapshot)
      (nonce : String) : Conversation resolve start turns s → resolve ask.typeUrl = some kind →
      Conversation resolve start
        (turns ++ [⟨.ask ask, snapshot, (s.onRequest kind ask snapshot nonce).2.toList⟩])
        (s.onRequest kind ask snapshot nonce).1
  | news {turns : List Turn} {s : AnySession} (snapshot : Snapshot) (nonce : String → String) :
      Conversation resolve start turns s →
      Conversation resolve start (turns ++ [⟨.news, snapshot, (s.onSnapshot snapshot nonce).2⟩])
        (s.onSnapshot snapshot nonce).1

/-- What holds of each member of a list with those before it, and of one more. -/
theorem forall_split_snoc {α : Type} {P : List α → α → Prop} {l : List α} {a : α}
    (h : ∀ earlier b later, l = earlier ++ b :: later → P earlier b) (ha : P l a) :
    ∀ earlier b later, l ++ [a] = earlier ++ b :: later → P earlier b := by
  intro earlier b later hsplit
  rcases List.eq_nil_or_concat later with rfl | ⟨rest, last, rfl⟩
  · obtain ⟨rfl, hlast⟩ := List.append_inj' hsplit rfl
    obtain rfl := List.singleton_inj.mp hlast
    exact ha
  · rw [List.concat_eq_append, ← List.cons_append, ← List.append_assoc] at hsplit
    exact h earlier b rest (List.append_inj_left' hsplit rfl)

/-- What is found among those that are found or told why not. -/
theorem ok_of_toOption {ε α : Type} {x : Except ε α} {a : α} (h : x.toOption = some a) :
    x = .ok a := by
  cases x with
  | error e => cases h
  | ok b => rw [Option.some.inj h]

namespace Stream

/-- What makes the stream take a turn at an input. -/
def cause? (s : Stream) : Input → Option Cause
  | .ask ask => (s.resolve? ask.typeUrl).map fun _ => .ask ask
  | .failed | .ended => none

/-- The request that is taken up with an input, if it is for a type that is served. -/
def served? (s : Stream) : Input → Option Ask
  | .ask ask => (s.resolve? ask.typeUrl).map fun _ => ask
  | .failed | .ended => none

/-- The replies by which the outputs have grown. -/
def heard (before after : Stream) : List Reply :=
  (after.outbox.drop before.outbox.length).filterMap Output.reply?

end Stream

/-! ### Streams, proxies and the store together -/

/-- A stream with the store that it listens to, and the turns that it has taken. -/
structure Exchange where
  hall : Hall
  stream : Stream
  turns : List Turn

namespace Exchange

inductive Move where
  /-- Something happens to the store or its other listeners. -/
  | hall (move : Hall.Move)
  /-- The proxy sends something, or its side of the stream fails or ends. -/
  | send (input : Input)
  /-- The proxy stops taking responses. -/
  | hangUp
  | takeInput
  | takeSnapshot
  /-- Streams are not served any more. -/
  | cancel

/-- The snapshot that the stream sees. -/
def view (e : Exchange) : Snapshot := e.hall.store.view e.stream.receiver

/-- Others do not leave in the stream's place. -/
def allows (e : Exchange) : Hall.Move → Bool
  | .leave r =>
    e.hall.listeners r.protocol ≠
      if e.stream.isOpen && r.protocol = e.stream.protocol then 1 else 0
  | _ => true

/-- The exchange after the stream has moved.  A stream that is closed stops listening. -/
def next (e : Exchange) (after : Stream) (cause : Option Cause) : Exchange :=
  if after.isOpen then
    { e with
      stream := after
      turns := e.turns ++ cause.toList.map fun c => ⟨c, e.view, Stream.heard e.stream after⟩ }
  else { e with hall := e.hall.step (.leave after.receiver), stream := after }

/-- One move, if it can be made. -/
def step (e : Exchange) : Move → Option Exchange
  | .hall m => if e.allows m then some { e with hall := e.hall.step m } else none
  | .send input => some { e with stream := { e.stream with inbox := e.stream.inbox ++ [input] } }
  | .hangUp => some { e with stream := { e.stream with isHeard := false } }
  | .takeInput =>
    match e.stream.isOpen, e.stream.inbox with
    | true, input :: rest =>
      some (e.next ({ e.stream with inbox := rest }.takeInput e.view input)
        (e.stream.cause? input))
    | _, _ => none
  | .takeSnapshot =>
    if e.stream.isOpen && e.hall.store.hasNews e.stream.receiver then
      some (e.next { e.stream.takeSnapshot e.view with
        receiver := e.hall.store.acknowledge e.stream.receiver } (some .news))
    else none
  | .cancel => if e.stream.isOpen then some (e.next e.stream.close none) else none

/-- The moves one after the other, if all can be made. -/
def run (e : Exchange) : List Move → Option Exchange
  | [] => some e
  | m :: rest => (e.step m).bind fun f => f.run rest

/-- A stream is opened. -/
def opening (hall : Hall) (method : Method) (protocol : Protocol) (scope : Scope) (serial : ℕ) :
    Exchange where
  hall := hall.step (.join protocol)
  stream := (Stream.start method protocol scope serial hall.store).1
  turns := []

/-- The stream is open, has taken up all that its proxy sent, and has seen the newest snapshot. -/
structure Rest (e : Exchange) : Prop where
  isOpen : e.stream.isOpen = true
  noInput : e.stream.inbox = []
  noNews : e.hall.store.hasNews e.stream.receiver = false

instance (e : Exchange) : Decidable e.Rest :=
  decidable_of_iff
    (e.stream.isOpen = true ∧ e.stream.inbox.isEmpty = true ∧
      e.hall.store.hasNews e.stream.receiver = false)
    ⟨fun h => ⟨h.1, List.isEmpty_iff.mp h.2.1, h.2.2⟩,
      fun h => ⟨h.isOpen, List.isEmpty_iff.mpr h.noInput, h.noNews⟩⟩

end Exchange

/-- A relation of sessions to snapshots that taking up the snapshot brings about, and that is kept
by taking up requests at the same snapshot. -/
structure Steady (start : AnySession) (Good : AnySession → Snapshot → Prop) : Prop where
  opening : ∀ snapshot, Good start snapshot
  ask : ∀ (s : AnySession) ask kind snapshot nonce, Good s snapshot →
    Good (s.onRequest kind ask snapshot nonce).1 snapshot
  news : ∀ (s : AnySession) snapshot nonce, Good (s.onSnapshot snapshot nonce).1 snapshot

namespace Exchange

/-! ### Moves -/

section moves
variable {e f : Exchange}

theorem next_stream (e : Exchange) (after : Stream) (cause : Option Cause) :
    (e.next after cause).stream = after := by
  unfold next
  split <;> rfl

theorem next_turns (e : Exchange) (after : Stream) (cause : Option Cause) :
    (e.next after cause).turns = e.turns ∨
      ∃ t, (e.next after cause).turns = e.turns ++ [t] ∧ t.snapshot = e.view := by
  unfold next
  split
  · cases cause with
    | none => exact Or.inl (List.append_nil _)
    | some c => exact Or.inr ⟨_, rfl, rfl⟩
  · exact Or.inl rfl

/-- A stream moves of its own accord only while it is open. -/
theorem step_cases {m : Move} (hm : e.step m = some f) :
    (f.turns = e.turns ∧ f.stream.protocol = e.stream.protocol ∧
        f.stream.scope = e.stream.scope) ∨
      e.stream.isOpen = true ∧ ∃ after cause, f = e.next after cause ∧
        after.protocol = e.stream.protocol ∧ after.scope = e.stream.scope := by
  cases m with
  | hall m =>
      simp only [Exchange.step] at hm
      split at hm
      · obtain rfl := Option.some.inj hm
        exact Or.inl ⟨rfl, rfl, rfl⟩
      · cases hm
  | send input =>
      obtain rfl := Option.some.inj hm
      exact Or.inl ⟨rfl, rfl, rfl⟩
  | hangUp =>
      obtain rfl := Option.some.inj hm
      exact Or.inl ⟨rfl, rfl, rfl⟩
  | takeInput =>
      simp only [Exchange.step] at hm
      split at hm
      · rename_i input rest hopen _
        obtain rfl := Option.some.inj hm
        have hframe := Stream.takeInput_frame (s := { e.stream with inbox := rest }) hopen e.view
          input
        exact Or.inr ⟨hopen, _, _, rfl, hframe.1, hframe.2⟩
      · cases hm
  | takeSnapshot =>
      simp only [Exchange.step] at hm
      split at hm
      · rename_i hready
        obtain rfl := Option.some.inj hm
        have hopen := (Bool.and_eq_true_iff.mp hready).1
        have hframe := Stream.takeSnapshot_frame hopen e.view
        exact Or.inr ⟨hopen, _, _, rfl, hframe.1, hframe.2⟩
      · cases hm
  | cancel =>
      simp only [Exchange.step] at hm
      split at hm
      · rename_i hopen
        obtain rfl := Option.some.inj hm
        have hended := Stream.close_ended hopen
        exact Or.inr ⟨hopen, _, _, rfl, hended.protocol, hended.scope⟩
      · cases hm

theorem run_frame {moves : List Move} (hrun : e.run moves = some f) :
    f.stream.protocol = e.stream.protocol ∧ f.stream.scope = e.stream.scope := by
  induction moves generalizing e with
  | nil =>
      obtain rfl := Option.some.inj hrun
      exact ⟨rfl, rfl⟩
  | cons m rest ih =>
      obtain ⟨e', hm, hrest⟩ := Option.bind_eq_some_iff.mp hrun
      obtain ⟨hprotocol, hscope⟩ := ih hrest
      rcases step_cases hm with ⟨-, h1, h2⟩ | ⟨-, after, cause, rfl, h1, h2⟩
      · exact ⟨hprotocol.trans h1, hscope.trans h2⟩
      · rw [next_stream] at hprotocol hscope
        exact ⟨hprotocol.trans h1, hscope.trans h2⟩

/-! ### What was sent -/

def Move.sent? : Move → Option Input
  | send input => some input
  | hall _ | hangUp | takeInput | takeSnapshot | cancel => none

/-- What was sent of served types: what turns were taken at, what was lost with the end of the
stream, and what waits. -/
def Accounts (e : Exchange) (sent : List Input) : Prop :=
  ∃ lost, asks e.turns ++ lost ++ e.stream.inbox.filterMap e.stream.served? =
    sent.filterMap e.stream.served? ∧ (e.stream.isOpen = true → lost = [])

/-- A stream that goes on as it is, or ends, with the same in wait. -/
theorem Accounts.same {sent : List Input} (h : e.Accounts sent)
    (hturns : asks f.turns = asks e.turns) (hserved : f.stream.served? = e.stream.served?)
    (hinbox : f.stream.inbox = e.stream.inbox)
    (hopen : f.stream.isOpen = true → e.stream.isOpen = true) : f.Accounts sent := by
  obtain ⟨lost, heq, hlost⟩ := h
  refine ⟨lost, ?_, fun ho => hlost (hopen ho)⟩
  rw [hturns, hserved, hinbox]
  exact heq

theorem served?_eq {s t : Stream} (hprotocol : t.protocol = s.protocol)
    (hscope : t.scope = s.scope) : t.served? = s.served? := by
  funext input
  cases input <;> simp only [Stream.served?, Stream.resolve?, hprotocol, hscope]

theorem Accounts.takeInput {sent : List Input} (h : e.Accounts sent) {input : Input}
    {rest : List Input} (hopen : e.stream.isOpen = true) (hinbox : e.stream.inbox = input :: rest) :
    (e.next ({ e.stream with inbox := rest }.takeInput e.view input)
      (e.stream.cause? input)).Accounts sent := by
  obtain ⟨lost, heq, hlost⟩ := h
  obtain rfl := hlost hopen
  have hrest := Stream.takeInput_inbox { e.stream with inbox := rest } e.view input
  obtain ⟨hprotocol, hscope⟩ := Stream.takeInput_frame (s := { e.stream with inbox := rest }) hopen
    e.view input
  have hserved := served?_eq (s := e.stream) hprotocol hscope
  rw [hinbox, List.append_nil, List.filterMap_cons] at heq
  unfold Exchange.next
  split
  · refine ⟨[], ?_, fun _ => rfl⟩
    dsimp only
    rw [hserved, hrest, ← heq, List.append_nil, asks, asks, List.filterMap_append,
      List.append_assoc]
    congr 1
    cases input with
    | failed => rfl
    | ended => rfl
    | ask ask =>
        cases hkind : e.stream.resolve? ask.typeUrl <;>
          simp [Stream.served?, Stream.cause?, Turn.ask?, hkind]
  · rename_i hclosed
    refine ⟨(e.stream.served? input).toList, ?_, fun ho => absurd ho hclosed⟩
    dsimp only
    rw [hserved, hrest, ← heq, List.append_assoc]
    congr 1
    cases e.stream.served? input <;> rfl

/-- A stream that goes on without a turn at a request. -/
theorem Accounts.next {sent : List Input} (h : e.Accounts sent) (hopen : e.stream.isOpen = true)
    {after : Stream} {cause : Option Cause} (hcause : ∀ ask, cause ≠ some (.ask ask))
    (hprotocol : after.protocol = e.stream.protocol) (hscope : after.scope = e.stream.scope)
    (hinbox : after.inbox = e.stream.inbox) : (e.next after cause).Accounts sent := by
  have hturns : asks (e.next after cause).turns = asks e.turns := by
    unfold Exchange.next
    split
    · cases cause with
      | none => exact congrArg asks (List.append_nil _)
      | some c =>
          cases c with
          | ask ask => exact absurd rfl (hcause ask)
          | news => exact (asks_snoc _ _).trans (List.append_nil _)
    · rfl
  refine h.same hturns ?_ ?_ fun _ => hopen
  · rw [next_stream]
    exact served?_eq hprotocol hscope
  · rw [next_stream]
    exact hinbox

theorem Accounts.step {sent : List Input} (h : e.Accounts sent) {m : Move}
    (hm : e.step m = some f) : f.Accounts (sent ++ m.sent?.toList) := by
  have hnothing : sent ++ (none : Option Input).toList = sent := List.append_nil _
  cases m with
  | hall m =>
      rw [Move.sent?, hnothing]
      simp only [Exchange.step] at hm
      split at hm
      · obtain rfl := Option.some.inj hm
        exact h.same rfl rfl rfl id
      · cases hm
  | send input =>
      obtain rfl := Option.some.inj hm
      obtain ⟨lost, heq, hlost⟩ := h
      have hserved : ({ e.stream with inbox := e.stream.inbox ++ [input] } : Stream).served? =
          e.stream.served? := served?_eq rfl rfl
      refine ⟨lost, ?_, hlost⟩
      dsimp only
      rw [hserved, List.filterMap_append, List.filterMap_append, ← heq, Move.sent?,
        Option.toList_some, List.append_assoc, List.append_assoc, List.append_assoc]
  | hangUp =>
      rw [Move.sent?, hnothing]
      obtain rfl := Option.some.inj hm
      exact h.same rfl (served?_eq rfl rfl) rfl id
  | takeInput =>
      rw [Move.sent?, hnothing]
      simp only [Exchange.step] at hm
      split at hm
      · rename_i hopen hinbox
        obtain rfl := Option.some.inj hm
        exact h.takeInput hopen hinbox
      · cases hm
  | takeSnapshot =>
      rw [Move.sent?, hnothing]
      simp only [Exchange.step] at hm
      split at hm
      · rename_i hready
        have hopen := (Bool.and_eq_true_iff.mp hready).1
        obtain ⟨hprotocol, hscope⟩ := Stream.takeSnapshot_frame hopen e.view
        obtain rfl := Option.some.inj hm
        exact h.next hopen (fun ask => by simp) hprotocol hscope
          (e.stream.takeSnapshot_inbox e.view)
      · cases hm
  | cancel =>
      rw [Move.sent?, hnothing]
      simp only [Exchange.step] at hm
      split at hm
      · rename_i hopen
        have hended := Stream.close_ended hopen
        obtain rfl := Option.some.inj hm
        exact h.next hopen (fun ask => by simp) hended.protocol hended.scope e.stream.close_inbox
      · cases hm

theorem opening_accounts (hall : Hall) (method : Method) (protocol : Protocol) (scope : Scope)
    (serial : ℕ) : (opening hall method protocol scope serial).Accounts [] :=
  ⟨[], rfl, fun _ => rfl⟩

theorem Accounts.run {sent : List Input} (h : e.Accounts sent) {moves : List Move}
    (hrun : e.run moves = some f) : f.Accounts (sent ++ moves.filterMap Move.sent?) := by
  induction moves generalizing e sent with
  | nil =>
      obtain rfl := Option.some.inj hrun
      rwa [List.filterMap_nil, List.append_nil]
  | cons m rest ih =>
      obtain ⟨e', hm, hrest⟩ := Option.bind_eq_some_iff.mp hrun
      have hnext := ih (h.step hm) hrest
      rw [List.append_assoc] at hnext
      rw [List.filterMap_cons]
      cases m <;> exact hnext

/-- A turn is taken only at a request that was sent. -/
theorem Accounts.sent_of_mem {moves : List Move} (h : e.Accounts (moves.filterMap Move.sent?))
    {ask : Ask} (hask : ask ∈ asks e.turns) : Move.send (.ask ask) ∈ moves := by
  obtain ⟨lost, heq, -⟩ := h
  have hsent : ask ∈ (moves.filterMap Move.sent?).filterMap e.stream.served? := by
    rw [← heq]
    exact List.mem_append_left _ (List.mem_append_left _ hask)
  obtain ⟨input, hinput, hserved⟩ := List.mem_filterMap.mp hsent
  obtain ⟨m, hm, hmove⟩ := List.mem_filterMap.mp hinput
  cases m with
  | send sent =>
      obtain rfl := Option.some.inj hmove
      cases sent with
      | ask asked =>
          obtain ⟨kind, -, heq⟩ := Option.map_eq_some_iff.mp hserved
          exact heq ▸ hm
      | failed => cases hserved
      | ended => cases hserved
  | _ => cases hmove

end moves

/-! ### What holds throughout -/

/-- The invariant of a stream whose session started so; `Good` is what it makes of a snapshot. -/
structure Sound (start : AnySession) (Good : AnySession → Snapshot → Prop) (e : Exchange) :
    Prop where
  hall : e.hall.Sound
  receiver : e.stream.receiver.protocol = e.stream.protocol
  listens : e.stream.isOpen = true → e.hall.listeners e.stream.protocol ≠ 0
  seen : e.stream.receiver.seen ≤ (e.hall.store.publication e.stream.protocol).sent
  /-- The turns tell of everything that was said. -/
  said : e.stream.outbox.filterMap Output.reply? = e.turns.flatMap (·.replies)
  session : ∃ s, Conversation e.stream.resolve? start e.turns s ∧
    (e.stream.isOpen = true → e.stream.session = s)
  ordered : ∀ t ∈ e.turns, t.snapshot.entries.Pairwise fun a b => compare a.name b.name = .lt
  sorted : e.turns.Pairwise fun a b => a.snapshot.version ≤ b.snapshot.version
  dated : ∀ t ∈ e.turns, t.snapshot.version ≤ e.view.version
  fresh : e.stream.isOpen = true → e.hall.store.hasNews e.stream.receiver = true ∨
    Good e.stream.session e.view

section sound
variable {start : AnySession} {Good : AnySession → Snapshot → Prop} {e f : Exchange}

theorem Sound.view_eq (h : Sound start Good e) :
    e.view = (e.hall.store.publication e.stream.protocol).current := by
  rw [view, ResourceStore.view, h.receiver]

theorem Sound.hasNews_eq (h : Sound start Good e) : e.hall.store.hasNews e.stream.receiver =
    (e.stream.receiver.seen != (e.hall.store.publication e.stream.protocol).sent) := by
  rw [ResourceStore.hasNews, h.receiver]

/-- What an open stream sees is the current snapshot of the store, and in order. -/
theorem Sound.snapshot_eq (h : Sound start Good e) (hopen : e.stream.isOpen = true) :
    e.hall.store.snapshot e.stream.protocol = (e.hall.store, e.view) := by
  rw [h.view_eq]
  exact (h.hall e.stream.protocol).snapshot_eq (h.listens hopen)

theorem Sound.view_ordered (h : Sound start Good e) :
    e.view.entries.Pairwise fun a b => compare a.name b.name = .lt := by
  rw [h.view_eq]
  exact (h.hall e.stream.protocol).ordered

/-- A turn is taken at the snapshot that is current then. -/
theorem Sound.turn_snapshot (h : Sound start Good e) {m : Move} (hm : e.step m = some f) :
    f.turns = e.turns ∨ ∃ t, f.turns = e.turns ++ [t] ∧
      t.snapshot = (e.hall.store.snapshot e.stream.protocol).2 := by
  rcases step_cases hm with ⟨hturns, -⟩ | ⟨hopen, after, cause, rfl, -⟩
  · exact Or.inl hturns
  · rw [h.snapshot_eq hopen]
    exact e.next_turns after cause

theorem listeners_of_allows {m : Hall.Move} (hallows : e.allows m = true)
    (hopen : e.stream.isOpen = true) (hlistens : e.hall.listeners e.stream.protocol ≠ 0) :
    (e.hall.step m).listeners e.stream.protocol ≠ 0 := by
  cases m with
  | write => exact hlistens
  | remove => exact hlistens
  | read => exact hlistens
  | join q =>
      by_cases hq : e.stream.protocol = q
      · subst hq
        simp [Hall.step]
      · simpa [Hall.step, Function.update_of_ne hq] using hlistens
  | leave r =>
      by_cases hr : e.stream.protocol = r.protocol
      · simp only [allows, hopen, hr, decide_true, Bool.and_self, if_true, ne_eq,
          decide_eq_true_eq] at hallows
        rw [hr] at hlistens ⊢
        simp only [Hall.step, Function.update_self]
        omega
      · simpa [Hall.step, Function.update_of_ne hr] using hlistens

theorem Sound.stepHall (h : Sound start Good e) {m : Hall.Move} (hallows : e.allows m = true) :
    Sound start Good { e with hall := e.hall.step m } := by
  obtain ⟨hhall, hlater⟩ := h.hall.step m
  have hlater := hlater e.stream.protocol
  have hview : ({ e with hall := e.hall.step m } : Exchange).view =
      ((e.hall.step m).store.publication e.stream.protocol).current := by
    rw [view, ResourceStore.view, h.receiver]
  exact {
    hall := hhall
    receiver := h.receiver
    listens := fun hopen => listeners_of_allows hallows hopen (h.listens hopen)
    seen := h.seen.trans hlater.sent_le
    said := h.said
    session := h.session
    ordered := h.ordered
    sorted := h.sorted
    dated := fun t ht => by
      rw [hview]
      exact (h.dated t ht).trans (h.view_eq ▸ hlater.version_le)
    fresh := fun hopen => by
      have hnews : (e.hall.step m).store.hasNews e.stream.receiver =
          (e.stream.receiver.seen !=
            ((e.hall.step m).store.publication e.stream.protocol).sent) := by
        rw [ResourceStore.hasNews, h.receiver]
      rw [hview]
      show (e.hall.step m).store.hasNews e.stream.receiver = true ∨ _
      rw [hnews]
      rcases hlater.news with ⟨hcurrent, hsent⟩ | hlt
      · rw [hcurrent, hsent, ← h.hasNews_eq, ← h.view_eq]
        exact h.fresh hopen
      · have hseen := h.seen
        refine Or.inl ?_
        rw [bne_iff_ne]
        omega }

/-- A stream on which nothing has happened that turns tell of. -/
theorem Sound.quiet (h : Sound start Good e) {after : Stream}
    (hprotocol : after.protocol = e.stream.protocol) (hscope : after.scope = e.stream.scope)
    (hreceiver : after.receiver = e.stream.receiver) (hopen : after.isOpen = e.stream.isOpen)
    (hsession : after.session = e.stream.session) (hsaid : after.outbox = e.stream.outbox) :
    Sound start Good { e with stream := after } := by
  have hresolve : after.resolve? = e.stream.resolve? := by
    funext typeUrl
    rw [Stream.resolve?, Stream.resolve?, hprotocol, hscope]
  have hview : ({ e with stream := after } : Exchange).view = e.view := by
    rw [view, view, hreceiver]
  exact {
    hall := h.hall
    receiver := by rw [hreceiver, hprotocol]; exact h.receiver
    listens := fun ho => by rw [hprotocol]; exact h.listens (hopen ▸ ho)
    seen := by rw [hreceiver, hprotocol]; exact h.seen
    said := by rw [hsaid]; exact h.said
    session := by rw [hresolve, hsession, hopen]; exact h.session
    ordered := h.ordered
    sorted := h.sorted
    dated := by rw [hview]; exact h.dated
    fresh := fun ho => by
      rw [hview, hreceiver, hsession]
      exact h.fresh (hopen ▸ ho) }

/-- A stream that ends stops listening, and its turns are what they were. -/
theorem Sound.ended (h : Sound start Good e) {after : Stream} (hended : e.stream.Ended after)
    (r : Receiver) (hreceiver : r.protocol = e.stream.protocol)
    (hseen : r.seen ≤ (e.hall.store.publication e.stream.protocol).sent) :
    Sound start Good { e with
      hall := e.hall.step (.leave r)
      stream := { after with receiver := r } } := by
  obtain ⟨hhall, hlater⟩ := h.hall.step (.leave r)
  have hlater := hlater e.stream.protocol
  have hresolve : ({ after with receiver := r } : Stream).resolve? = e.stream.resolve? := by
    funext typeUrl
    rw [Stream.resolve?, Stream.resolve?, hended.protocol, hended.scope]
  have hclosed : after.isOpen ≠ true := by rw [hended.isOpen]; exact Bool.false_ne_true
  obtain ⟨s, hs, -⟩ := h.session
  exact {
    hall := hhall
    receiver := hreceiver.trans hended.protocol.symm
    listens := fun hopen => absurd hopen hclosed
    seen := by
      rw [hended.protocol]
      exact hseen.trans hlater.sent_le
    said := hended.said.trans h.said
    session := ⟨s, hresolve ▸ hs, fun hopen => absurd hopen hclosed⟩
    ordered := h.ordered
    sorted := h.sorted
    dated := fun t ht => by
      refine (h.dated t ht).trans ?_
      rw [h.view_eq, view, ResourceStore.view, hreceiver]
      exact hlater.version_le
    fresh := fun hopen => absurd hopen hclosed }

/-- A stream that has taken a turn at the snapshot it saw. -/
theorem Sound.turned (h : Sound start Good e) {after : Stream} {cause : Cause}
    {replies : List Reply} (hprotocol : after.protocol = e.stream.protocol)
    (hscope : after.scope = e.stream.scope) (hlistens : e.hall.listeners e.stream.protocol ≠ 0)
    (hreceiver : after.receiver.protocol = e.stream.protocol)
    (hseen : after.receiver.seen ≤ (e.hall.store.publication e.stream.protocol).sent)
    (hsaid : after.outbox = e.stream.outbox ++ replies.map .reply)
    (hturn : Conversation e.stream.resolve? start (e.turns ++ [⟨cause, e.view, replies⟩])
      after.session)
    (hfresh : e.hall.store.hasNews after.receiver = true ∨ Good after.session e.view) :
    Sound start Good { e with
      stream := after
      turns := e.turns ++ [⟨cause, e.view, Stream.heard e.stream after⟩] } := by
  have hreply : (replies.map Output.reply).filterMap Output.reply? = replies :=
    filterMap_map_some (f := Output.reply) (g := Output.reply?) (fun _ => rfl) replies
  have hheard : Stream.heard e.stream after = replies := by
    rw [Stream.heard, hsaid, List.drop_left, hreply]
  have hresolve : after.resolve? = e.stream.resolve? := by
    funext typeUrl
    rw [Stream.resolve?, Stream.resolve?, hprotocol, hscope]
  have hview : ∀ turns, ({ e with stream := after, turns := turns } : Exchange).view = e.view := by
    intro turns
    rw [h.view_eq, view, ResourceStore.view, hreceiver]
  rw [hheard]
  exact {
    hall := h.hall
    receiver := hreceiver.trans hprotocol.symm
    listens := fun _ => hprotocol ▸ hlistens
    seen := hprotocol ▸ hseen
    said := by
      rw [hsaid, List.filterMap_append, h.said, hreply, List.flatMap_append, List.flatMap_cons,
        List.flatMap_nil, List.append_nil]
    session := ⟨after.session, hresolve ▸ hturn, fun _ => rfl⟩
    ordered := fun t ht => by
      rcases List.mem_append.mp ht with ht | ht
      · exact h.ordered t ht
      · obtain rfl := List.mem_singleton.mp ht
        exact h.view_ordered
    sorted := by
      refine List.pairwise_append.mpr ⟨h.sorted, List.pairwise_singleton _ _, ?_⟩
      intro t ht u hu
      obtain rfl := List.mem_singleton.mp hu
      exact h.dated t ht
    dated := fun t ht => by
      rw [hview]
      rcases List.mem_append.mp ht with ht | ht
      · exact h.dated t ht
      · obtain rfl := List.mem_singleton.mp ht
        exact le_refl _
    fresh := fun _ => by
      rw [hview]
      exact hfresh }

theorem Sound.takeInput (hsteady : Steady start Good) (h : Sound start Good e)
    {input : Input} {rest : List Input} (hopen : e.stream.isOpen = true) :
    Sound start Good (e.next ({ e.stream with inbox := rest }.takeInput e.view input)
      (e.stream.cause? input)) := by
  unfold next
  split
  · rename_i hstill
    obtain ⟨-, htaken⟩ := Stream.takeInput_cases hstill
    generalize ({ e.stream with inbox := rest } : Stream).takeInput e.view input = after at htaken ⊢
    cases htaken with
    | answered ask kind hkind =>
        have hkind : e.stream.resolve? ask.typeUrl = some kind := hkind
        obtain ⟨s, hs, hsession⟩ := h.session
        obtain rfl := hsession hopen
        rw [show e.stream.cause? (.ask ask) = some (.ask ask) by
          rw [Stream.cause?, hkind, Option.map_some]]
        exact h.turned rfl rfl (h.listens hopen) h.receiver h.seen rfl
          (.ask ask kind e.view _ hs hkind)
          ((h.fresh hopen).imp_right fun hgood => hsteady.ask _ ask kind _ _ hgood)
    | unserved ask hkind =>
        have hkind : e.stream.resolve? ask.typeUrl = none := hkind
        rw [show e.stream.cause? (.ask ask) = none by rw [Stream.cause?, hkind, Option.map_none]]
        simp only [Option.toList_none, List.map_nil, List.append_nil]
        exact h.quiet rfl rfl rfl rfl rfl rfl
  · rename_i hclosed
    have hended := Stream.takeInput_ended (s := { e.stream with inbox := rest }) hopen
      (Bool.eq_false_iff.mpr hclosed)
    refine h.ended ⟨hended.isOpen, hended.protocol, hended.scope, hended.receiver, hended.said⟩
      _ ?_ ?_
    · rw [hended.receiver]
      exact h.receiver
    · rw [hended.receiver]
      exact h.seen

theorem Sound.takeSnapshot (hsteady : Steady start Good)
    (h : Sound start Good e) (hopen : e.stream.isOpen = true) :
    Sound start Good (e.next { e.stream.takeSnapshot e.view with
      receiver := e.hall.store.acknowledge e.stream.receiver } (some .news)) := by
  unfold next
  split
  · rename_i hstill
    obtain ⟨-, htaken⟩ := Stream.takeSnapshot_of_open (s := e.stream) hstill
    obtain ⟨s, hs, hsession⟩ := h.session
    obtain rfl := hsession hopen
    rw [htaken]
    refine h.turned rfl rfl (h.listens hopen) h.receiver ?_ rfl (.news e.view _ hs)
      (Or.inr (hsteady.news _ _ _))
    rw [ResourceStore.acknowledge, h.receiver]
  · rename_i hclosed
    have hended := Stream.takeSnapshot_ended hopen (Bool.eq_false_iff.mpr hclosed)
    refine h.ended hended _ h.receiver ?_
    rw [ResourceStore.acknowledge, h.receiver]

theorem Sound.step (hsteady : Steady start Good) (h : Sound start Good e)
    {m : Move} (hm : e.step m = some f) : Sound start Good f := by
  cases m with
  | hall m =>
      simp only [Exchange.step] at hm
      split at hm
      · rename_i hallows
        obtain rfl := Option.some.inj hm
        exact h.stepHall hallows
      · cases hm
  | send input =>
      obtain rfl := Option.some.inj hm
      exact h.quiet rfl rfl rfl rfl rfl rfl
  | hangUp =>
      obtain rfl := Option.some.inj hm
      exact h.quiet rfl rfl rfl rfl rfl rfl
  | takeInput =>
      simp only [Exchange.step] at hm
      split at hm
      · rename_i hopen _
        obtain rfl := Option.some.inj hm
        exact h.takeInput hsteady hopen
      · cases hm
  | takeSnapshot =>
      simp only [Exchange.step] at hm
      split at hm
      · rename_i hready
        obtain rfl := Option.some.inj hm
        exact h.takeSnapshot hsteady (Bool.and_eq_true_iff.mp hready).1
      · cases hm
  | cancel =>
      simp only [Exchange.step] at hm
      split at hm
      · rename_i hopen
        obtain rfl := Option.some.inj hm
        have hended := Stream.close_ended hopen
        rw [next, if_neg (by rw [hended.isOpen]; exact Bool.false_ne_true)]
        refine h.ended hended _ ?_ ?_
        · rw [hended.receiver]
          exact h.receiver
        · rw [hended.receiver]
          exact h.seen
      · cases hm

theorem Sound.run (hsteady : Steady start Good) (h : Sound start Good e) {moves : List Move}
    (hrun : e.run moves = some f) : Sound start Good f := by
  induction moves generalizing e with
  | nil =>
      obtain rfl := Option.some.inj hrun
      exact h
  | cons m rest ih =>
      obtain ⟨e', hm, hrest⟩ := Option.bind_eq_some_iff.mp hrun
      exact ih (h.step hsteady hm) hrest

theorem opening_sound {hall : Hall} (hhall : hall.Sound) (method : Method) (protocol : Protocol)
    (scope : Scope) (serial : ℕ) (hsteady : Steady (.new method) Good) :
    Sound (.new method) Good (opening hall method protocol scope serial) := by
  obtain ⟨hjoined, hlater⟩ := hhall.step (.join protocol)
  exact {
    hall := hjoined
    receiver := rfl
    listens := fun _ => by
      show (hall.step (.join protocol)).listeners protocol ≠ 0
      simp [Hall.step]
    seen := (hlater protocol).sent_le
    said := rfl
    session := ⟨.new method, .opening, fun _ => rfl⟩
    ordered := fun t ht => absurd ht List.not_mem_nil
    sorted := .nil
    dated := fun t ht => absurd ht List.not_mem_nil
    fresh := fun _ => Or.inr (hsteady.opening _) }

end sound

/-! ### What turns tell -/

/-- The turns tell of the moves: they are taken at the requests that were sent, in order, and at
the snapshots that were current, which are in the order of the resource names and never go back;
and what has gone out are their replies. -/
structure Recorded (e : Exchange) (protocol : Protocol) (moves : List Move) : Prop where
  requests : e.Accounts (moves.filterMap Move.sent?)
  replies : e.stream.outbox.filterMap Output.reply? = e.turns.flatMap (·.replies)
  current : ∀ m f, e.step m = some f → f.turns = e.turns ∨
    ∃ t, f.turns = e.turns ++ [t] ∧ t.snapshot = (e.hall.store.snapshot protocol).2
  ordered : ∀ t ∈ e.turns, t.snapshot.entries.Pairwise fun a b => compare a.name b.name = .lt
  sorted : e.turns.Pairwise fun a b => a.snapshot.version ≤ b.snapshot.version

theorem recorded_of_run {hall : Hall} (hhall : hall.Sound) {method : Method} {protocol : Protocol}
    {scope : Scope} {serial : ℕ} {moves : List Move} {e : Exchange}
    (hrun : (opening hall method protocol scope serial).run moves = some e) :
    e.Recorded protocol moves := by
  have hsteady : Steady (.new method) fun _ _ => True :=
    ⟨fun _ => trivial, fun _ _ _ _ _ _ => trivial, fun _ _ _ => trivial⟩
  have hs := (opening_sound hhall method protocol scope serial hsteady).run hsteady hrun
  have hprotocol : e.stream.protocol = protocol := (run_frame hrun).1
  exact {
    requests := (opening_accounts hall method protocol scope serial).run hrun
    replies := hs.said
    current := fun m f hm => hprotocol ▸ hs.turn_snapshot hm
    ordered := hs.ordered
    sorted := hs.sorted }

/-- The types that an opened stream serves stay the same. -/
theorem resolve?_of_run {hall : Hall} {method : Method} {protocol : Protocol} {scope : Scope}
    {serial : ℕ} {moves : List Move} {e : Exchange}
    (hrun : (opening hall method protocol scope serial).run moves = some e) :
    e.stream.resolve? = fun typeUrl => (scope.resolve protocol typeUrl).toOption := by
  obtain ⟨hprotocol, hscope⟩ := run_frame hrun
  funext typeUrl
  rw [Stream.resolve?, hprotocol, hscope]
  rfl

/-! ### Listeners of one byte -/

def listenerUrl : String := "type.googleapis.com/envoy.config.listener.v3.Listener"

/-- A listener is stored under the name by which proxies know it. -/
def writeListener (name : String) (body : UInt8) : Hall.Move :=
  .write ⟨name⟩ ⟨name, "1"⟩ ⟨.listener, .v3, listenerUrl, name, [body]⟩

/-- What is served once listeners with these names are stored. -/
def listenersNamed (names : List String) : Snapshot :=
  (((names.map fun name => writeListener name 1).foldl Hall.step .empty).store.snapshot .v3).2

end Exchange

end ControlPlane.Discovery
