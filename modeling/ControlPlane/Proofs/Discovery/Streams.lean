import ControlPlane.Discovery.Stream
import Mathlib.Tactic

/-! # One input or snapshot at a time

What an open stream does with an input (`Stream.takeInput_cases`) and with a snapshot
(`Stream.takeSnapshot_of_open`) as long as it stays open, and what is left of it when it ends
(`Stream.Ended`). -/

namespace ControlPlane.Discovery

/-- What was put into a list and is looked for in it is found. -/
theorem filterMap_map_some {α β : Type} {f : α → β} {g : β → Option α}
    (h : ∀ a, g (f a) = some a) (l : List α) : (l.map f).filterMap g = l := by
  rw [List.filterMap_map, funext (f := g ∘ f) (g := some) h, List.filterMap_some]

def Output.reply? : Output → Option Reply
  | reply r => some r
  | refused _ | closed => none

namespace Stream

/-- The kind that a type URL stands for on the stream. -/
def resolve? (s : Stream) (typeUrl : String) : Option Kind :=
  (s.scope.resolve s.protocol typeUrl).toOption

/-! ### What is said -/

section emit
variable {s : Stream}

theorem emit_of_heard (hopen : s.isOpen = true) (hheard : s.isHeard = true) (out : Output) :
    s.emit out = { s with outbox := s.outbox ++ [out] } := by
  unfold emit
  simp [hopen, hheard]

/-- An output after which the stream is open has gone out. -/
theorem emit_of_open {out : Output} (h : (s.emit out).isOpen = true) :
    s.isOpen = true ∧ s.emit out = { s with outbox := s.outbox ++ [out] } := by
  have hopen : s.isOpen = true := by
    by_contra hclosed
    rw [Bool.not_eq_true] at hclosed
    simp [emit, hclosed] at h
  have hheard : s.isHeard = true := by
    by_contra hunheard
    rw [Bool.not_eq_true] at hunheard
    simp [emit, hopen, hunheard] at h
  exact ⟨hopen, emit_of_heard hopen hheard out⟩

theorem emitReplies_of_open (replies : List Reply) :
    ∀ {s : Stream}, (replies.foldl (fun s r => s.emit (.reply r)) s).isOpen = true →
      replies.foldl (fun s r => s.emit (.reply r)) s =
        { s with outbox := s.outbox ++ replies.map .reply } := by
  induction replies with
  | nil =>
      intro s _
      simp
  | cons r rest ih =>
      intro s h
      rw [List.foldl_cons] at h ⊢
      have hrest := ih h
      rw [hrest] at h ⊢
      obtain ⟨-, hfirst⟩ : s.isOpen = true ∧ s.emit (.reply r) = _ := emit_of_open h
      rw [hfirst]
      simp

end emit

/-! ### Single inputs and snapshots -/

/-- The stream after a request, its session having answered so. -/
def answered (s : Stream) (answer : AnySession × Option Reply) : Stream :=
  { s with
    session := answer.1
    issued := s.issued + 1
    outbox := s.outbox ++ answer.2.toList.map .reply }

/-- What an open stream does with an input, if it stays open. -/
inductive Taken (s : Stream) (snapshot : Snapshot) : Input → Stream → Prop
  | answered (ask : Ask) (kind : Kind) : s.resolve? ask.typeUrl = some kind →
      Taken s snapshot (.ask ask)
        (s.answered (s.session.onRequest kind ask snapshot (token s.serial s.issued)))
  | unserved (ask : Ask) : s.resolve? ask.typeUrl = none → Taken s snapshot (.ask ask) s

theorem takeInput_ask {s : Stream} {ask : Ask} {kind : Kind} (snapshot : Snapshot)
    (hopen : s.isOpen = true) (hkind : s.scope.resolve s.protocol ask.typeUrl = .ok kind) :
    let answer := s.session.onRequest kind ask snapshot (token s.serial s.issued)
    s.takeInput snapshot (.ask ask) = answer.2.toList.foldl (fun s r => s.emit (.reply r))
      { s with session := answer.1, issued := s.issued + 1 } := by
  intro answer
  unfold takeInput
  rw [if_neg (by simp [hopen])]
  simp only [hkind]
  cases (s.session.onRequest kind ask snapshot (token s.serial s.issued)).2 with
  | none => simp [answer]
  | some r => simp [answer]

theorem takeInput_cases {s : Stream} {snapshot : Snapshot} {input : Input}
    (h : (s.takeInput snapshot input).isOpen = true) :
    s.isOpen = true ∧ Taken s snapshot input (s.takeInput snapshot input) := by
  have hopen : s.isOpen = true := by
    by_contra hclosed
    rw [Bool.not_eq_true] at hclosed
    simp [takeInput, hclosed] at h
  refine ⟨hopen, ?_⟩
  have hclose : s.close.isOpen = false := by simp [close, hopen]
  cases input with
  | failed => simp [takeInput, hopen, hclose] at h
  | ended => simp [takeInput, hopen, hclose] at h
  | ask ask =>
      cases hresolve : s.scope.resolve s.protocol ask.typeUrl with
      | error e =>
          have hnone : s.resolve? ask.typeUrl = none := by
            rw [resolve?, hresolve]
            rfl
          by_cases hscope : s.scope = .aggregated
          · have hsame : s.takeInput snapshot (.ask ask) = s := by
              unfold takeInput
              rw [if_neg (by simp [hopen])]
              simp only [hresolve]
              exact if_pos hscope
            rw [hsame]
            exact .unserved ask hnone
          · simp [takeInput, hopen, hresolve, hscope] at h
      | ok kind =>
          have hsome : s.resolve? ask.typeUrl = some kind := by
            rw [resolve?, hresolve]
            rfl
          have hask := takeInput_ask snapshot hopen hresolve
          rw [hask] at h
          rw [hask, emitReplies_of_open _ h]
          exact .answered ask kind hsome

/-- The stream after a snapshot, its session having answered so. -/
def updated (s : Stream) (answer : AnySession × List Reply) : Stream :=
  { s with
    session := answer.1
    issued := s.issued + s.session.typeUrls.length
    outbox := s.outbox ++ answer.2.map .reply }

/-- What an open stream does with a snapshot, if it stays open. -/
theorem takeSnapshot_of_open {s : Stream} {snapshot : Snapshot}
    (h : (s.takeSnapshot snapshot).isOpen = true) :
    s.isOpen = true ∧ s.takeSnapshot snapshot = s.updated (s.session.onSnapshot snapshot
      fun typeUrl => token s.serial (s.issued + s.session.typeUrls.idxOf typeUrl)) := by
  have hopen : s.isOpen = true := by
    by_contra hclosed
    rw [Bool.not_eq_true] at hclosed
    simp [takeSnapshot, hclosed] at h
  refine ⟨hopen, ?_⟩
  unfold takeSnapshot at h ⊢
  rw [if_neg (by simp [hopen])] at h ⊢
  exact emitReplies_of_open _ h

/-! ### Ends of a stream -/

/-- A stream that has ended without another reply. -/
structure Ended (s after : Stream) : Prop where
  isOpen : after.isOpen = false
  protocol : after.protocol = s.protocol
  scope : after.scope = s.scope
  receiver : after.receiver = s.receiver
  said : after.outbox.filterMap Output.reply? = s.outbox.filterMap Output.reply?

/-- What an output leaves as it was. -/
theorem emit_frame (s : Stream) (out : Output) :
    (s.emit out).protocol = s.protocol ∧ (s.emit out).scope = s.scope ∧
      (s.emit out).receiver = s.receiver ∧ (s.emit out).inbox = s.inbox ∧
      (s.emit out).isHeard = s.isHeard := by
  unfold emit
  split
  · exact ⟨rfl, rfl, rfl, rfl, rfl⟩
  · split <;> exact ⟨rfl, rfl, rfl, rfl, rfl⟩

theorem emit_said {s : Stream} {out : Output} (h : out.reply? = none) :
    (s.emit out).outbox.filterMap Output.reply? = s.outbox.filterMap Output.reply? := by
  unfold emit
  split
  · rfl
  · split
    · rw [List.filterMap_append, List.filterMap_cons, h, List.filterMap_nil, List.append_nil]
    · rfl

theorem close_ended {s : Stream} (hopen : s.isOpen = true) : s.Ended s.close := by
  obtain ⟨hprotocol, hscope, hreceiver, -⟩ := s.emit_frame .closed
  unfold close
  rw [if_pos hopen]
  exact ⟨rfl, hprotocol, hscope, hreceiver, emit_said rfl⟩

/-- Replies that nobody takes. -/
theorem emitReplies_ended (replies : List Reply) :
    ∀ {s t : Stream}, t.isOpen = true →
      t.protocol = s.protocol → t.scope = s.scope → t.receiver = s.receiver →
      t.outbox = s.outbox → (replies.foldl (fun s r => s.emit (.reply r)) t).isOpen = false →
      s.Ended (replies.foldl (fun s r => s.emit (.reply r)) t) := by
  intro s t hopen hprotocol hscope hreceiver houtbox hclosed
  cases hheard : t.isHeard with
  | true =>
      -- then all replies are taken
      have hall : ∀ (replies : List Reply) (t : Stream), t.isOpen = true → t.isHeard = true →
          (replies.foldl (fun s r => s.emit (.reply r)) t).isOpen = true := by
        intro replies
        induction replies with
        | nil => exact fun t hopen _ => hopen
        | cons r rest ih =>
            intro t hopen hheard
            rw [List.foldl_cons, emit_of_heard hopen hheard]
            exact ih _ hopen hheard
      rw [hall replies t hopen hheard] at hclosed
      cases hclosed
  | false =>
      have hnone : ∀ (replies : List Reply) (t : Stream), t.isHeard = false →
          (replies.foldl (fun s r => s.emit (.reply r)) t).outbox = t.outbox ∧
          (replies.foldl (fun s r => s.emit (.reply r)) t).protocol = t.protocol ∧
          (replies.foldl (fun s r => s.emit (.reply r)) t).scope = t.scope ∧
          (replies.foldl (fun s r => s.emit (.reply r)) t).receiver = t.receiver := by
        intro replies
        induction replies with
        | nil => exact fun t _ => ⟨rfl, rfl, rfl, rfl⟩
        | cons r rest ih =>
            intro t hheard
            obtain ⟨hprotocol, hscope, hreceiver, -, hstill⟩ := t.emit_frame (.reply r)
            obtain ⟨h1, h2, h3, h4⟩ := ih (t.emit (.reply r)) (hstill.trans hheard)
            have houtbox : (t.emit (.reply r)).outbox = t.outbox := by
              unfold emit
              rw [hheard]
              split <;> rfl
            exact ⟨h1.trans houtbox, h2.trans hprotocol, h3.trans hscope, h4.trans hreceiver⟩
      obtain ⟨h1, h2, h3, h4⟩ := hnone replies t hheard
      exact ⟨hclosed, h2.trans hprotocol, h3.trans hscope, h4.trans hreceiver,
        by rw [h1, houtbox]⟩

theorem takeInput_ended {s : Stream} {snapshot : Snapshot} {input : Input}
    (hopen : s.isOpen = true) (h : (s.takeInput snapshot input).isOpen = false) :
    s.Ended (s.takeInput snapshot input) := by
  have hinput : ∀ out : Stream, s.takeInput snapshot input = out → s.Ended out →
      s.Ended (s.takeInput snapshot input) := fun out heq hout => heq ▸ hout
  cases input with
  | failed => exact hinput s.close (by simp [takeInput, hopen]) (close_ended hopen)
  | ended => exact hinput s.close (by simp [takeInput, hopen]) (close_ended hopen)
  | ask ask =>
      cases hresolve : s.scope.resolve s.protocol ask.typeUrl with
      | error e =>
          unfold takeInput at h ⊢
          rw [if_neg (by simp [hopen])] at h ⊢
          simp only [hresolve] at h ⊢
          split at h
          · rw [hopen] at h
            cases h
          · rename_i hscope
            obtain ⟨hprotocol, hsame, hreceiver, -⟩ := s.emit_frame (.refused e)
            rw [if_neg hscope]
            exact ⟨rfl, hprotocol, hsame, hreceiver, emit_said rfl⟩
      | ok kind =>
          have hask := takeInput_ask snapshot hopen hresolve
          rw [hask] at h ⊢
          exact emitReplies_ended _ hopen rfl rfl rfl rfl h

theorem takeSnapshot_ended {s : Stream} {snapshot : Snapshot} (hopen : s.isOpen = true)
    (h : (s.takeSnapshot snapshot).isOpen = false) : s.Ended (s.takeSnapshot snapshot) := by
  unfold takeSnapshot at h ⊢
  rw [if_neg (by simp [hopen])] at h ⊢
  exact emitReplies_ended _ hopen rfl rfl rfl rfl h

/-! ### What a stream keeps -/

theorem takeInput_frame {s : Stream} (hopen : s.isOpen = true) (snapshot : Snapshot)
    (input : Input) : (s.takeInput snapshot input).protocol = s.protocol ∧
      (s.takeInput snapshot input).scope = s.scope := by
  cases h : (s.takeInput snapshot input).isOpen with
  | false => exact ⟨(takeInput_ended hopen h).protocol, (takeInput_ended hopen h).scope⟩
  | true =>
      obtain ⟨-, htaken⟩ := takeInput_cases h
      generalize s.takeInput snapshot input = after at htaken ⊢
      cases htaken <;> exact ⟨rfl, rfl⟩

theorem takeSnapshot_frame {s : Stream} (hopen : s.isOpen = true) (snapshot : Snapshot) :
    (s.takeSnapshot snapshot).protocol = s.protocol ∧
      (s.takeSnapshot snapshot).scope = s.scope := by
  cases h : (s.takeSnapshot snapshot).isOpen with
  | false => exact ⟨(takeSnapshot_ended hopen h).protocol, (takeSnapshot_ended hopen h).scope⟩
  | true =>
      rw [(takeSnapshot_of_open h).2]
      exact ⟨rfl, rfl⟩

/-- Nothing that waits is touched by what goes out. -/
theorem emitReplies_inbox (replies : List Reply) :
    ∀ s : Stream, (replies.foldl (fun s r => s.emit (.reply r)) s).inbox = s.inbox := by
  induction replies with
  | nil => exact fun _ => rfl
  | cons r rest ih =>
      intro s
      obtain ⟨-, -, -, hinbox, -⟩ := s.emit_frame (.reply r)
      exact (ih _).trans hinbox

theorem close_inbox (s : Stream) : s.close.inbox = s.inbox := by
  obtain ⟨-, -, -, hinbox, -⟩ := s.emit_frame .closed
  unfold close
  split
  · exact hinbox
  · rfl

theorem takeInput_inbox (s : Stream) (snapshot : Snapshot) (input : Input) :
    (s.takeInput snapshot input).inbox = s.inbox := by
  cases hopen : s.isOpen with
  | false => simp [takeInput, hopen]
  | true =>
      cases input with
      | failed => simp [takeInput, hopen, close_inbox]
      | ended => simp [takeInput, hopen, close_inbox]
      | ask ask =>
          cases hresolve : s.scope.resolve s.protocol ask.typeUrl with
          | error e =>
              obtain ⟨-, -, -, hinbox, -⟩ := s.emit_frame (.refused e)
              unfold takeInput
              rw [if_neg (by simp [hopen])]
              simp only [hresolve]
              split
              · rfl
              · exact hinbox
          | ok kind =>
              rw [takeInput_ask snapshot hopen hresolve]
              exact emitReplies_inbox _ _

theorem takeSnapshot_inbox (s : Stream) (snapshot : Snapshot) :
    (s.takeSnapshot snapshot).inbox = s.inbox := by
  unfold takeSnapshot
  split
  · rfl
  · exact emitReplies_inbox _ _

end Stream

end ControlPlane.Discovery
