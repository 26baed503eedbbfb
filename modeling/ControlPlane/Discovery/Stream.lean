import ControlPlane.Discovery.Incremental
import ControlPlane.Discovery.Scope
import ControlPlane.Discovery.StateOfTheWorld
import ControlPlane.Store.Resources

/-!
# Streams

A stream joins a session to the requests of one proxy on one side and to the snapshots of the
resource store on the other. It ends when its requests end or fail, when it refuses a request,
when it is cancelled, or when a response finds nobody to take it.
-/

namespace ControlPlane

/-- Hexadecimal digits, with zeros in front up to a width. -/
def hexPadded (width n : Nat) : List Char :=
  let digits := Nat.toDigits 16 n
  List.replicate (width - digits.length) '0' ++ digits

/-- A text in the shape of a UUID that stands for nothing but itself: the nonce of a response, or the
identity of an object. It is told from all others by its series and its place in the series. -/
def token (series index : Nat) : String :=
  String.ofList (hexPadded 8 series ++ "-0000-4000-8000-".toList ++ hexPadded 12 index)

namespace Discovery

/-- A request of either kind of session. -/
inductive Ask where
  | whole (request : Request)
  | delta (request : Incremental.Request)

def Ask.typeUrl : Ask → String
  | whole r => r.typeUrl
  | delta r => r.typeUrl

/-- A response of either kind of session. -/
inductive Reply where
  | whole (response : Response)
  | delta (response : Incremental.Response)
  deriving DecidableEq, Repr

inductive AnySession where
  | whole (session : Session)
  | delta (session : Incremental.Session)

namespace AnySession

/-- The session for a method; what is fetched once needs none of its own. -/
def new : Method → AnySession
  | .stream | .fetch => whole .new
  | .delta => delta .new

def onRequest (s : AnySession) (kind : Kind) (ask : Ask) (snapshot : Snapshot) (nonce : String) :
    AnySession × Option Reply :=
  match s, ask with
  | whole session, .whole request =>
    let (session, response) := session.onRequest kind request snapshot nonce
    (whole session, response.map .whole)
  | delta session, .delta request =>
    let (session, response) := session.onRequest kind request snapshot nonce
    (delta session, response.map .delta)
  | s, _ => (s, none)

def onSnapshot (s : AnySession) (snapshot : Snapshot) (nonce : String → String) :
    AnySession × List Reply :=
  match s with
  | whole session =>
    let (session, responses) := session.onSnapshot snapshot nonce
    (whole session, responses.map .whole)
  | delta session =>
    let (session, responses) := session.onSnapshot snapshot nonce
    (delta session, responses.map .delta)

/-- The types subscribed to, in order. -/
def typeUrls : AnySession → List String
  | whole session => session.subscriptions.keys
  | delta session => session.subscriptions.keys

end AnySession

/-- What comes in on the side of the requests. -/
inductive Input where
  | ask (ask : Ask)
  | failed
  | ended

/-- What goes out on the side of the responses. -/
inductive Output where
  | reply (reply : Reply)
  | refused (error : CallError)
  | closed
  deriving DecidableEq, Repr

structure Stream where
  protocol : Protocol
  scope : Scope
  session : AnySession
  receiver : Receiver
  /-- Tells the stream's nonces from those of other streams. -/
  serial : Nat
  /-- How many nonces were set aside. -/
  issued : Nat
  isOpen : Bool
  /-- Whether somebody takes the responses. -/
  isHeard : Bool
  /-- What has come in and is not taken up yet. -/
  inbox : List Input
  /-- What went out and is not collected yet. -/
  outbox : List Output

namespace Stream

/-- A new stream, and the store that it listens to. -/
def start (method : Method) (protocol : Protocol) (scope : Scope) (serial : Nat)
    (store : ResourceStore) : Stream × ResourceStore :=
  let (store, receiver) := store.subscribe protocol
  (⟨protocol, scope, .new method, receiver, serial, 0, true, true, [], []⟩, store)

/-- Sends one output; if nobody takes it the stream ends. -/
def emit (s : Stream) (out : Output) : Stream :=
  if !s.isOpen then s
  else if s.isHeard then { s with outbox := s.outbox ++ [out] }
  else { s with isOpen := false }

/-- Ends the stream without a refusal. -/
def close (s : Stream) : Stream :=
  if s.isOpen then { s.emit .closed with isOpen := false } else s

def takeInput (s : Stream) (snapshot : Snapshot) (input : Input) : Stream :=
  if !s.isOpen then s
  else match input with
  | .failed | .ended => s.close
  | .ask ask =>
    match s.scope.resolve s.protocol ask.typeUrl with
    | .error e =>
      if s.scope = .aggregated then s
      else { s.emit (.refused e) with isOpen := false }
    | .ok kind =>
      let (session, reply) :=
        s.session.onRequest kind ask snapshot (token s.serial s.issued)
      let s := { s with session := session, issued := s.issued + 1 }
      match reply with
      | none => s
      | some r => s.emit (.reply r)

/-- Takes up all that has come in. -/
def takeInputs (s : Stream) (snapshot : Snapshot) : Stream :=
  s.inbox.foldl (fun s input => s.takeInput snapshot input) { s with inbox := [] }

/-- Takes up a snapshot. -/
def takeSnapshot (s : Stream) (snapshot : Snapshot) : Stream :=
  if !s.isOpen then s
  else
    let types := s.session.typeUrls
    let (session, replies) :=
      s.session.onSnapshot snapshot fun typeUrl =>
        token s.serial (s.issued + types.idxOf typeUrl)
    let s := { s with session := session, issued := s.issued + types.length }
    replies.foldl (fun s r => s.emit (.reply r)) s

/-- Whether there is something for the stream to take up. -/
def isReady (s : Stream) (store : ResourceStore) : Bool :=
  s.isOpen && (!s.inbox.isEmpty || store.hasNews s.receiver)

/-- Takes up what has come in and the newest snapshot. A stream that ends stops listening. -/
def advance (s : Stream) (store : ResourceStore) : Stream × ResourceStore :=
  let s := s.takeInputs (store.view s.receiver)
  let s :=
    if s.isOpen && store.hasNews s.receiver then
      { s.takeSnapshot (store.view s.receiver) with receiver := store.acknowledge s.receiver }
    else s
  if s.isOpen then (s, store) else (s, store.unsubscribe s.receiver)

end Stream

/-- Answers a single request with the current snapshot. -/
def fetch (store : ResourceStore) (protocol : Protocol) (scope : Scope) (request : Request)
    (nonce : String) : ResourceStore × Except CallError Response :=
  match scope.resolve protocol request.typeUrl with
  | .error e => (store, .error e)
  | .ok kind =>
    let (store, snapshot) := store.snapshot protocol
    (store, .ok (Response.build snapshot kind request.typeUrl request.names nonce))

end Discovery

end ControlPlane
