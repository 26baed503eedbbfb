import ControlPlane.Proofs.Discovery.Incremental

/-! # What a proxy has asked for

The requests for a type add and drop names, the wildcard among them (`interest`), and for each name
it is the last word on it that counts (`interest_eq`).  A session follows the requests that are no
rejections (`Session.Hears`): a rejection is passed over with the names in it.  So what a session
wants is what all requests together ask for exactly if each rejection says of a name only what held
anyway, or a later request has a word on it (`interest_of_requests`). -/

namespace ControlPlane.Discovery.Incremental

/-! ### Requests -/

namespace Request

/-- What is asked for before the first request.  One that names no resources is for all. -/
def start (r : Request) : String → Bool := fun name => name = wildcard && r.subscribe.isEmpty

/-- The names to subscribe to are added, then those to unsubscribe from are dropped. -/
def ask (asks : String → Bool) (r : Request) : String → Bool :=
  r.unsubscribe.foldl (fun f name => Function.update f name false)
    (r.subscribe.foldl (fun f name => Function.update f name true) asks)

/-- What the request says of a name, if it says anything. -/
def word? (r : Request) (name : String) : Option Bool :=
  if name ∈ r.unsubscribe then some false else if name ∈ r.subscribe then some true else none

end Request

/-- What these requests ask for, one after the other. -/
def interest (requests : List Request) : String → Bool :=
  requests.foldl Request.ask (requests.head?.elim (fun _ => false) Request.start)

/-- The last word on a name. -/
def lastWord? (requests : List Request) (name : String) : Option Bool :=
  (requests.filterMap fun r => r.word? name).getLast?

/-- The requests for a type, in order. -/
def requestsFor (typeUrl : String) (turns : List Turn) : List Request :=
  turns.filterMap (requestFor? typeUrl)

/-- The requests that are no rejections. -/
def accepted (requests : List Request) : List Request := requests.filter fun r => !r.isRejection

section requests
variable {requests : List Request} {first r : Request} {asks : String → Bool} {name : String}

theorem foldl_update (names : List String) (asks : String → Bool) (b : Bool) (name : String) :
    names.foldl (fun f n => Function.update f n b) asks name =
      if name ∈ names then b else asks name := by
  induction names generalizing asks with
  | nil => simp
  | cons n rest ih =>
      rw [List.foldl_cons, ih, Function.update_apply]
      by_cases hrest : name ∈ rest
      · simp [hrest]
      · simp [hrest]

theorem Request.ask_eq : r.ask asks name = (r.word? name).getD (asks name) := by
  unfold Request.ask Request.word?
  rw [foldl_update, foldl_update]
  split
  · rfl
  · split <;> rfl

theorem interest_snoc (h : requests ≠ []) :
    interest (requests ++ [r]) = r.ask (interest requests) := by
  unfold interest
  rw [List.foldl_append, List.head?_append_of_ne_nil _ h]
  rfl

theorem lastWord?_append (l l' : List Request) (name : String) :
    lastWord? (l ++ l') name = (lastWord? l' name).or (lastWord? l name) := by
  unfold lastWord?
  rw [List.filterMap_append, List.getLast?_append]

theorem lastWord?_singleton : lastWord? [r] name = r.word? name := by
  unfold lastWord?
  cases h : r.word? name <;> simp [h]

/-- The last word on a name counts. -/
theorem interest_eq (h : requests.head? = some first) (name : String) :
    interest requests name = (lastWord? requests name).getD (first.start name) := by
  obtain ⟨rest, rfl⟩ := List.head?_eq_some_iff.mp h
  induction rest using List.reverseRecOn with
  | nil =>
      rw [lastWord?_singleton, ← Request.ask_eq]
      rfl
  | append_singleton rest r ih =>
      rw [← List.cons_append, interest_snoc (List.cons_ne_nil _ _), Request.ask_eq, ih rfl,
        lastWord?_append, lastWord?_singleton]
      cases r.word? name <;> rfl

theorem exists_lastWord {word : Bool} (h : lastWord? requests name = some word) :
    ∃ earlier r later, requests = earlier ++ r :: later ∧ r.word? name = some word ∧
      lastWord? later name = none := by
  induction requests using List.reverseRecOn with
  | nil => cases h
  | append_singleton before r ih =>
      rw [lastWord?_append, lastWord?_singleton] at h
      cases hword : r.word? name with
      | some w =>
          rw [hword, Option.some_or] at h
          exact ⟨before, r, [], rfl, hword.trans h, rfl⟩
      | none =>
          rw [hword, Option.none_or] at h
          obtain ⟨earlier, r', later, rfl, hr', hlater⟩ := ih h
          refine ⟨earlier, r', later ++ [r], by simp, hr', ?_⟩
          rw [lastWord?_append, lastWord?_singleton, hword, hlater]
          rfl

/-- A word stands until there is another. -/
theorem lastWord?_split {earlier later : List Request} (h : lastWord? later name = none) :
    lastWord? (earlier ++ r :: later) name = (r.word? name).or (lastWord? earlier name) := by
  rw [List.append_cons, lastWord?_append, h, Option.none_or, lastWord?_append,
    lastWord?_singleton]

/-! ### Requests without the rejections -/

theorem accepted_nil : accepted [] = [] := rfl

theorem accepted_append (l l' : List Request) : accepted (l ++ l') = accepted l ++ accepted l' :=
  List.filter_append l l'

theorem accepted_cons_of_rejection (h : r.isRejection = true) :
    accepted (r :: requests) = accepted requests := by
  simp [accepted, h]

theorem accepted_cons (h : r.isRejection = false) :
    accepted (r :: requests) = r :: accepted requests := by
  simp [accepted, h]

theorem head?_accepted (h : requests.head? = some first) (hfirst : first.isRejection = false) :
    (accepted requests).head? = some first := by
  obtain ⟨rest, rfl⟩ := List.head?_eq_some_iff.mp h
  rw [accepted_cons hfirst, List.head?_cons]

theorem lastWord?_accepted_of_none (h : lastWord? requests name = none) :
    lastWord? (accepted requests) name = none := by
  unfold lastWord? at h ⊢
  rw [List.getLast?_eq_none_iff, List.filterMap_eq_nil_iff] at h ⊢
  exact fun r hr => h r (List.mem_of_mem_filter hr)

/-- The first request comes before the rejections. -/
theorem head?_of_rejection {earlier later : List Request} (h : requests.head? = some first)
    (hfirst : first.isRejection = false) (hsplit : requests = earlier ++ r :: later)
    (hrejection : r.isRejection = true) : earlier.head? = some first := by
  subst hsplit
  cases earlier with
  | nil =>
      obtain rfl := Option.some.inj h
      rw [hfirst] at hrejection
      cases hrejection
  | cons _ _ => exact h

/-- The last words of the requests that are no rejections, where a rejection has the last word. -/
theorem lastWord?_accepted_of_rejection {earlier later : List Request}
    (hrejection : r.isRejection = true) (hlater : lastWord? later name = none) :
    lastWord? (accepted (earlier ++ r :: later)) name = lastWord? (accepted earlier) name := by
  rw [accepted_append, accepted_cons_of_rejection hrejection, lastWord?_append,
    lastWord?_accepted_of_none hlater, Option.none_or]

/-- The rejections change nothing of what is asked for if each of them says of a name only what held
without it, or a later request has a word on it, and only then. -/
theorem interest_accepted_eq_iff (h : requests.head? = some first)
    (hfirst : first.isRejection = false) :
    interest (accepted requests) = interest requests ↔
      ∀ earlier r later, requests = earlier ++ r :: later → r.isRejection = true →
        ∀ name word, r.word? name = some word → lastWord? later name = none →
          interest (accepted earlier) name = word := by
  constructor
  · intro heq earlier r later hsplit hrejection name word hword hlater
    have hearlier := head?_of_rejection h hfirst hsplit hrejection
    have hall := congrFun heq name
    rw [interest_eq (head?_accepted h hfirst), interest_eq h, hsplit,
      lastWord?_accepted_of_rejection hrejection hlater, lastWord?_split hlater, hword] at hall
    rw [interest_eq (head?_accepted hearlier hfirst), hall]
    rfl
  · intro hrejections
    funext name
    rw [interest_eq (head?_accepted h hfirst), interest_eq h]
    cases hlast : lastWord? requests name with
    | none => rw [lastWord?_accepted_of_none hlast]
    | some word =>
        obtain ⟨earlier, r, later, hsplit, hword, hlater⟩ := exists_lastWord hlast
        cases hrejection : r.isRejection with
        | true =>
            have hearlier := head?_of_rejection h hfirst hsplit hrejection
            have hheld := hrejections earlier r later hsplit hrejection name word hword hlater
            rw [interest_eq (head?_accepted hearlier hfirst)] at hheld
            rw [hsplit, lastWord?_accepted_of_rejection hrejection hlater, hheld]
            rfl
        | false =>
            rw [hsplit, accepted_append, accepted_cons hrejection,
              lastWord?_split (lastWord?_accepted_of_none hlater), hword]
            rfl

end requests

/-! ### Subscriptions -/

section interests
variable {s : Subscription} {asks asks' : String → Bool}

theorem Interests.ask (h : Interests s asks) (r : Request) :
    Interests (s.applyInterest r) (r.ask asks) := by
  refine cast (congrArg (Interests _) (funext fun name => ?_))
    ((h.addAll r.subscribe).dropAll r.unsubscribe)
  rw [Request.ask_eq, Request.word?]
  by_cases hdrop : name ∈ r.unsubscribe
  · simp [hdrop]
  · by_cases hadd : name ∈ r.subscribe <;> simp [hdrop, hadd]

theorem Interests.respond (h : Interests s asks) (typeUrl : String) (snapshot : Snapshot)
    (nonce : String) (always : Bool) :
    Interests (s.respond typeUrl snapshot nonce always).1 asks := by
  rw [respond_fst]
  exact ⟨h.isWildcard, h.names⟩

/-- A subscription tells what was asked for. -/
theorem Interests.unique (h : Interests s asks) (h' : Interests s asks') : asks = asks' := by
  funext name
  by_cases hname : name = wildcard
  · rw [hname, ← h.isWildcard, ← h'.isWildcard]
  · have hiff := (h.names name).symm.trans (h'.names name)
    rw [Bool.eq_iff_iff]
    simpa only [ne_eq, hname, not_false_eq_true, true_and] using hiff

end interests

/-! ### Sessions -/

/-- What is known of a type that these requests were heard for. -/
inductive Heard : List Request → Option Subscription → Prop
  | nothing : Heard [] none
  | something (requests : List Request) (s : Subscription) : requests ≠ [] →
      Interests s (interest requests) → Heard requests (some s)

section heard
variable {requests : List Request} {known : Option Subscription} {r : Request}

theorem Heard.ask (h : Heard requests known) (kind : Kind) (r : Request) :
    Interests ((known.getD (.new kind r)).applyInterest r) (interest (requests ++ [r])) := by
  cases h with
  | nothing => exact (follows_new kind r).interests.ask r
  | something _ s hne hs =>
      rw [interest_snoc hne]
      exact hs.ask r

/-- A request without names is heard with nothing to do. -/
theorem Heard.pass (h : Heard requests known) (hknown : known ≠ none)
    (hsubscribe : r.subscribe = []) (hunsubscribe : r.unsubscribe = []) :
    Heard (requests ++ [r]) known := by
  cases h with
  | nothing => exact absurd rfl hknown
  | something _ s hne hs =>
      refine .something _ s (by simp) ?_
      rw [interest_snoc hne]
      have hsame := hs.ask r
      rwa [(ask_of_nil hsubscribe hunsubscribe (.new r) s).2] at hsame

theorem Heard.interests {first : Request} (h : Heard requests known)
    (hhead : requests.head? = some first) :
    ∃ s, known = some s ∧ Interests s (interest requests) := by
  cases h with
  | nothing => cases hhead
  | something _ s _ hs => exact ⟨s, rfl, hs⟩

end heard

section session
variable {resolve : String → Option Kind} {turns : List Turn} {session : Session}

/-- Of each type the session knows what the requests ask for that are no rejections. -/
def Session.Hears (session : Session) (turns : List Turn) : Prop :=
  ∀ typeUrl, Heard (accepted (requestsFor typeUrl turns)) (session.subscriptions.get? typeUrl)

theorem requestsFor_snoc (typeUrl : String) (turns : List Turn) (t : Turn) :
    requestsFor typeUrl (turns ++ [t]) =
      requestsFor typeUrl turns ++ (requestFor? typeUrl t).toList := by
  unfold requestsFor
  rw [List.filterMap_append]
  cases h : requestFor? typeUrl t <;> simp [h]

theorem Session.Hears.ask (h : session.Hears turns) (kind : Kind) (r : Request)
    (snapshot : Snapshot) (nonce : String) :
    (session.onRequest kind r snapshot nonce).1.Hears
      (turns ++ [session.askTurn kind r snapshot nonce]) := by
  intro typeUrl
  have hrequest : requestFor? typeUrl (session.askTurn kind r snapshot nonce) =
      if r.typeUrl = typeUrl then some r else none := rfl
  rw [requestsFor_snoc, hrequest, accepted_append]
  by_cases htype : r.typeUrl = typeUrl
  · subst htype
    rw [if_pos rfl, Option.toList_some]
    rcases session.onRequest_cases kind r snapshot nonce with ⟨-, hsame, hquiet⟩ | ⟨hno, heq⟩
    · rw [hsame]
      cases hrejection : r.isRejection with
      | true =>
          rw [accepted_cons_of_rejection hrejection, accepted_nil, List.append_nil]
          exact h r.typeUrl
      | false =>
          obtain ⟨hknown, hsubscribe, hunsubscribe⟩ :=
            hquiet.resolve_left (by simp [hrejection])
          rw [accepted_cons hrejection]
          exact (h r.typeUrl).pass hknown hsubscribe hunsubscribe
    · rw [heq, accepted_cons hno]
      dsimp only
      rw [Catalog.get?_insert_self]
      exact .something _ _ (by simp) (((h r.typeUrl).ask kind r).respond _ _ _ _)
  · rw [if_neg htype, Option.toList_none, accepted_nil, List.append_nil]
    rcases session.onRequest_cases kind r snapshot nonce with ⟨-, hsame, -⟩ | ⟨-, heq⟩
    · rw [hsame]
      exact h typeUrl
    · rw [heq]
      dsimp only
      rw [Catalog.get?_insert_of_ne _ _ (Ne.symm htype)]
      exact h typeUrl

theorem Session.Hears.news (h : session.Hears turns) (snapshot : Snapshot)
    (nonce : String → String) :
    (session.onSnapshot snapshot nonce).1.Hears (turns ++ [session.newsTurn snapshot nonce]) := by
  intro typeUrl
  have hnone : requestFor? typeUrl (session.newsTurn snapshot nonce) = none := rfl
  rw [requestsFor_snoc, hnone, Option.toList_none, List.append_nil, session.onSnapshot_get?]
  have hknown := h typeUrl
  generalize session.subscriptions.get? typeUrl = known at hknown ⊢
  generalize accepted (requestsFor typeUrl turns) = requests at hknown ⊢
  cases hknown with
  | nothing => exact .nothing
  | something _ s hne hs => exact .something _ _ hne (hs.respond _ _ _ _)

theorem hears_conversation {s : AnySession} (h : Conversation resolve (.delta .new) turns s) :
    ∃ session, s = .delta session ∧ session.Hears turns := by
  induction h with
  | opening => exact ⟨.new, rfl, fun _ => .nothing⟩
  | ask ask kind snapshot nonce _ _ ih =>
      obtain ⟨session, rfl, hhears⟩ := ih
      cases ask with
      | delta r => exact ⟨_, rfl, hhears.ask kind r snapshot nonce⟩
      | whole r =>
          refine ⟨session, rfl, fun typeUrl => ?_⟩
          rw [requestsFor_snoc, show requestFor? typeUrl _ = none from rfl, Option.toList_none,
            List.append_nil]
          exact hhears typeUrl
  | news snapshot nonce _ ih =>
      obtain ⟨session, rfl, hhears⟩ := ih
      exact ⟨_, rfl, hhears.news snapshot nonce⟩

/-- After any requests and snapshots, the first request for a type being no rejection: the session
wants what the requests for the type ask for that are no rejections, one after the other.  This is
what all of them together ask for exactly if each rejection says of a name only what held without
it, or a later request has a word on the name. -/
theorem interest_of_requests (h : Conversation resolve (.delta .new) turns (.delta session))
    {typeUrl : String} {first : Request} (hhead : (requestsFor typeUrl turns).head? = some first)
    (hfirst : first.isRejection = false) :
    ∃ s, session.subscriptions.get? typeUrl = some s ∧
      Interests s (interest (accepted (requestsFor typeUrl turns))) ∧
      (Interests s (interest (requestsFor typeUrl turns)) ↔
        ∀ earlier r later, requestsFor typeUrl turns = earlier ++ r :: later →
          r.isRejection = true → ∀ name word, r.word? name = some word →
            lastWord? later name = none → interest (accepted earlier) name = word) := by
  obtain ⟨_, heq, hhears⟩ := hears_conversation h
  obtain rfl := AnySession.delta.inj heq
  obtain ⟨s, hs, hinterests⟩ := (hhears typeUrl).interests (head?_accepted hhead hfirst)
  refine ⟨s, hs, hinterests, ?_⟩
  rw [← interest_accepted_eq_iff hhead hfirst]
  exact ⟨fun hall => hinterests.unique hall, fun hsame => hsame ▸ hinterests⟩

end session

/-! ### A rejection that has names in it -/

section refusing
open Exchange (listenerUrl listenersNamed)

/-- The proxy asks for listener "b" and is sent it; it rejects it and subscribes to these names with
the rejection. -/
def refusing (names : List String) : List Turn × Session :=
  let shown := listenersNamed ["b"]
  let first : Request := ⟨listenerUrl, ["b"], [], ∅, "", false⟩
  let second : Request := ⟨listenerUrl, names, [], ∅, "0", true⟩
  let asked := (Session.new.onRequest .listener first shown "0").1
  ([Session.new.askTurn .listener first shown "0", asked.askTurn .listener second shown "1"],
    (asked.onRequest .listener second shown "1").1)

theorem refusing_conversation (names : List String) :
    Conversation (fun _ => some .listener) (.delta .new) (refusing names).1
      (.delta (refusing names).2) :=
  .ask (.delta ⟨listenerUrl, names, [], ∅, "0", true⟩) .listener (listenersNamed ["b"]) "1"
    (.ask (.delta ⟨listenerUrl, ["b"], [], ∅, "", false⟩) .listener (listenersNamed ["b"]) "0"
      .opening rfl) rfl

/-- A rejection that asks again for what was asked for loses nothing. -/
theorem interest_after_repetition :
    Conversation (fun _ => some .listener) (.delta .new) (refusing ["b"]).1
      (.delta (refusing ["b"]).2) ∧
    ∃ s, (refusing ["b"]).2.subscriptions.get? listenerUrl = some s ∧
      Interests s (interest (requestsFor listenerUrl (refusing ["b"]).1)) := by
  refine ⟨refusing_conversation _, ?_⟩
  have hrequests : requestsFor listenerUrl (refusing ["b"]).1 =
      [⟨listenerUrl, ["b"], [], ∅, "", false⟩, ⟨listenerUrl, ["b"], [], ∅, "0", true⟩] := rfl
  obtain ⟨s, hs, -, hiff⟩ := interest_of_requests (refusing_conversation ["b"])
    (congrArg List.head? hrequests) rfl
  refine ⟨s, hs, hiff.mpr fun earlier r later hsplit hrejection name word hword _ => ?_⟩
  rw [hrequests] at hsplit
  match earlier, hsplit with
  | [], hsplit =>
      obtain ⟨rfl, -⟩ := List.cons_eq_cons.mp hsplit
      cases hrejection
  | [_], hsplit =>
      obtain ⟨rfl, hrest⟩ := List.cons_eq_cons.mp hsplit
      obtain ⟨rfl, -⟩ := List.cons_eq_cons.mp hrest
      by_cases hname : name = "b"
      · subst hname
        exact Option.some.inj hword
      · simp [Request.word?, hname] at hword
  | _ :: _ :: _, hsplit => simp at hsplit

/-- The rejection asks for listener "a" besides: it is not wanted, and nothing is said when it comes
to be stored. -/
theorem silent_after_lost_name :
    Conversation (fun _ => some .listener) (.delta .new) (refusing ["a"]).1
      (.delta (refusing ["a"]).2) ∧
    interest (requestsFor listenerUrl (refusing ["a"]).1) "a" = true ∧
    ((refusing ["a"]).2.subscriptions.get? listenerUrl).map (·.wants "a") = some false ∧
    ((refusing ["a"]).2.onSnapshot (listenersNamed ["b", "a"]) fun _ => "1").2 = [] :=
  ⟨refusing_conversation _, by decide +kernel, by decide +kernel, by decide +kernel⟩

end refusing
end ControlPlane.Discovery.Incremental
