import ControlPlane.Proofs.Discovery.Causes

/-! # The names in effect

A snapshot is answered by the names in effect for a type (`Session.namesInEffect?`).  A request
counts if it names no response or the last one for its type (`heeded`), and the names of the latest
such request are in effect, unless it rejects the last response: then its names are passed over with
it (`Session.TakesNames`).  So a change of names comes through exactly if no rejection asks for it
(`names_in_effect`). -/

namespace ControlPlane.Discovery

/-! ### Requests that count -/

/-- The request rejects the response it names. -/
def Request.refuses (r : Request) : Bool := r.isRejection && r.nonce ≠ ""

/-- The request for a type that a turn takes up, if it names no response or the last one. -/
def Turn.heeds? (typeUrl : String) (earlier : List Turn) (t : Turn) : Option Request :=
  match t.cause with
  | .ask (.whole r) =>
    if r.typeUrl = typeUrl ∧ (r.nonce = "" ∨ lastNonce? typeUrl earlier = some r.nonce) then some r
    else none
  | _ => none

/-- The requests for a type that count, of turns that come after earlier ones. -/
def heededAfter (typeUrl : String) : List Turn → List Turn → List Request
  | _, [] => []
  | earlier, t :: later =>
    (t.heeds? typeUrl earlier).toList ++ heededAfter typeUrl (earlier ++ [t]) later

/-- The requests for a type that name no response or the last one before them, in order. -/
def heeded (typeUrl : String) (turns : List Turn) : List Request := heededAfter typeUrl [] turns

section heeded
variable (typeUrl : String) (turns : List Turn) (t : Turn)

theorem heededAfter_snoc (earlier : List Turn) : heededAfter typeUrl earlier (turns ++ [t]) =
    heededAfter typeUrl earlier turns ++ (t.heeds? typeUrl (earlier ++ turns)).toList := by
  induction turns generalizing earlier with
  | nil => simp [heededAfter]
  | cons first rest ih =>
      rw [List.cons_append, heededAfter, ih, heededAfter, List.append_assoc, List.append_assoc,
        List.singleton_append]

theorem heeded_snoc :
    heeded typeUrl (turns ++ [t]) = heeded typeUrl turns ++ (t.heeds? typeUrl turns).toList :=
  heededAfter_snoc typeUrl turns t []

end heeded

/-! ### Names that are taken over -/

/-- The names by which the next snapshot is answered, once the type was answered. -/
def Subscription.namesInEffect? (s : Subscription) : Option (List String) :=
  s.lastNonce.map fun _ => s.names

def Session.namesInEffect? (session : Session) (typeUrl : String) : Option (List String) :=
  (session.subscriptions.get? typeUrl).bind Subscription.namesInEffect?

/-- The names of the latest request that counts and does not refuse the last response. -/
def namesTaken? (typeUrl : String) (turns : List Turn) : Option (List String) :=
  ((heeded typeUrl turns).filter fun r => !r.refuses).getLast?.map (·.names)

theorem namesTaken?_snoc (typeUrl : String) (turns : List Turn) (t : Turn) :
    namesTaken? typeUrl (turns ++ [t]) =
      (((t.heeds? typeUrl turns).filter fun r => !r.refuses).map (·.names)).or
        (namesTaken? typeUrl turns) := by
  unfold namesTaken?
  rw [heeded_snoc, List.filter_append, List.getLast?_append, Option.map_or]
  congr 2
  cases t.heeds? typeUrl turns with
  | none => rfl
  | some r => cases h : r.refuses <;> simp [h, Option.filter]

namespace Subscription
variable (s : Subscription) (request : Request) (snapshot : Snapshot) (nonce : String)

/-- A request that counts brings its names into effect unless it refuses the last response. -/
theorem onRequest_namesInEffect? : (s.onRequest request snapshot nonce).1.namesInEffect? =
    if (request.nonce = "" ∨ s.lastNonce = some request.nonce) ∧ request.refuses = false then
      some request.names
    else s.namesInEffect? := by
  unfold onRequest
  cases hanswers : s.answers request snapshot with
  | true =>
      have hcounts : (request.nonce = "" ∨ s.lastNonce = some request.nonce) ∧
          request.refuses = false := by
        rcases answers_iff.mp hanswers with hempty | ⟨hlast, haccepts, -⟩
        · exact ⟨Or.inl hempty, by simp [Request.refuses, hempty]⟩
        · exact ⟨Or.inr hlast, by simp [Request.refuses, haccepts]⟩
      rw [if_pos hcounts]
      rfl
  | false =>
      rw [Bool.eq_false_iff, ne_eq, answers_iff, not_or] at hanswers
      obtain ⟨hnamed, hsilent⟩ := hanswers
      rw [if_neg Bool.false_ne_true]
      split
      · rename_i hcounts
        obtain ⟨hnonce, haccepts⟩ := hcounts
        have hlast := hnonce.resolve_left hnamed
        -- it was not answered, so its names are those in effect
        have hsame : s.names = request.names := by
          by_contra hother
          refine hsilent ⟨hlast, ?_, fun h => absurd h hother⟩
          simpa [Request.refuses, hnamed] using haccepts
        unfold namesInEffect?
        rw [hlast, Option.map_some, hsame]
      · rfl

theorem onSnapshot_namesInEffect? (typeUrl : String) :
    (s.onSnapshot typeUrl snapshot nonce).1.namesInEffect? = s.namesInEffect? := by
  rcases s.onSnapshot_cases typeUrl snapshot nonce with ⟨heq, -⟩ | ⟨heq, hspoken⟩
  · rw [heq]
  · obtain ⟨last, hlast⟩ := Option.ne_none_iff_exists'.mp hspoken
    rw [heq]
    unfold namesInEffect?
    rw [hlast]
    rfl

end Subscription

/-! ### Sessions -/

/-- The session answers snapshots by the names of the latest requests that count. -/
def Session.TakesNames (session : Session) (turns : List Turn) : Prop :=
  ∀ typeUrl, session.namesInEffect? typeUrl = namesTaken? typeUrl turns

section sessions
variable {resolve : String → Option Kind} {turns : List Turn} {session : Session}

theorem Session.askTurn_heeds? (session : Session) (kind : Kind) (request : Request)
    (snapshot : Snapshot) (nonce typeUrl : String) (earlier : List Turn) :
    (session.askTurn kind request snapshot nonce).heeds? typeUrl earlier =
      if request.typeUrl = typeUrl ∧
          (request.nonce = "" ∨ lastNonce? typeUrl earlier = some request.nonce) then some request
      else none := rfl

theorem Session.TakesNames.ask (h : session.TakesNames turns) (hknows : session.KnowsNonces turns)
    (kind : Kind) (request : Request) (snapshot : Snapshot) (nonce : String) :
    (session.onRequest kind request snapshot nonce).1.TakesNames
      (turns ++ [session.askTurn kind request snapshot nonce]) := by
  intro typeUrl
  rw [namesTaken?_snoc, ← h typeUrl, Session.askTurn_heeds?]
  unfold Session.namesInEffect?
  by_cases htype : request.typeUrl = typeUrl
  · subst htype
    have hnames : ((session.subscriptions.get? request.typeUrl).getD (.new kind)).namesInEffect? =
        (session.subscriptions.get? request.typeUrl).bind Subscription.namesInEffect? := by
      cases session.subscriptions.get? request.typeUrl <;> rfl
    rw [session.onRequest_get?_self, Option.bind_some, Subscription.onRequest_namesInEffect?,
      hknows.getD, hnames]
    by_cases hcounts : request.nonce = "" ∨ lastNonce? request.typeUrl turns = some request.nonce
    · cases hrefuses : request.refuses <;> simp [hcounts, hrefuses, Option.filter]
    · simp [hcounts]
  · rw [session.onRequest_get?_of_ne kind snapshot nonce htype]
    simp [htype]

theorem Session.TakesNames.news (h : session.TakesNames turns) (snapshot : Snapshot)
    (nonce : String → String) :
    (session.onSnapshot snapshot nonce).1.TakesNames
      (turns ++ [session.newsTurn snapshot nonce]) := by
  intro typeUrl
  have hnone : (session.newsTurn snapshot nonce).heeds? typeUrl turns = none := rfl
  rw [namesTaken?_snoc, hnone, ← h typeUrl]
  unfold Session.namesInEffect?
  rw [session.onSnapshot_get?]
  cases session.subscriptions.get? typeUrl with
  | none => rfl
  | some s => exact s.onSnapshot_namesInEffect? snapshot (nonce typeUrl) typeUrl

theorem Conversation.takesNames {s : AnySession}
    (h : Conversation resolve (.whole .new) turns s) :
    ∃ session, s = .whole session ∧ session.TakesNames turns := by
  induction h with
  | opening => exact ⟨.new, rfl, fun _ => rfl⟩
  | ask ask kind snapshot nonce hbefore _ ih =>
      obtain ⟨session, rfl, htakes⟩ := ih
      cases ask with
      | whole request => exact ⟨_, rfl, htakes.ask hbefore.knows.2 kind request snapshot nonce⟩
      | delta request =>
          refine ⟨session, rfl, fun typeUrl => ?_⟩
          rw [namesTaken?_snoc]
          exact htakes typeUrl
  | news snapshot nonce _ ih =>
      obtain ⟨session, rfl, htakes⟩ := ih
      exact ⟨_, rfl, htakes.news snapshot nonce⟩

/-- What is said at a snapshot is selected by the names in effect. -/
theorem Session.RemembersAll.onSnapshot_resources (h : session.RemembersAll resolve turns)
    {snapshot : Snapshot} {nonce : String → String} {response : Response}
    (hmem : response ∈ (session.onSnapshot snapshot nonce).2) :
    ∃ names kind, session.namesInEffect? response.typeUrl = some names ∧
      resolve response.typeUrl = some kind ∧
      response.resources = (snapshot.select kind names).map (·.body) := by
  obtain ⟨s, hknown, hsaid⟩ := Session.get?_of_mem_onSnapshot hmem
  have hremembers := h response.typeUrl
  rw [hknown] at hremembers
  rcases s.onSnapshot_cases response.typeUrl snapshot (nonce response.typeUrl) with
    ⟨heq, -⟩ | ⟨heq, hspoken⟩
  · rw [heq] at hsaid
    cases hsaid
  · obtain ⟨last, hlast⟩ := Option.ne_none_iff_exists'.mp hspoken
    refine ⟨s.names, s.kind, ?_, hremembers.kind_eq, ?_⟩
    · rw [Session.namesInEffect?, hknown, Option.bind_some, Subscription.namesInEffect?, hlast,
        Option.map_some]
    · rw [heq] at hsaid
      exact (congrArg Response.resources (Option.some.inj hsaid)).symm

variable {typeUrl : String} {r : Request}

theorem namesTaken?_of_last (hlast : (heeded typeUrl turns).getLast? = some r)
    (haccepts : r.refuses = false) : namesTaken? typeUrl turns = some r.names := by
  obtain ⟨before, hbefore⟩ := List.getLast?_eq_some_iff.mp hlast
  unfold namesTaken?
  rw [hbefore, List.filter_append]
  simp [haccepts]

theorem namesTaken?_of_none (hnone : (heeded typeUrl turns).getLast? = none) :
    namesTaken? typeUrl turns = none := by
  unfold namesTaken?
  rw [List.getLast?_eq_none_iff.mp hnone]
  rfl

/-- The names of the latest request that counts are in effect unless it is a rejection that asks for
others. -/
theorem namesTaken?_eq_last_iff :
    namesTaken? typeUrl turns = (heeded typeUrl turns).getLast?.map (·.names) ↔
      ∀ r, (heeded typeUrl turns).getLast? = some r → r.refuses = true →
        namesTaken? typeUrl turns = some r.names := by
  cases hlast : (heeded typeUrl turns).getLast? with
  | none => simp [namesTaken?_of_none hlast]
  | some r =>
      constructor
      · rintro heq _ ⟨⟩ -
        exact heq
      · intro h
        cases hrefuses : r.refuses with
        | true => exact h r rfl hrefuses
        | false => exact namesTaken?_of_last hlast hrefuses

/-- Whatever a session is given: what it says at a snapshot is selected by the names in effect for
the type.  These are the names of the latest request that names no response or the last one and does
not reject it.  They are those of the latest request that names no response or the last one, whether
or not it rejects it, exactly if this is no rejection that asks for other names than are in
effect. -/
theorem names_in_effect (h : Conversation resolve (.whole .new) turns (.whole session)) :
    (∀ snapshot nonce, ∀ response ∈ (session.onSnapshot snapshot nonce).2, ∃ names kind,
      session.namesInEffect? response.typeUrl = some names ∧
        resolve response.typeUrl = some kind ∧
        response.resources = (snapshot.select kind names).map (·.body)) ∧
    ∀ typeUrl,
      session.namesInEffect? typeUrl =
        ((heeded typeUrl turns).filter fun r => !r.refuses).getLast?.map (·.names) ∧
      (session.namesInEffect? typeUrl = (heeded typeUrl turns).getLast?.map (·.names) ↔
        ∀ r, (heeded typeUrl turns).getLast? = some r → r.refuses = true →
          session.namesInEffect? typeUrl = some r.names) := by
  obtain ⟨_, heq, htakes⟩ := h.takesNames
  obtain rfl := AnySession.whole.inj heq
  refine ⟨fun snapshot nonce response hmem => h.knows.1.onSnapshot_resources hmem,
    fun typeUrl => ⟨htakes typeUrl, ?_⟩⟩
  rw [htakes typeUrl]
  exact namesTaken?_eq_last_iff

end sessions

/-! ### A rejection that asks for other names -/

section refusing
open Exchange (listenerUrl listenersNamed)

/-- The proxy is sent listener "b", rejects it, and asks for these with the rejection. -/
def refusing (names : List String) : List Turn × Session :=
  let first : Request := ⟨listenerUrl, ["b"], "", false⟩
  let asked := (Session.new.onRequest .listener first (listenersNamed ["b"]) "0").1
  let second : Request := ⟨listenerUrl, names, "0", true⟩
  ([Session.new.askTurn .listener first (listenersNamed ["b"]) "0",
      asked.askTurn .listener second (listenersNamed ["b"]) "1"],
    (asked.onRequest .listener second (listenersNamed ["b"]) "1").1)

theorem refusing_conversation (names : List String) :
    Conversation (fun _ => some .listener) (.whole .new) (refusing names).1
      (.whole (refusing names).2) :=
  .ask (.whole ⟨listenerUrl, names, "0", true⟩) .listener (listenersNamed ["b"]) "1"
    (.ask (.whole ⟨listenerUrl, ["b"], "", false⟩) .listener (listenersNamed ["b"]) "0" .opening
      rfl) rfl

/-- The rejection repeats the names, and they are in effect. -/
theorem names_after_repetition :
    Conversation (fun _ => some .listener) (.whole .new) (refusing ["b"]).1
      (.whole (refusing ["b"]).2) ∧
    (refusing ["b"]).2.namesInEffect? listenerUrl =
      (heeded listenerUrl (refusing ["b"]).1).getLast?.map (·.names) := by
  refine ⟨refusing_conversation _,
    ((names_in_effect (refusing_conversation ["b"])).2 listenerUrl).2.mpr ?_⟩
  have hlast : (heeded listenerUrl (refusing ["b"]).1).getLast? =
      some ⟨listenerUrl, ["b"], "0", true⟩ := by decide +kernel
  rintro r hr -
  obtain rfl := Option.some.inj (hlast.symm.trans hr)
  decide +kernel

/-- The rejection asks for listener "a" in place of "b": "b" stays in effect, so nothing is said
when "a" comes to be stored. -/
theorem silent_after_refusal :
    Conversation (fun _ => some .listener) (.whole .new) (refusing ["a"]).1
      (.whole (refusing ["a"]).2) ∧
    (heeded listenerUrl (refusing ["a"]).1).getLast?.map (·.names) = some ["a"] ∧
    (refusing ["a"]).2.namesInEffect? listenerUrl = some ["b"] ∧
    ((refusing ["a"]).2.onSnapshot (listenersNamed ["b", "a"]) fun _ => "1").2 = [] :=
  ⟨refusing_conversation _, by decide +kernel, by decide +kernel, by decide +kernel⟩

end refusing
end ControlPlane.Discovery
