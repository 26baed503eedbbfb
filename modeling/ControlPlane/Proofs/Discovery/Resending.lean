import ControlPlane.Proofs.Discovery.FirstAnswer
import ControlPlane.Proofs.Discovery.Incremental

/-! # When an incremental stream repeats itself

What the proxy holds is noted by name, while nothing keeps two stored resources from carrying one
Envoy name.  As long as all that is wanted under a name has one version, a proxy that has just been
brought up to a snapshot is told nothing more about it.  If two versions are wanted under a name,
then only one of them can be noted: a walk through the snapshot comes upon the other, sends it and
notes it instead, and so does every walk after it.  Hence a session is silent exactly when the
stored resources do not clash (`silent_iff_no_clash`). -/

namespace ControlPlane.Discovery.Incremental

/-! ### Walks that send nothing -/

section offers
variable {l : List Entry} {state : Catalog String String × List Item}

theorem offer_of_held {e : Entry} (h : state.1.get? e.envoyName = some (bodyVersion e.body)) :
    Subscription.offer state e = state := if_pos h

theorem offers_of_held (h : ∀ e ∈ l, state.1.get? e.envoyName = some (bodyVersion e.body)) :
    l.foldl Subscription.offer state = state := by
  induction l with
  | nil => rfl
  | cons e rest ih =>
      rw [List.foldl_cons, offer_of_held (h e List.mem_cons_self)]
      exact ih fun e' he' => h e' (List.mem_cons_of_mem _ he')

/-- What was sent stays sent. -/
theorem length_le_offers (l : List Entry) (state : Catalog String String × List Item) :
    state.2.length ≤ (l.foldl Subscription.offer state).2.length := by
  induction l generalizing state with
  | nil => exact le_refl _
  | cons e rest ih =>
      refine le_trans ?_ (ih _)
      unfold Subscription.offer
      dsimp only
      split
      · exact le_refl _
      · rw [List.length_append]
        exact Nat.le_add_right _ _

/-- A walk sends nothing only if each entry is held when it starts. -/
theorem offers_silent_iff : (l.foldl Subscription.offer state).2 = state.2 ↔
    ∀ e ∈ l, state.1.get? e.envoyName = some (bodyVersion e.body) := by
  constructor
  · intro hsilent
    induction l with
    | nil => simp
    | cons e rest ih =>
        by_cases hheld : state.1.get? e.envoyName = some (bodyVersion e.body)
        · rw [List.foldl_cons, offer_of_held hheld] at hsilent
          intro e' he'
          rcases List.mem_cons.mp he' with rfl | hrest
          · exact hheld
          · exact ih hsilent e' hrest
        · -- the first entry that is not held is sent, and no later one takes it back
          have hsent : (Subscription.offer state e).2.length = state.2.length + 1 := by
            unfold Subscription.offer
            rw [if_neg hheld, List.length_append]
            rfl
          have hgrows := length_le_offers rest (Subscription.offer state e)
          rw [List.foldl_cons] at hsilent
          rw [hsilent, hsent] at hgrows
          omega
  · intro hheld
    rw [offers_of_held hheld]

end offers

/-! ### Subscriptions that have nothing to say -/

namespace Subscription

/-- The names and bodies that are wanted of a snapshot. -/
def bodies (s : Subscription) (snapshot : Snapshot) : List (String × Payload) :=
  (s.wanted snapshot).map fun e => (e.envoyName, e.body)

/-- The same names and bodies are wanted of both snapshots, in whatever order. -/
def Alike (s : Subscription) (a b : Snapshot) : Prop := ∀ x, x ∈ s.bodies a ↔ x ∈ s.bodies b

/-- All that is wanted under one name has one version. -/
def Coherent (s : Subscription) (snapshot : Snapshot) : Prop :=
  ∀ x ∈ s.bodies snapshot, ∀ y ∈ s.bodies snapshot, x.1 = y.1 → bodyVersion x.2 = bodyVersion y.2

/-- The proxy holds all that is wanted of a snapshot, and nothing else. -/
structure UpToDate (s : Subscription) (snapshot : Snapshot) : Prop where
  held : ∀ x ∈ s.bodies snapshot, s.sent.get? x.1 = some (bodyVersion x.2)
  wanted : ∀ name version, s.sent.get? name = some version → ∃ x ∈ s.bodies snapshot, x.1 = name

section silent
variable {s : Subscription} {shown later : Snapshot}

theorem mem_bodies {x : String × Payload} :
    x ∈ s.bodies shown ↔ ∃ e ∈ s.wanted shown, (e.envoyName, e.body) = x := List.mem_map

theorem Alike.refl (s : Subscription) (shown : Snapshot) : s.Alike shown shown := fun _ => Iff.rfl

/-- The difference is empty only if the proxy is up to date. -/
theorem diff_silent_iff : (s.diff shown).2.1 = [] ∧ (s.diff shown).2.2 = [] ↔ s.UpToDate shown := by
  rw [diff_eq]
  dsimp only
  constructor
  · rintro ⟨hitems, hremoved⟩
    have hheld := offers_silent_iff.mp (show (offers s shown).2 = (s.sent, ([] : List Item)).2
      from hitems)
    have hsame : offers s shown = (s.sent, []) := offers_of_held hheld
    rw [hsame, List.filter_eq_nil_iff] at hremoved
    refine ⟨fun x hx => ?_, fun name version hsent => ?_⟩
    · obtain ⟨e, he, rfl⟩ := mem_bodies.mp hx
      exact hheld e he
    · have hoffers := hremoved name (Catalog.mem_keys_iff.mpr ⟨version, hsent⟩)
      rw [Bool.not_eq_true, Bool.not_eq_false'] at hoffers
      obtain ⟨e, he, rfl⟩ := (offersName_iff s shown name).mp hoffers
      exact ⟨(e.envoyName, e.body), mem_bodies.mpr ⟨e, he, rfl⟩, rfl⟩
  · intro h
    have hsame : offers s shown = (s.sent, []) :=
      offers_of_held fun e he => h.held _ (mem_bodies.mpr ⟨e, he, rfl⟩)
    rw [hsame]
    refine ⟨rfl, List.filter_eq_nil_iff.mpr fun name hname => ?_⟩
    obtain ⟨version, hsent⟩ := Catalog.mem_keys_iff.mp hname
    obtain ⟨x, hx, rfl⟩ := h.wanted name version hsent
    obtain ⟨e, he, rfl⟩ := mem_bodies.mp hx
    rw [(offersName_iff s shown _).mpr ⟨e, he, rfl⟩]
    exact Bool.false_ne_true

theorem respond_silent_iff (typeUrl nonce : String) :
    (s.respond typeUrl shown nonce false).2 = none ↔ s.UpToDate shown := by
  rw [← diff_silent_iff]
  unfold respond
  dsimp only
  split
  · rename_i hquiet
    simp only [Bool.and_eq_true, List.isEmpty_iff] at hquiet
    exact iff_of_true rfl hquiet.1
  · rename_i hsays
    refine iff_of_false (by simp) fun hquiet => hsays ?_
    rw [hquiet.1, hquiet.2]
    rfl

/-- The interest stays the same at a response. -/
theorem respond_bodies (typeUrl nonce : String) (always : Bool) (snapshot : Snapshot) :
    (s.respond typeUrl snapshot nonce always).1.bodies shown = s.bodies shown := by
  rw [respond_fst]
  rfl

/-- What was sent under a name is the version of something that was wanted under it. -/
theorem mem_bodies_of_sent (h : SentExact s shown) {name version : String}
    (hsent : s.sent.get? name = some version) :
    ∃ x ∈ s.bodies shown, x.1 = name ∧ bodyVersion x.2 = version := by
  rw [h name, selection_eq, Option.map_eq_some_iff] at hsent
  obtain ⟨e, hlast, rfl⟩ := hsent
  obtain ⟨he, hname⟩ := List.mem_filter.mp (List.mem_of_getLast? hlast)
  exact ⟨(e.envoyName, e.body), mem_bodies.mpr ⟨e, he, rfl⟩, of_decide_eq_true hname, rfl⟩

theorem sent_of_mem_bodies (h : SentExact s shown) {x : String × Payload}
    (hx : x ∈ s.bodies shown) : ∃ version, s.sent.get? x.1 = some version := by
  obtain ⟨e, he, rfl⟩ := mem_bodies.mp hx
  rw [h, selection_eq]
  cases hlast : ((s.wanted shown).filter fun f => f.envoyName = e.envoyName).getLast? with
  | none =>
      rw [List.getLast?_eq_none_iff, List.filter_eq_nil_iff] at hlast
      exact absurd (decide_eq_true rfl) (hlast e he)
  | some last => exact ⟨_, rfl⟩

/-- A proxy that was brought up to one snapshot is up to date with another one that looks alike if
no name stands for two versions. -/
theorem upToDate_iff_coherent (h : SentExact s shown) (halike : s.Alike shown later) :
    s.UpToDate later ↔ s.Coherent shown := by
  constructor
  · intro huptodate x hx y hy hname
    have hheld := huptodate.held x ((halike x).mp hx)
    rw [hname, huptodate.held y ((halike y).mp hy)] at hheld
    exact (Option.some.inj hheld).symm
  · intro hcoherent
    refine ⟨fun x hx => ?_, fun name version hsent => ?_⟩
    · have hmem := (halike x).mpr hx
      obtain ⟨version, hsent⟩ := sent_of_mem_bodies h hmem
      obtain ⟨y, hy, hname, rfl⟩ := mem_bodies_of_sent h hsent
      rw [hsent, hcoherent y hy x hmem hname]
    · obtain ⟨x, hx, hname, -⟩ := mem_bodies_of_sent h hsent
      exact ⟨x, (halike x).mp hx, hname⟩

end silent

/-! ### Clashes among the stored resources -/

/-- The stored resources that are wanted. -/
def found (s : Subscription) (store : ResourceStore) (p : Protocol) : List Resource :=
  (store.resources.values.map (·.resource)).filter fun r =>
    (r.kind = s.kind ∧ r.protocol = p) ∧ s.wants r.envoyName = true

/-- Two resources are stored that are wanted under one name, in different versions. -/
def Clashes (s : Subscription) (store : ResourceStore) (p : Protocol) : Prop :=
  ∃ a ∈ s.found store p, ∃ b ∈ s.found store p,
    a.envoyName = b.envoyName ∧ bodyVersion a.payload ≠ bodyVersion b.payload

instance (s : Subscription) (store : ResourceStore) (p : Protocol) :
    Decidable (s.Clashes store p) :=
  inferInstanceAs (Decidable (∃ a ∈ s.found store p, ∃ b ∈ s.found store p,
    a.envoyName = b.envoyName ∧ bodyVersion a.payload ≠ bodyVersion b.payload))

section clashes
variable {s : Subscription} {store : ResourceStore} {p : Protocol} {shown : Snapshot}

/-- A snapshot that shows the store has what is stored. -/
theorem bodies_eq (h : store.Shows p shown) :
    s.bodies shown = (s.found store p).map fun r => (r.envoyName, r.payload) := by
  have hshown : s.bodies shown = (((shown.resources s.kind).map Entry.served).filter
      fun x => s.wants x.2.1).map Prod.snd := by
    unfold bodies Subscription.wanted
    rw [List.filter_map, List.map_map]
    rfl
  have hstored : (s.found store p).map (fun r => (r.envoyName, r.payload)) =
      ((store.offered p s.kind).filter fun x => s.wants x.2.1).map Prod.snd := by
    unfold found ResourceStore.offered Catalog.values
    rw [List.map_map, List.filter_map, List.filter_map, List.filter_filter, List.map_map,
      List.map_map]
    refine congrArg (List.map _) (List.filter_congr fun e _ => ?_)
    rw [Function.comp_apply, Bool.decide_and, Bool.decide_eq_true, Bool.and_comm]
    rfl
  rw [hshown, h.entries, hstored]

/-- A snapshot that shows the store is coherent if nothing that is stored clashes. -/
theorem coherent_iff_no_clash (h : store.Shows p shown) :
    s.Coherent shown ↔ ¬ s.Clashes store p := by
  unfold Coherent Clashes
  rw [bodies_eq h]
  simp only [List.forall_mem_map]
  push Not
  rfl

end clashes
end Subscription

/-! ### Sessions that have nothing to say -/

section session
variable {session : Session} {shown later : Snapshot} {nonce : String → String} {typeUrl : String}

theorem Session.mem_onSnapshot {response : Response} :
    response ∈ (session.onSnapshot shown nonce).2 ↔ ∃ typeUrl s,
      session.subscriptions.get? typeUrl = some s ∧
        (s.respond typeUrl shown (nonce typeUrl) false).2 = some response := by
  unfold Session.onSnapshot
  dsimp only
  simp only [List.mem_filterMap, Catalog.mem_values_iff, Catalog.get?_mapWithKey,
    Option.map_eq_some_iff]
  constructor
  · rintro ⟨_, ⟨typeUrl, s, hs, rfl⟩, hresponse⟩
    exact ⟨typeUrl, s, hs, hresponse⟩
  · rintro ⟨typeUrl, s, hs, hresponse⟩
    exact ⟨_, ⟨typeUrl, s, hs, rfl⟩, hresponse⟩

/-- A type gets no response at a snapshot if its proxy is up to date. -/
theorem Session.silentFor_iff {s : Subscription}
    (hs : session.subscriptions.get? typeUrl = some s) :
    (∀ response ∈ (session.onSnapshot shown nonce).2, response.typeUrl ≠ typeUrl) ↔
      s.UpToDate shown := by
  rw [← Subscription.respond_silent_iff typeUrl (nonce typeUrl)]
  constructor
  · intro hsilent
    rw [Option.eq_none_iff_forall_ne_some]
    exact fun response hresponse =>
      hsilent response (mem_onSnapshot.mpr ⟨typeUrl, s, hs, hresponse⟩)
        (respond_typeUrl s typeUrl shown (nonce typeUrl) false hresponse)
  · intro hnone response hmem htype
    obtain ⟨typeUrl', s', hs', hresponse⟩ := mem_onSnapshot.mp hmem
    obtain rfl : typeUrl' = typeUrl :=
      (respond_typeUrl s' typeUrl' shown (nonce typeUrl') false hresponse).symm.trans htype
    obtain rfl := Option.some.inj (hs.symm.trans hs')
    rw [hnone] at hresponse
    cases hresponse

theorem Session.onSnapshot_silent_iff : (session.onSnapshot shown nonce).2 = [] ↔
    ∀ typeUrl s, session.subscriptions.get? typeUrl = some s → s.UpToDate shown := by
  constructor
  · intro hsilent typeUrl s hs
    have hnone : ∀ response ∈ (session.onSnapshot shown nonce).2, response.typeUrl ≠ typeUrl := by
      rw [hsilent]
      exact fun response hmem => absurd hmem List.not_mem_nil
    exact (silentFor_iff hs).mp hnone
  · intro huptodate
    rw [List.eq_nil_iff_forall_not_mem]
    intro response hmem
    obtain ⟨typeUrl, s, hs, hresponse⟩ := mem_onSnapshot.mp hmem
    exact (silentFor_iff hs).mpr (huptodate typeUrl s hs) response hmem
      (respond_typeUrl s typeUrl shown (nonce typeUrl) false hresponse)

/-- After a snapshot the subscriptions want what they wanted, and have sent exactly that. -/
theorem Session.onSnapshot_then_silent_iff {nonce' : String → String}
    (halike : ∀ typeUrl s, session.subscriptions.get? typeUrl = some s → s.Alike shown later) :
    ((session.onSnapshot shown nonce).1.onSnapshot later nonce').2 = [] ↔
      ∀ typeUrl s, session.subscriptions.get? typeUrl = some s → s.Coherent shown := by
  rw [onSnapshot_silent_iff]
  have hafter : ∀ typeUrl s, session.subscriptions.get? typeUrl = some s →
      ((s.respond typeUrl shown (nonce typeUrl) false).1.UpToDate later ↔ s.Coherent shown) := by
    intro typeUrl s hs
    have hbodies : ∀ snapshot : Snapshot,
        (s.respond typeUrl shown (nonce typeUrl) false).1.bodies snapshot = s.bodies snapshot :=
      fun _ => Subscription.respond_bodies typeUrl (nonce typeUrl) false shown
    have hsame := halike typeUrl s hs
    unfold Subscription.Alike at hsame
    rw [← hbodies shown, ← hbodies later] at hsame
    rw [Subscription.upToDate_iff_coherent (respond_exact s typeUrl shown _ false) hsame,
      Subscription.Coherent, hbodies]
    rfl
  constructor
  · intro huptodate typeUrl s hs
    refine (hafter typeUrl s hs).mp (huptodate typeUrl _ ?_)
    rw [session.onSnapshot_get?, hs, Option.map_some]
  · intro hcoherent typeUrl s hs
    rw [session.onSnapshot_get?] at hs
    obtain ⟨s', hs', rfl⟩ := Option.map_eq_some_iff.mp hs
    exact (hafter typeUrl s' hs').mpr (hcoherent typeUrl s' hs')

/-- After a request that was answered the subscription has sent exactly what it wants. -/
theorem Session.exact_of_answered {kind : Kind} {request : Request} {token : String}
    {response : Response}
    (hanswer : (session.onRequest kind request shown token).2 = some response) :
    ∃ s, (session.onRequest kind request shown token).1.subscriptions.get? request.typeUrl =
      some s ∧ SentExact s shown := by
  rcases session.onRequest_cases kind request shown token with ⟨hnone, -, -⟩ | ⟨-, heq⟩
  · rw [hnone] at hanswer
    cases hanswer
  · rw [heq]
    exact ⟨_, Catalog.get?_insert_self _ _ _, respond_exact _ _ _ _ _⟩

end session

/-- Whatever is stored and whatever the session, right after a snapshot the same one, or a later one
that looks alike to the subscriptions, brings no response just when nothing that is stored clashes
for any of them.  Right after a request that was answered, the snapshot that it was answered with
brings no response for its type just when nothing clashes for the subscription to this type. -/
theorem silent_iff_no_clash (moves : List Hall.Move) (protocol : Protocol) (session : Session)
    (nonce : String → String) :
    let store := (moves.foldl Hall.step .empty).store
    let shown := (store.snapshot protocol).2
    (∀ (later : Snapshot) (nonce' : String → String),
      (∀ typeUrl s, session.subscriptions.get? typeUrl = some s → s.Alike shown later) →
        (((session.onSnapshot shown nonce).1.onSnapshot later nonce').2 = [] ↔
          ∀ typeUrl s, session.subscriptions.get? typeUrl = some s →
            ¬ s.Clashes store protocol)) ∧
    ∀ (kind : Kind) (request : Request) (token : String),
      (session.onRequest kind request shown token).2.isSome = true →
        ∃ s, (session.onRequest kind request shown token).1.subscriptions.get? request.typeUrl =
            some s ∧
          ((∀ response ∈
              ((session.onRequest kind request shown token).1.onSnapshot shown nonce).2,
              response.typeUrl ≠ request.typeUrl) ↔ ¬ s.Clashes store protocol) := by
  intro store shown
  have hshows : store.Shows protocol shown := (Hall.empty_current.run moves protocol).snapshot
  constructor
  · intro later nonce' halike
    rw [Session.onSnapshot_then_silent_iff halike]
    refine forall_congr' fun typeUrl => forall_congr' fun s => forall_congr' fun _ => ?_
    exact Subscription.coherent_iff_no_clash hshows
  · intro kind request token hanswered
    obtain ⟨response, hanswer⟩ := Option.isSome_iff_exists.mp hanswered
    obtain ⟨s, hs, hexact⟩ := Session.exact_of_answered hanswer
    refine ⟨s, hs, ?_⟩
    rw [Session.silentFor_iff hs, Subscription.upToDate_iff_coherent hexact (.refl s shown),
      Subscription.coherent_iff_no_clash hshows]

/-! ### Two clusters with one name -/

def clusterUrl : String := "type.googleapis.com/envoy.config.cluster.v3.Cluster"

/-- A cluster whose payload has the name "a" in it, and these bytes besides. -/
def clusterWith (more : Bytes) : Resource := ⟨.cluster, .v3, clusterUrl, "a", [10, 1, 97] ++ more⟩

/-- Two namespaces have a cluster "a", and the second one has more bytes. -/
def clusterMoves (more : Bytes) : List Hall.Move :=
  [.write ⟨"default/cluster/a"⟩ ⟨"1", "1"⟩ (clusterWith []),
    .write ⟨"edge/cluster/a"⟩ ⟨"2", "1"⟩ (clusterWith more)]

def shownAfter (moves : List Hall.Move) : Snapshot :=
  ((moves.foldl Hall.step .empty).store.snapshot .v3).2

/-- A request for all clusters. -/
def allClusters : Request := ⟨clusterUrl, [], [], ∅, "", false⟩

/-- A new session is asked for all clusters. -/
def asked (more : Bytes) : Session × Option Response :=
  Session.new.onRequest .cluster allClusters (shownAfter (clusterMoves more)) "0"

/-- Both clusters have the same bytes, so nothing clashes, and the session stays silent also when
something else is stored. -/
theorem silent_with_one_body :
    let shown := shownAfter (clusterMoves [])
    let later := shownAfter (clusterMoves [] ++ [Exchange.writeListener "b" 3])
    (shown.resources .cluster).length = 2 ∧ later.version = 3 ∧
    (∀ response ∈ ((asked []).1.onSnapshot shown fun _ => "1").2,
      response.typeUrl ≠ clusterUrl) ∧
    (((asked []).1.onSnapshot shown fun _ => "1").1.onSnapshot later fun _ => "2").2 = [] := by
  intro shown later
  have hsubscriptions : ∀ s ∈ (asked []).1.subscriptions.values,
      s.bodies shown = s.bodies later ∧
        ¬ s.Clashes ((clusterMoves []).foldl Hall.step .empty).store .v3 := by decide +kernel
  have hanswered : (asked []).2.isSome = true := by decide +kernel
  refine ⟨by decide +kernel, by decide +kernel, ?_, ?_⟩
  · obtain ⟨s, hs, hsilent⟩ := (silent_iff_no_clash (clusterMoves []) .v3 .new fun _ => "1").2
      .cluster allClusters "0" hanswered
    exact hsilent.mpr (hsubscriptions s (Catalog.mem_values_iff.mpr ⟨_, hs⟩)).2
  · refine ((silent_iff_no_clash (clusterMoves []) .v3 (asked []).1 fun _ => "1").1 later
      (fun _ => "2") fun typeUrl s hs x => ?_).mpr fun typeUrl s hs => ?_
    · rw [← (hsubscriptions s (Catalog.mem_values_iff.mpr ⟨typeUrl, hs⟩)).1]
      exact Iff.rfl
    · exact (hsubscriptions s (Catalog.mem_values_iff.mpr ⟨typeUrl, hs⟩)).2

/-- The clusters differ.  A proxy that asks for all clusters is sent both of them under one name,
and although nothing changes it is sent both at each of the next snapshots. -/
theorem resent_under_clash :
    let shown := shownAfter (clusterMoves [34, 2, 8, 5])
    let first := (asked [34, 2, 8, 5]).1.onSnapshot shown fun _ => "1"
    let second := first.1.onSnapshot shown fun _ => "2"
    Conversation (fun _ => some .cluster) (.delta .new)
      [⟨.ask (.delta allClusters), shown, ((asked [34, 2, 8, 5]).2.map Reply.delta).toList⟩]
      (.delta (asked [34, 2, 8, 5]).1) ∧
    (asked [34, 2, 8, 5]).2.isSome = true ∧
    ¬ (∀ response ∈ first.2, response.typeUrl ≠ clusterUrl) ∧ second.2 ≠ [] ∧
    second.2.map (fun response => response.resources.map Item.body) =
      [[⟨clusterUrl, [10, 1, 97]⟩, ⟨clusterUrl, [10, 1, 97, 34, 2, 8, 5]⟩]] := by
  intro shown first second
  refine ⟨?_, by decide +kernel, by decide +kernel, by decide +kernel, by decide +kernel⟩
  exact .ask (.delta allClusters) .cluster shown "0" .opening rfl

end ControlPlane.Discovery.Incremental
