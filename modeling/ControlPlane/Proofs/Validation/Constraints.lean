import ControlPlane.Proofs.Validation.Messages
import ControlPlane.Proofs.Validation.Registry

/-! # Constraints on messages

A message is acceptable if it keeps every constraint of its kind (`Message.Acceptable`).  Each constraint
stands at a place: its number among the constraints of the message, and behind it, for each list on the
way, the index in it (`Message.Breaks`).  Places are compared from the front, so a constraint on an
element comes after those on all elements before it, and inside an element the constraints have the
order of their numbers.

Validation reports the first broken constraint, with its indices in the text, and accepts a message
that breaks none (`Reports`, `Message.reports`).  The list of violations is put together as the message
is, and so is the proof: `Reports` holds of one constraint, of two lists one after the other, and of a
list made from each element in turn.  Since validation sees no more of the decoded fields than what the
message that takes them up is checked on (`Message.view_ofRecord`), its verdict is the one on that
message, and messages of both protocols that agree on what is checked come to the same
(`Validator.JudgesInOrder`, `assemble_judges`). -/

namespace ControlPlane.Validation

/-! ### What a message must keep -/

/-- The name is there, and a timeout has positive seconds, or no seconds and positive nanoseconds. -/
def Cluster.Acceptable (m : Cluster) : Prop :=
  m.name ≠ "" ∧ ∀ d, m.connectTimeout = some d → 0 < d.seconds ∨ (d.seconds = 0 ∧ 0 < d.nanos)

/-- The name is there, and there are domains, none of them empty. -/
def VirtualHost.Acceptable (m : VirtualHost) : Prop :=
  m.name ≠ "" ∧ m.domains ≠ [] ∧ ∀ domain ∈ m.domains, domain ≠ ""

def RouteConfiguration.Acceptable (m : RouteConfiguration) : Prop :=
  m.name ≠ "" ∧ ∀ host ∈ m.virtualHosts, host.Acceptable

namespace Message

/-- The name is there, a numeric port fits 16 bits, and no filter is without a name. -/
def Listener.Acceptable (m : Listener) : Prop :=
  m.name ≠ "" ∧ (∀ number, m.HasPort number → number ≤ 65535) ∧
    ∀ chain ∈ m.filterChains, ∀ filter ∈ chain.filters, filter.name ≠ ""

/-- Both names are there, and a key with fragments, each of which has a type. -/
def ScopedRoute.Acceptable (m : ScopedRoute) : Prop :=
  m.name ≠ "" ∧ m.routeConfigurationName ≠ "" ∧
    ∃ key, m.key = some key ∧ key.fragments ≠ [] ∧ ∀ fragment ∈ key.fragments, fragment.type ≠ none

def Acceptable : Message → Prop
  | cluster m => m.Acceptable
  | clusterLoadAssignment m => m.name ≠ ""
  | listener m => m.Acceptable
  | routeConfiguration m => m.Acceptable
  | runtime m => m.name ≠ ""
  | scopedRoute m => m.Acceptable
  | secret m => m.name ≠ ""
  | virtualHost m => m.Acceptable

/-- The field that holds the name. -/
def nameField : Message → String
  | cluster _ => "Cluster.Name"
  | clusterLoadAssignment _ => "ClusterLoadAssignment.ClusterName"
  | listener _ => "Listener.Name"
  | routeConfiguration _ => "RouteConfiguration.Name"
  | runtime _ => "Runtime.Name"
  | scopedRoute _ => "ScopedRouteConfiguration.Name"
  | secret _ => "Secret.Name"
  | virtualHost _ => "VirtualHost.Name"

end Message

/-! ### Where constraints stand -/

/-- The number of a constraint in its message, followed by indices and numbers further in. -/
abbrev Place := List ℕ

/-- The constraints that a virtual host breaks; `field` is the path of the host. -/
inductive VirtualHost.Breaks (field : String) (m : VirtualHost) : Place → Violation → Prop where
  | name (h : m.name = "") : Breaks field m [0] (.emptyText (field ++ ".Name"))
  | noDomains (h : m.domains = []) : Breaks field m [1] (.noItems (field ++ ".Domains"))
  | domain (i : ℕ) (h : m.domains[i]? = some "") :
      Breaks field m [2, i] (.emptyText (field ++ s!".Domains[{i}]"))

/-- The constraints that a message breaks. -/
inductive Message.Breaks : Message → Place → Violation → Prop where
  | name {m : Message} (h : m.name = "") : Breaks m [0] (.emptyText m.nameField)
  | timeout {m : Cluster} {d : Duration} (htimeout : m.connectTimeout = some d)
      (h : d.seconds < 0 ∨ (d.seconds = 0 ∧ d.nanos ≤ 0)) :
      Breaks (.cluster m) [1] .timeoutNotPositive
  | port {m : Listener} {number : ℕ} (hport : m.HasPort number) (h : 65535 < number) :
      Breaks (.listener m) [1] (.portTooLarge number)
  | filter {m : Listener} {chain : FilterChain} {filter : Named} (i j : ℕ)
      (hchain : m.filterChains[i]? = some chain) (hfilter : chain.filters[j]? = some filter)
      (h : filter.name = "") :
      Breaks (.listener m) [2, i, j]
        (.emptyText s!"Listener.FilterChains[{i}].Filters[{j}].Name")
  | virtualHost {m : VirtualHost} {p : Place} {v : Violation} (h : m.Breaks "VirtualHost" p v) :
      Breaks (.virtualHost m) p v
  | host {m : RouteConfiguration} {host : VirtualHost} {p : Place} {v : Violation} (i : ℕ)
      (hhost : m.virtualHosts[i]? = some host)
      (h : host.Breaks s!"RouteConfiguration.VirtualHosts[{i}]" p v) :
      Breaks (.routeConfiguration m) (1 :: i :: p) v
  | routeConfigurationName {m : ScopedRoute} (h : m.routeConfigurationName = "") :
      Breaks (.scopedRoute m) [1] (.emptyText "ScopedRouteConfiguration.RouteConfigurationName")
  | noKey {m : ScopedRoute} (h : m.key = none) :
      Breaks (.scopedRoute m) [2] (.missing "ScopedRouteConfiguration.Key")
  | noFragments {m : ScopedRoute} {key : Key} (hkey : m.key = some key) (h : key.fragments = []) :
      Breaks (.scopedRoute m) [3] (.noItems "ScopedRouteConfiguration.Key.Fragments")
  | fragment {m : ScopedRoute} {key : Key} {fragment : Fragment} (i : ℕ) (hkey : m.key = some key)
      (hfragment : key.fragments[i]? = some fragment) (h : fragment.type = none) :
      Breaks (.scopedRoute m) [4, i] (.missing s!"ScopedRouteConfiguration.Key.Fragments[{i}]")

/-- The violation of the first constraint that is broken. -/
def First (broken : Place → Violation → Prop) (v : Violation) : Prop :=
  ∃ p, broken p v ∧ ∀ p' v', broken p' v' → (p' = p ∧ v' = v) ∨ p < p'

/-- Only one violation is the first. -/
theorem First.unique {broken : Place → Violation → Prop} {v v' : Violation} (h : First broken v)
    (h' : First broken v') : v = v' := by
  obtain ⟨p, hp, hleast⟩ := h
  obtain ⟨p', hp', hleast'⟩ := h'
  rcases hleast p' v' hp' with ⟨-, rfl⟩ | hlt
  · rfl
  · rcases hleast' p v hp with ⟨-, rfl⟩ | hlt'
    · rfl
    · exact absurd hlt' (List.lt_asymm hlt)

/-! ### Lists of violations -/

/-- A list has the violation of the first broken constraint in front, and is empty if there is none. -/
structure Reports (vs : List Violation) (broken : Place → Violation → Prop) : Prop where
  silent : vs = [] → ∀ p v, ¬ broken p v
  leads : ∀ v rest, vs = v :: rest → First broken v

namespace Reports
variable {vs ws : List Violation} {broken broken' whole : Place → Violation → Prop}

/-- No constraint. -/
theorem nil (h : ∀ p v, ¬ broken p v) : Reports [] broken :=
  ⟨fun _ => h, fun v rest hcons => by cases hcons⟩

theorem congr (h : Reports vs broken) (hsame : ∀ p v, whole p v ↔ broken p v) :
    Reports vs whole := by
  obtain rfl : whole = broken := funext fun p => funext fun v => propext (hsame p v)
  exact h

/-- One constraint. -/
theorem single (c : Prop) [Decidable c] (p : Place) (v : Violation) :
    Reports (if c then [v] else []) fun p' v' => p' = p ∧ v' = v ∧ c where
  silent hnil p' v' hbroken := by
    rw [if_pos hbroken.2.2] at hnil
    cases hnil
  leads w rest hcons := by
    by_cases hc : c
    · rw [if_pos hc] at hcons
      obtain ⟨rfl, -⟩ := List.cons.inj hcons
      exact ⟨p, ⟨rfl, rfl, hc⟩, fun p' v' hbroken => Or.inl ⟨hbroken.1, hbroken.2.1⟩⟩
    · rw [if_neg hc] at hcons
      cases hcons

theorem singleNot (c : Bool) (p : Place) (v : Violation) :
    Reports (if c then [] else [v]) fun p' v' => p' = p ∧ v' = v ∧ c = false := by
  have h := single (c = false) p v
  cases c <;> exact h

/-- Constraints of which those of the second list all stand behind those of the first. -/
theorem append (hv : Reports vs broken) (hw : Reports ws broken')
    (hbefore : ∀ p v p' v', broken p v → broken' p' v' → p < p')
    (hsplit : ∀ p v, whole p v ↔ broken p v ∨ broken' p v) : Reports (vs ++ ws) whole where
  silent hnil p v hbroken := by
    obtain ⟨hvs, hws⟩ := List.append_eq_nil_iff.mp hnil
    rcases (hsplit p v).mp hbroken with h | h
    · exact hv.silent hvs p v h
    · exact hw.silent hws p v h
  leads v rest hcons := by
    cases vs with
    | nil =>
        obtain ⟨p, hp, hleast⟩ := hw.leads v rest hcons
        refine ⟨p, (hsplit p v).mpr (Or.inr hp), fun p' v' hbroken => ?_⟩
        rcases (hsplit p' v').mp hbroken with h | h
        · exact absurd h (hv.silent rfl p' v')
        · exact hleast p' v' h
    | cons x xs =>
        obtain ⟨rfl, -⟩ := List.cons.inj hcons
        obtain ⟨p, hp, hleast⟩ := hv.leads x xs rfl
        refine ⟨p, (hsplit p x).mpr (Or.inl hp), fun p' v' hbroken => ?_⟩
        rcases (hsplit p' v').mp hbroken with h | h
        · exact hleast p' v' h
        · exact Or.inr (hbefore p x p' v' hp h)

/-- Constraints that stand further in. -/
theorem within (h : Reports vs broken) (n : ℕ) :
    Reports vs fun p v => ∃ q, p = n :: q ∧ broken q v where
  silent hnil p v := by
    rintro ⟨q, -, hbroken⟩
    exact h.silent hnil q v hbroken
  leads v rest hcons := by
    obtain ⟨p, hp, hleast⟩ := h.leads v rest hcons
    refine ⟨n :: p, ⟨p, rfl, hp⟩, ?_⟩
    rintro p' v' ⟨q, rfl, hbroken⟩
    rcases hleast q v' hbroken with ⟨rfl, rfl⟩ | hlt
    · exact Or.inl ⟨rfl, rfl⟩
    · exact Or.inr (List.cons_lt_cons_iff.mpr (Or.inr ⟨rfl, hlt⟩))

section elements
variable {α : Type} {f : ℕ → α → List Violation} {broken : ℕ → α → Place → Violation → Prop}

/-- Constraints on the elements of a list that begins at an index. -/
theorem flatMap_zipIdx (h : ∀ i x, Reports (f i x) (broken i x)) (xs : List α) (n : ℕ) :
    Reports ((xs.zipIdx n).flatMap fun (x, i) => f i x) fun p v =>
      ∃ i x q, xs[i]? = some x ∧ p = (n + i) :: q ∧ broken (n + i) x q v := by
  induction xs generalizing n with
  | nil => exact nil fun p v ⟨i, x, q, hx, _⟩ => by simp at hx
  | cons x xs ih =>
      rw [List.zipIdx_cons, List.flatMap_cons]
      refine ((h n x).within n).append (ih (n + 1)) ?_ ?_
      · rintro p v p' v' ⟨q, rfl, -⟩ ⟨i, y, q', -, rfl, -⟩
        exact List.cons_lt_cons_iff.mpr (Or.inl (by omega))
      · intro p v
        constructor
        · rintro ⟨i, y, q, hy, rfl, hbroken⟩
          cases i with
          | zero =>
              obtain rfl := Option.some.inj hy
              exact Or.inl ⟨q, rfl, hbroken⟩
          | succ i =>
              rw [show n + (i + 1) = n + 1 + i by omega] at hbroken ⊢
              exact Or.inr ⟨i, y, q, hy, rfl, hbroken⟩
        · rintro (⟨q, rfl, hbroken⟩ | ⟨i, y, q, hy, rfl, hbroken⟩)
          · exact ⟨0, x, q, rfl, rfl, hbroken⟩
          · rw [show n + 1 + i = n + (i + 1) by omega] at hbroken ⊢
            exact ⟨i + 1, y, q, hy, rfl, hbroken⟩

/-- Constraints on the elements of a list. -/
theorem elements (h : ∀ i x, Reports (f i x) (broken i x)) (xs : List α) :
    Reports (xs.zipIdx.flatMap fun (x, i) => f i x) fun p v =>
      ∃ i x q, xs[i]? = some x ∧ p = i :: q ∧ broken i x q v := by
  simpa using flatMap_zipIdx h xs 0

end elements

theorem ofText (field text : String) (p : Place) :
    Reports (Violation.ofText field text) fun p' v => p' = p ∧ v = .emptyText field ∧ text = "" :=
  single (text = "") p (.emptyText field)

theorem ofTexts (field : ℕ → String) (texts : List String) :
    Reports (Violation.ofTexts field texts) fun p v =>
      ∃ i, p = [i] ∧ v = .emptyText (field i) ∧ texts[i]? = some "" := by
  refine (elements (fun i text => ofText (field i) text []) texts).congr fun p v => ?_
  constructor
  · rintro ⟨i, rfl, rfl, hempty⟩
    exact ⟨i, "", [], hempty, rfl, rfl, rfl, rfl⟩
  · rintro ⟨i, text, q, htext, rfl, rfl, rfl, rfl⟩
    exact ⟨i, rfl, rfl, htext⟩

/-! ### The violations of each kind -/

/-- A message of which the name alone is checked. -/
theorem ofName {m : Message}
    (hviolations : Violation.ofSubject m.view = Violation.ofText m.nameField m.name)
    (h : ∀ p v, m.Breaks p v → p = [0] ∧ v = .emptyText m.nameField ∧ m.name = "") :
    Reports (Violation.ofSubject m.view) m.Breaks := by
  rw [hviolations]
  refine (ofText m.nameField m.name [0]).congr fun p v => ⟨h p v, ?_⟩
  rintro ⟨rfl, rfl, hempty⟩
  exact .name hempty

theorem ofTimeout (timeout : Option Duration) :
    Reports (Violation.ofTimeout timeout) fun p v => p = [1] ∧ v = .timeoutNotPositive ∧
      ∃ d, timeout = some d ∧ (d.seconds < 0 ∨ (d.seconds = 0 ∧ d.nanos ≤ 0)) := by
  cases timeout with
  | none => exact nil fun p v ⟨_, _, d, hd, _⟩ => by cases hd
  | some d =>
      refine (single (d.seconds < 0 ∨ (d.seconds = 0 ∧ d.nanos ≤ 0)) [1] _).congr fun p v => ?_
      simp

theorem ofPort (port : Option ℕ) :
    Reports (Violation.ofPort port) fun p v =>
      p = [1] ∧ ∃ n, port = some n ∧ v = .portTooLarge n ∧ 65535 < n := by
  cases port with
  | none => exact nil fun p v ⟨_, n, hn, _⟩ => by cases hn
  | some n =>
      refine (single (Violation.maxPort < n) [1] (.portTooLarge n)).congr fun p v => ?_
      simp [Violation.maxPort]

theorem ofCluster (m : Cluster) : Reports (Violation.ofCluster m) (Message.cluster m).Breaks := by
  refine (ofText "Cluster.Name" m.name [0]).append (ofTimeout m.connectTimeout) ?_ fun p v => ?_
  · rintro p v p' v' ⟨rfl, -⟩ ⟨rfl, -⟩
    decide
  · constructor
    · intro h
      cases h with
      | name hname => exact Or.inl ⟨rfl, rfl, hname⟩
      | timeout hd h => exact Or.inr ⟨rfl, rfl, _, hd, h⟩
    · rintro (⟨rfl, rfl, hname⟩ | ⟨rfl, rfl, d, hd, h⟩)
      · exact .name (show (Message.cluster m).name = "" from hname)
      · exact .timeout hd h

theorem ofListener (m : Message.Listener) :
    Reports (Violation.ofListener m.view) (Message.listener m).Breaks := by
  have hhead := (ofText "Listener.Name" m.name [0]).append (ofPort m.port?)
    (by rintro p v p' v' ⟨rfl, -⟩ ⟨rfl, -⟩; decide) fun p v => Iff.rfl
  have hfilters := (elements (fun i names => ofTexts
    (fun j => s!"Listener.FilterChains[{i}].Filters[{j}].Name") names) m.view.filterNames).within 2
  refine hhead.append hfilters ?_ fun p v => ?_
  · rintro p v p' v' (⟨rfl, -⟩ | ⟨rfl, -⟩) ⟨q, rfl, -⟩ <;>
      exact List.cons_lt_cons_iff.mpr (Or.inl (by decide))
  · constructor
    · intro h
      cases h with
      | name hname => exact Or.inl (Or.inl ⟨rfl, rfl, hname⟩)
      | port hport h =>
          exact Or.inl (Or.inr ⟨rfl, _, Message.Listener.port?_eq_some_iff.mpr hport, rfl, h⟩)
      | filter i j hchain hfilter h =>
          obtain ⟨names, hnames, hname⟩ :=
            Message.Listener.unnamed_iff.mpr ⟨_, _, hchain, hfilter, h⟩
          exact Or.inr ⟨[i, j], rfl, i, names, [j], hnames, rfl, j, rfl, rfl, hname⟩
    · rintro ((⟨rfl, rfl, hname⟩ | ⟨rfl, n, hport, rfl, h⟩) |
        ⟨q, rfl, i, names, q', hnames, rfl, j, rfl, rfl, h⟩)
      · exact .name (show (Message.listener m).name = "" from hname)
      · exact .port (Message.Listener.port?_eq_some_iff.mp hport) h
      · obtain ⟨chain, filter, hchain, hfilter, hempty⟩ :=
          Message.Listener.unnamed_iff.mp ⟨names, hnames, h⟩
        exact .filter i j hchain hfilter hempty

theorem ofVirtualHost (field : String) (m : VirtualHost) :
    Reports (Violation.ofVirtualHost field m) (m.Breaks field) := by
  have hhead := (ofText (field ++ ".Name") m.name [0]).append
    (single (m.domains = []) [1] (.noItems (field ++ ".Domains")))
    (by rintro p v p' v' ⟨rfl, -⟩ ⟨rfl, -⟩; decide) fun p v => Iff.rfl
  have hdomains := (ofTexts (fun j => field ++ s!".Domains[{j}]") m.domains).within 2
  refine hhead.append hdomains ?_ fun p v => ?_
  · rintro p v p' v' (⟨rfl, -⟩ | ⟨rfl, -⟩) ⟨q, rfl, -⟩ <;>
      exact List.cons_lt_cons_iff.mpr (Or.inl (by decide))
  · constructor
    · intro h
      cases h with
      | name hname => exact Or.inl (Or.inl ⟨rfl, rfl, hname⟩)
      | noDomains h => exact Or.inl (Or.inr ⟨rfl, rfl, h⟩)
      | domain i h => exact Or.inr ⟨[i], rfl, i, rfl, rfl, h⟩
    · rintro ((⟨rfl, rfl, hname⟩ | ⟨rfl, rfl, h⟩) | ⟨q, rfl, i, rfl, rfl, h⟩)
      · exact .name hname
      · exact .noDomains h
      · exact .domain i h

theorem ofRouteConfiguration (m : RouteConfiguration) :
    Reports (Violation.ofRouteConfiguration m) (Message.routeConfiguration m).Breaks := by
  have hhosts := (elements (fun i host =>
    ofVirtualHost s!"RouteConfiguration.VirtualHosts[{i}]" host) m.virtualHosts).within 1
  refine (ofText "RouteConfiguration.Name" m.name [0]).append hhosts ?_ fun p v => ?_
  · rintro p v p' v' ⟨rfl, -⟩ ⟨q, rfl, -⟩
    exact List.cons_lt_cons_iff.mpr (Or.inl (by decide))
  · constructor
    · intro h
      cases h with
      | name hname => exact Or.inl ⟨rfl, rfl, hname⟩
      | host i hhost h => exact Or.inr ⟨_, rfl, i, _, _, hhost, rfl, h⟩
    · rintro (⟨rfl, rfl, hname⟩ | ⟨q, rfl, i, host, q', hhost, rfl, h⟩)
      · exact .name (show (Message.routeConfiguration m).name = "" from hname)
      · exact .host i hhost h

theorem ofFragments (m : Message.ScopedRoute) :
    Reports (Violation.ofFragments m.view.fragments) fun p v =>
      (p = [2] ∧ v = .missing "ScopedRouteConfiguration.Key" ∧ m.key = none) ∨
      (p = [3] ∧ v = .noItems "ScopedRouteConfiguration.Key.Fragments" ∧
        ∃ key, m.key = some key ∧ key.fragments = []) ∨
      ∃ i key fragment, p = [4, i] ∧
        v = .missing s!"ScopedRouteConfiguration.Key.Fragments[{i}]" ∧ m.key = some key ∧
        key.fragments[i]? = some fragment ∧ fragment.type = none := by
  unfold Message.ScopedRoute.view
  cases hkey : m.key with
  | none =>
      refine (single True [2] (.missing "ScopedRouteConfiguration.Key")).congr fun p v => ?_
      simp
  | some key =>
      obtain ⟨fragments⟩ := key
      cases fragments with
      | nil =>
          refine (single True [3]
            (.noItems "ScopedRouteConfiguration.Key.Fragments")).congr fun p v => ?_
          simp
      | cons first rest =>
          have htyped := (elements (fun i typed => singleNot typed []
            (.missing s!"ScopedRouteConfiguration.Key.Fragments[{i}]"))
            ((first :: rest).map fun fragment => fragment.type.isSome)).within 4
          refine htyped.congr fun p v => ?_
          constructor
          · rintro (⟨-, -, h⟩ | ⟨-, -, key, hkey, h⟩ |
              ⟨i, key, fragment, rfl, rfl, hkey, hfragment, h⟩)
            · cases h
            · obtain rfl := Option.some.inj hkey
              cases h
            · obtain rfl := Option.some.inj hkey
              refine ⟨[i], rfl, i, false, [], ?_, rfl, rfl, rfl, rfl⟩
              rw [List.getElem?_map, hfragment, Option.map_some, h, Option.isSome_none]
          · rintro ⟨q, rfl, i, typed, q', h, rfl, rfl, rfl, rfl⟩
            rw [List.getElem?_map] at h
            obtain ⟨fragment, hfragment, htype⟩ := Option.map_eq_some_iff.mp h
            have hnone : fragment.type = none :=
              Option.isNone_iff_eq_none.mp (Option.isSome_eq_false_iff.mp htype)
            exact Or.inr (Or.inr ⟨i, _, fragment, rfl, rfl, rfl, hfragment, hnone⟩)

theorem ofScopedRoute (m : Message.ScopedRoute) :
    Reports (Violation.ofScopedRoute m.view) (Message.scopedRoute m).Breaks := by
  have hnames := (ofText "ScopedRouteConfiguration.Name" m.name [0]).append
    (ofText "ScopedRouteConfiguration.RouteConfigurationName" m.routeConfigurationName [1])
    (by rintro p v p' v' ⟨rfl, -⟩ ⟨rfl, -⟩; decide) fun p v => Iff.rfl
  refine hnames.append (ofFragments m) ?_ fun p v => ?_
  · rintro p v p' v' (⟨rfl, -⟩ | ⟨rfl, -⟩) (⟨rfl, -⟩ | ⟨rfl, -⟩ | ⟨i, key, fragment, rfl, -⟩) <;>
      exact List.cons_lt_cons_iff.mpr (Or.inl (by decide))
  · constructor
    · intro h
      cases h with
      | name hname => exact Or.inl (Or.inl ⟨rfl, rfl, hname⟩)
      | routeConfigurationName h => exact Or.inl (Or.inr ⟨rfl, rfl, h⟩)
      | noKey h => exact Or.inr (Or.inl ⟨rfl, rfl, h⟩)
      | noFragments hkey h => exact Or.inr (Or.inr (Or.inl ⟨rfl, rfl, _, hkey, h⟩))
      | fragment i hkey hfragment h =>
          exact Or.inr (Or.inr (Or.inr ⟨i, _, _, rfl, rfl, hkey, hfragment, h⟩))
    · rintro ((⟨rfl, rfl, hname⟩ | ⟨rfl, rfl, h⟩) | ⟨rfl, rfl, h⟩ | ⟨rfl, rfl, key, hkey, h⟩ |
        ⟨i, key, fragment, rfl, rfl, hkey, hfragment, h⟩)
      · exact .name (show (Message.scopedRoute m).name = "" from hname)
      · exact .routeConfigurationName h
      · exact .noKey h
      · exact .noFragments hkey h
      · exact .fragment i hkey hfragment h

end Reports

/-- The violations of a message begin with that of the first constraint that it breaks. -/
theorem Message.reports (m : Message) : Reports (Violation.ofSubject m.view) m.Breaks := by
  cases m with
  | cluster m => exact .ofCluster m
  | listener m => exact .ofListener m
  | routeConfiguration m => exact .ofRouteConfiguration m
  | scopedRoute m => exact .ofScopedRoute m
  | clusterLoadAssignment m | runtime m | secret m =>
      refine .ofName rfl fun p v h => ?_
      cases h with
      | name h => exact ⟨rfl, rfl, h⟩
  | virtualHost m =>
      refine (Reports.ofVirtualHost "VirtualHost" m).congr fun p v => ⟨fun h => ?_, .virtualHost⟩
      cases h with
      | name h => exact .name h
      | virtualHost h => exact h

/-! ### Acceptable messages -/

theorem VirtualHost.acceptable_iff {m : VirtualHost} (field : String) :
    m.Acceptable ↔ ∀ p v, ¬ m.Breaks field p v := by
  constructor
  · rintro ⟨hname, hdomains, hdomain⟩ p v h
    cases h with
    | name h => exact hname h
    | noDomains h => exact hdomains h
    | domain i h => exact hdomain "" (List.mem_of_getElem? h) rfl
  · intro h
    refine ⟨fun hname => h _ _ (.name hname), fun hnone => h _ _ (.noDomains hnone), ?_⟩
    rintro domain hdomain rfl
    obtain ⟨i, hi⟩ := List.mem_iff_getElem?.mp hdomain
    exact h _ _ (.domain i hi)

namespace Message

theorem listener_acceptable_iff {m : Listener} :
    m.Acceptable ↔ ∀ p v, ¬ (listener m).Breaks p v := by
  constructor
  · rintro ⟨hname, hport, hfilter⟩ p v h
    cases h with
    | name h => exact hname h
    | port hnumber h => exact absurd (hport _ hnumber) (by omega)
    | filter i j hchain hin h =>
        exact hfilter _ (List.mem_of_getElem? hchain) _ (List.mem_of_getElem? hin) h
  · intro h
    refine ⟨fun hname => h _ _ (.name hname), fun number hnumber => ?_, ?_⟩
    · by_contra hlarge
      exact h _ _ (.port hnumber (by omega))
    · intro chain hchain filter hin hempty
      obtain ⟨i, hi⟩ := List.mem_iff_getElem?.mp hchain
      obtain ⟨j, hj⟩ := List.mem_iff_getElem?.mp hin
      exact h _ _ (.filter i j hi hj hempty)

theorem cluster_acceptable_iff {m : Cluster} :
    m.Acceptable ↔ ∀ p v, ¬ (cluster m).Breaks p v := by
  constructor
  · rintro ⟨hname, htimeout⟩ p v h
    cases h with
    | name h => exact hname h
    | timeout heq h =>
        have := htimeout _ heq
        omega
  · intro h
    refine ⟨fun hname => h _ _ (.name hname), fun d heq => ?_⟩
    by_contra hbad
    exact h _ _ (.timeout heq (by omega))

theorem routeConfiguration_acceptable_iff {m : RouteConfiguration} :
    m.Acceptable ↔ ∀ p v, ¬ (routeConfiguration m).Breaks p v := by
  constructor
  · rintro ⟨hname, hhosts⟩ p v h
    cases h with
    | name h => exact hname h
    | host i hhost h =>
        have hhostOk := hhosts _ (List.mem_of_getElem? hhost)
        exact (VirtualHost.acceptable_iff _).mp hhostOk _ _ h
  · intro h
    refine ⟨fun hname => h _ _ (.name hname), fun host hhost => ?_⟩
    obtain ⟨i, hi⟩ := List.mem_iff_getElem?.mp hhost
    exact (VirtualHost.acceptable_iff _).mpr fun p v hbroken => h _ _ (.host i hi hbroken)

theorem scopedRoute_acceptable_iff {m : ScopedRoute} :
    m.Acceptable ↔ ∀ p v, ¬ (scopedRoute m).Breaks p v := by
  constructor
  · rintro ⟨hname, hroute, key, hkey, hsome, htyped⟩ p v h
    cases h with
    | name h => exact hname h
    | routeConfigurationName h => exact hroute h
    | noKey h => rw [hkey] at h; cases h
    | noFragments heq h =>
        obtain rfl := Option.some.inj (hkey.symm.trans heq)
        exact hsome h
    | fragment i heq hin h =>
        obtain rfl := Option.some.inj (hkey.symm.trans heq)
        exact htyped _ (List.mem_of_getElem? hin) h
  · intro h
    refine ⟨fun hname => h _ _ (.name hname), fun hroute => h _ _ (.routeConfigurationName hroute), ?_⟩
    cases hkey : m.key with
    | none => exact (h _ _ (.noKey hkey)).elim
    | some key =>
        refine ⟨key, rfl, fun hnone => h _ _ (.noFragments hkey hnone), fun fragment hin htype => ?_⟩
        obtain ⟨i, hi⟩ := List.mem_iff_getElem?.mp hin
        exact h _ _ (.fragment i hkey hi htype)

/-- A message is acceptable if it breaks no constraint. -/
theorem acceptable_iff {m : Message} : m.Acceptable ↔ ∀ p v, ¬ m.Breaks p v := by
  cases m with
  | cluster m => exact cluster_acceptable_iff
  | listener m => exact listener_acceptable_iff
  | routeConfiguration m => exact routeConfiguration_acceptable_iff
  | scopedRoute m => exact scopedRoute_acceptable_iff
  | clusterLoadAssignment m | runtime m | secret m =>
      refine ⟨fun hname p v h => ?_, fun h hname => h _ _ (.name hname)⟩
      cases h with
      | name h => exact hname h
  | virtualHost m =>
      refine (VirtualHost.acceptable_iff "VirtualHost").trans
        ⟨fun hhost p v h => ?_, fun h p v hbroken => ?_⟩
      · cases h with
        | name h => exact hhost _ _ (.name h)
        | virtualHost h => exact hhost p v h
      · exact h p v (.virtualHost hbroken)

theorem ofSubject_view_eq_nil_iff {m : Message} :
    Violation.ofSubject m.view = [] ↔ m.Acceptable := by
  rw [acceptable_iff]
  refine ⟨m.reports.silent, fun h => ?_⟩
  cases hviolations : Violation.ofSubject m.view with
  | nil => rfl
  | cons v rest =>
      obtain ⟨p, hp, -⟩ := m.reports.leads v rest hviolations
      exact (h p v hp).elim

theorem check_view_eq_ok_iff {m : Message} : check m.view = .ok () ↔ m.Acceptable := by
  rw [← ofSubject_view_eq_nil_iff]
  cases hviolations : Violation.ofSubject m.view with
  | nil => exact ⟨fun _ => rfl, fun _ => check_of_nil hviolations⟩
  | cons v rest =>
      rw [check_of_cons hviolations]
      exact ⟨fun h => (by cases h), fun h => (by cases h)⟩

/-- What the check answers: the first violation, if there is one. -/
theorem check_view_eq_error_iff {m : Message} {e : Rejection} :
    check m.view = .error e ↔ ∃ v, First m.Breaks v ∧ e = .failedValidation v := by
  cases hviolations : Violation.ofSubject m.view with
  | nil =>
      rw [check_of_nil hviolations]
      constructor
      · intro h
        cases h
      · rintro ⟨v, ⟨p, hp, -⟩, -⟩
        exact (m.reports.silent hviolations p v hp).elim
  | cons v rest =>
      rw [check_of_cons hviolations]
      have hfirst := m.reports.leads v rest hviolations
      constructor
      · intro h
        exact ⟨v, hfirst, (Except.error.inj h).symm⟩
      · rintro ⟨v', hfirst', rfl⟩
        rw [hfirst.unique hfirst']

end Message

/-! ### The verdict on a message -/

namespace Validator

/-- How a validator judges what it has decoded. -/
structure JudgesInOrder (v : Validator) (read : Reader) : Prop where
  /-- A message that keeps all constraints is accepted under its own name. -/
  accepted : ∀ typeUrl type bytes record, MessageType.parse? typeUrl = some type →
    read type bytes = .ok record →
    ((∃ r, v.validate type.kind ⟨typeUrl, bytes⟩ = .ok r) ↔
      (Message.ofRecord type.kind record).Acceptable) ∧
    ∀ r, v.validate type.kind ⟨typeUrl, bytes⟩ = .ok r →
      r.envoyName = (Message.ofRecord type.kind record).name
  /-- Any other is rejected with the text of the first violation. -/
  rejected : ∀ typeUrl type bytes record e, MessageType.parse? typeUrl = some type →
    read type bytes = .ok record →
    (v.validate type.kind ⟨typeUrl, bytes⟩ = .error e ↔
      ∃ violation, First (Message.ofRecord type.kind record).Breaks violation ∧
        e = .failedValidation violation)
  /-- Messages of both protocols that agree on what is checked come to the same: to the same name, or
  to the same reason and text. -/
  alike : ∀ kind typeUrl₂ typeUrl₃ bytes₂ bytes₃ record₂ record₃,
    MessageType.parse? typeUrl₂ = some ⟨.v2, kind⟩ →
    MessageType.parse? typeUrl₃ = some ⟨.v3, kind⟩ →
    read ⟨.v2, kind⟩ bytes₂ = .ok record₂ → read ⟨.v3, kind⟩ bytes₃ = .ok record₃ →
    (Message.ofRecord kind record₂).Agree (Message.ofRecord kind record₃) →
    (v.validate kind ⟨typeUrl₂, bytes₂⟩).map (·.envoyName) =
      (v.validate kind ⟨typeUrl₃, bytes₃⟩).map (·.envoyName)

section judging
variable {read : Reader} {typeUrl : String} {type : MessageType} {bytes : Bytes}
  {record : Wire.Record}

/-- The check of what was decoded decides, and the name is the one that was decoded. -/
theorem validate_of_decoded (hparse : MessageType.parse? typeUrl = some type)
    (hread : read type bytes = .ok record) :
    (assemble read).validate type.kind ⟨typeUrl, bytes⟩ =
      (check (.ofRecord type.kind record)).map fun _ =>
        ⟨type.kind, type.protocol, type.url, (Subject.ofRecord type.kind record).name, bytes⟩ := by
  rw [validate_of_parse? hparse, checker_of_ok hread]
  cases check (.ofRecord type.kind record) <;> rfl

/-- The name or the rejection, for messages of any protocol. -/
theorem envoyName_of_decoded (hparse : MessageType.parse? typeUrl = some type)
    (hread : read type bytes = .ok record) :
    ((assemble read).validate type.kind ⟨typeUrl, bytes⟩).map (·.envoyName) =
      (check (.ofRecord type.kind record)).map fun _ => (Subject.ofRecord type.kind record).name := by
  rw [validate_of_decoded hparse hread]
  cases check (.ofRecord type.kind record) <;> rfl

end judging

/-- Whatever decodes the messages: one that was decoded is accepted if and only if it is acceptable, and
if it is rejected, the rejection is that of the first constraint that it breaks, with its indices.  A
message of the older and one of the newer protocol that agree on what is checked come to the same.
The validator that runs is the one that decodes the wire format. -/
theorem assemble_judges [NewerMessages] :
    (∀ kind payload, ControlPlane.validate kind payload =
      (assemble wireReader).validate kind payload) ∧
    ∀ read, (assemble read).JudgesInOrder read := by
  refine ⟨validate_eq_assemble, fun read => ⟨?_, ?_, ?_⟩⟩
  · intro typeUrl type bytes record hparse hread
    rw [validate_of_decoded hparse hread, ← Message.view_ofRecord, Message.name_view,
      ← Message.check_view_eq_ok_iff]
    refine ⟨⟨fun ⟨r, hr⟩ => ?_, fun hcheck => ⟨_, map_eq_ok_iff.mpr ⟨(), hcheck, rfl⟩⟩⟩,
      fun r hr => ?_⟩
    · obtain ⟨_, hcheck, -⟩ := map_eq_ok_iff.mp hr
      exact hcheck
    · obtain ⟨_, -, rfl⟩ := map_eq_ok_iff.mp hr
      rfl
  · intro typeUrl type bytes record e hparse hread
    rw [validate_of_decoded hparse hread, map_eq_error_iff, ← Message.view_ofRecord]
    exact Message.check_view_eq_error_iff
  · intro kind typeUrl₂ typeUrl₃ bytes₂ bytes₃ record₂ record₃ hparse₂ hparse₃ hread₂ hread₃ hagree
    rw [envoyName_of_decoded hparse₂ hread₂, envoyName_of_decoded hparse₃ hread₃,
      ← Message.view_ofRecord, ← Message.view_ofRecord, hagree.view_eq]

/-- A payload is rejected for the first constraint that its message breaks, with a text. -/
def RejectedFor [NewerMessages] (type : MessageType) (bytes : Bytes) (violation : Violation)
    (text : String) : Prop :=
  ∃ record, wireReader type bytes = .ok record ∧
    First (Message.ofRecord type.kind record).Breaks violation ∧
    ControlPlane.validate type.kind ⟨type.url, bytes⟩ = .error (.failedValidation violation) ∧
    violation.message = text

/-- A judge in order has found the first one. -/
theorem JudgesInOrder.rejectedFor [NewerMessages] {type : MessageType} {bytes : Bytes}
    {record : Wire.Record} {violation : Violation}
    (h : (assemble wireReader).JudgesInOrder wireReader) (hread : wireReader type bytes = .ok record)
    (hcheck : check (.ofRecord type.kind record) = .error (.failedValidation violation)) :
    RejectedFor type bytes violation violation.message := by
  have herror : (assemble wireReader).validate type.kind ⟨type.url, bytes⟩ =
      .error (.failedValidation violation) := by
    rw [validate_of_decoded type.parse?_url hread, hcheck]
    rfl
  obtain ⟨violation', hfirst, hsame⟩ := (h.rejected _ _ _ _ _ type.parse?_url hread).mp herror
  obtain rfl := Rejection.failedValidation.inj hsame
  exact ⟨record, hread, hfirst, (validate_eq_assemble _ _).trans herror, rfl⟩

/-- A listener with two filter chains, one with a filter `x`, one with a filter `y` and another that has
no name. -/
def namelessFilter : Bytes :=
  [0x0a, 1, 0x61, 0x1a, 5, 0x1a, 3, 0x0a, 1, 0x78, 0x1a, 7, 0x1a, 3, 0x0a, 1, 0x79, 0x1a, 0]

/-- A listener on port 70000, with a filter that has no name. -/
def largePort : Bytes :=
  [0x0a, 1, 0x61, 0x12, 6, 0x0a, 4, 0x18, 0xf0, 0xa2, 0x04, 0x1a, 2, 0x1a, 0]

/-- A route configuration with two virtual hosts, of which the second has an empty domain behind
another one. -/
def emptyDomain : Bytes :=
  [0x0a, 1, 0x72, 0x12, 6, 0x0a, 1, 0x68, 0x12, 1, 0x2a, 0x12, 8, 0x0a, 1, 0x69, 0x12, 1, 0x2a, 0x12, 0]

/-- A scoped route whose key has two fragments, the second without a type. -/
def typelessFragment : Bytes :=
  [0x0a, 1, 0x73, 0x12, 1, 0x72, 0x1a, 7, 0x0a, 3, 0x0a, 1, 0x6b, 0x0a, 0]

/-- A listener on a socket with a named port. -/
def namedPort : Bytes := [0x0a, 1, 0x61, 0x12, 5, 0x0a, 3, 0x22, 1, 0x70]

/-- A listener on a pipe. -/
def onPipe : Bytes := [0x0a, 1, 0x61, 0x12, 4, 0x12, 2, 0x0a, 0]

/-- Each constraint is reported with its place, a large port before a filter without a name.  Where
there is no numeric port, the address does not matter. -/
theorem judged_by_place :
    RejectedFor ⟨.v3, .listener⟩ namelessFilter
        (.emptyText "Listener.FilterChains[1].Filters[1].Name")
        "invalid Listener.FilterChains[1].Filters[1].Name: value length must be at least 1 runes" ∧
      RejectedFor ⟨.v2, .listener⟩ largePort (.portTooLarge 70000)
        ("invalid Listener.Address: invalid SocketAddress.PortValue: " ++
          "value 70000 must be less than or equal to 65535") ∧
      RejectedFor ⟨.v3, .routeConfiguration⟩ emptyDomain
        (.emptyText "RouteConfiguration.VirtualHosts[1].Domains[1]")
        "invalid RouteConfiguration.VirtualHosts[1].Domains[1]: value length must be at least 1 runes" ∧
      RejectedFor ⟨.v2, .scopedRouteConfiguration⟩ typelessFragment
        (.missing "ScopedRouteConfiguration.Key.Fragments[1]")
        "invalid ScopedRouteConfiguration.Key.Fragments[1]: value is required" ∧
      (∃ r, ControlPlane.validate .listener ⟨"envoy.api.v2.Listener", namedPort⟩ = .ok r ∧
        r.envoyName = "a") ∧
      (ControlPlane.validate .listener ⟨"envoy.api.v2.Listener", namedPort⟩).map (·.envoyName) =
        (ControlPlane.validate .listener ⟨"envoy.config.listener.v3.Listener", onPipe⟩).map
          (·.envoyName) := by
  obtain ⟨hruns, hjudges⟩ := assemble_judges
  have hplace := hjudges wireReader
  have hfilter : wireReader ⟨.v3, .listener⟩ namelessFilter =
      .ok [(1, .text "a"), (3, .record [(3, .record [(1, .text "x")])]),
        (3, .record [(3, .record [(1, .text "y")]), (3, .record [])])] := rfl
  have hport : wireReader ⟨.v2, .listener⟩ largePort =
      .ok [(1, .text "a"), (2, .record [(1, .record [(3, .varint 70000)])]),
        (3, .record [(3, .record [])])] := rfl
  have hdomain : wireReader ⟨.v3, .routeConfiguration⟩ emptyDomain =
      .ok [(1, .text "r"), (2, .record [(1, .text "h"), (2, .text "*")]),
        (2, .record [(1, .text "i"), (2, .text "*"), (2, .text "")])] := rfl
  have hfragment : wireReader ⟨.v2, .scopedRouteConfiguration⟩ typelessFragment =
      .ok [(1, .text "s"), (2, .text "r"),
        (3, .record [(1, .record [(1, .text "k")]), (1, .record [])])] := rfl
  have hparse₂ : MessageType.parse? "envoy.api.v2.Listener" = some ⟨.v2, .listener⟩ := by
    decide +kernel
  have hparse₃ : MessageType.parse? "envoy.config.listener.v3.Listener" = some ⟨.v3, .listener⟩ := by
    decide +kernel
  have hread₂ : wireReader ⟨.v2, .listener⟩ namedPort =
      .ok [(1, .text "a"), (2, .record [(1, .record [(4, .text "p")])])] := rfl
  have hread₃ : wireReader ⟨.v3, .listener⟩ onPipe =
      .ok [(1, .text "a"), (2, .record [(2, .record [(1, .text "")])])] := rfl
  refine ⟨hplace.rejectedFor hfilter rfl, hplace.rejectedFor hport rfl,
    hplace.rejectedFor hdomain rfl, hplace.rejectedFor hfragment rfl, ?_, ?_⟩
  · obtain ⟨hiff, hname⟩ := hplace.accepted _ _ _ _ hparse₂ hread₂
    have hsmall : ∀ number,
        Message.Listener.HasPort ⟨"a", some ⟨some (.socket ⟨some (.named "p")⟩)⟩, []⟩ number →
          number ≤ 65535 :=
      fun number hnumber => nomatch Message.Listener.port?_eq_some_iff.mpr hnumber
    obtain ⟨r, hr⟩ := hiff.mpr ⟨by decide, hsmall, fun chain hchain => nomatch hchain⟩
    exact ⟨r, (hruns _ _).trans hr, hname r hr⟩
  · rw [hruns, hruns]
    refine hplace.alike .listener _ _ _ _ _ _ hparse₂ hparse₃ hread₂ hread₃
      (.listener ⟨rfl, fun number => ?_, .nil⟩)
    rw [← Message.Listener.port?_eq_some_iff, ← Message.Listener.port?_eq_some_iff]
    rfl

end Validator
end ControlPlane.Validation
