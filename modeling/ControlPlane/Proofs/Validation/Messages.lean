import ControlPlane.Validation.Subject
import Mathlib.Data.List.Forall2
import Mathlib.Data.List.Induction
import Mathlib.Data.Option.Basic

/-! # Messages, field by field

Bytes are decoded to the list of the fields of a message, and validation picks what it checks out of
that list (`Subject.ofRecord`).  Here is the message itself (`Message`).  It begins empty and takes up
one field after the other (`Merges.take`): a scalar replaces the one before, an element of a list goes
to its end, a nested message takes up the parts that come for it, and a choice takes up more of the
member that it holds and is replaced by any other member.  A field whose value is not of its type
changes nothing.

What is picked out of the fields is what stands in the message in the end (`Message.view_ofRecord`).
Each way to pick has a law for a record that is one field longer (`text_concat` to `choice?_concat`),
and from it one for the message, by induction on the record from its end (`text_ofRecord` to
`Address.member_ofRecord`).  Messages that agree on what is checked look the same to validation, whatever
else they hold (`Message.Agree.view_eq`). -/

namespace ControlPlane.Validation

open Wire (Record FieldValue)

/-- A message that takes up its fields one by one. -/
class Merges (σ : Type) where
  empty : σ
  take : σ → ℕ × FieldValue → σ

namespace Merges
variable {σ : Type} [Merges σ]

def merge (m : σ) (r : Record) : σ := r.foldl take m

def ofRecord (r : Record) : σ := merge empty r

theorem merge_append (m : σ) (r r' : Record) : merge m (r ++ r') = merge (merge m r) r' :=
  List.foldl_append

theorem ofRecord_concat (r : Record) (f : ℕ × FieldValue) :
    (ofRecord (r ++ [f]) : σ) = take (ofRecord r) f := merge_append empty r [f]

end Merges

open Merges

/-! ### The messages -/

/-- The integers keep as many bits as their types have. -/
instance : Merges Duration where
  empty := ⟨0, 0⟩
  take m
    | (1, .varint n) => { m with seconds := (BitVec.ofNat 64 n).toInt }
    | (2, .varint n) => { m with nanos := (BitVec.ofNat 32 n).toInt }
    | _ => m

instance : Merges Cluster where
  empty := ⟨"", none⟩
  take m
    | (1, .text name) => { m with name }
    | (4, .record parts) =>
      { m with connectTimeout := some (merge (m.connectTimeout.getD empty) parts) }
    | _ => m

instance : Merges VirtualHost where
  empty := ⟨"", []⟩
  take m
    | (1, .text name) => { m with name }
    | (2, .text domain) => { m with domains := m.domains ++ [domain] }
    | _ => m

instance : Merges RouteConfiguration where
  empty := ⟨"", []⟩
  take m
    | (1, .text name) => { m with name }
    | (2, .record host) => { m with virtualHosts := m.virtualHosts ++ [ofRecord host] }
    | _ => m

namespace Message

/-- A message of which no more than the name is checked. -/
structure Named where
  name : String

instance : Merges Named where
  empty := ⟨""⟩
  take m
    | (1, .text name) => { m with name }
    | _ => m

inductive Port where
  | value (number : ℕ)
  | named (name : String)

structure Socket where
  port : Option Port

instance : Merges Socket where
  empty := ⟨none⟩
  take m
    | (3, .varint n) => { m with port := some (.value (BitVec.ofNat 32 n).toNat) }
    | (4, .text name) => { m with port := some (.named name) }
    | _ => m

inductive Member where
  | socket (socket : Socket)
  | pipe
  | internal

/-- An address, with the member that its choice holds. -/
structure Address where
  member : Option Member

/-- What a socket has taken up, if it is the member. -/
def Address.socket? (m : Address) : Option Socket :=
  match m.member with
  | some (.socket socket) => some socket
  | _ => none

instance : Merges Address where
  empty := ⟨none⟩
  take m
    | (1, .record parts) => { m with member := some (.socket (merge (m.socket?.getD empty) parts)) }
    | (2, .record _) => { m with member := some .pipe }
    | (3, .record _) => { m with member := some .internal }
    | _ => m

/-- A chain of filters, which are known by their names. -/
structure FilterChain where
  filters : List Named

instance : Merges FilterChain where
  empty := ⟨[]⟩
  take m
    | (3, .record filter) => { m with filters := m.filters ++ [ofRecord filter] }
    | _ => m

structure Listener where
  name : String
  address : Option Address
  filterChains : List FilterChain

instance : Merges Listener where
  empty := ⟨"", none, []⟩
  take m
    | (1, .text name) => { m with name }
    | (2, .record parts) => { m with address := some (merge (m.address.getD empty) parts) }
    | (3, .record chain) => { m with filterChains := m.filterChains ++ [ofRecord chain] }
    | _ => m

structure Fragment where
  type : Option String

instance : Merges Fragment where
  empty := ⟨none⟩
  take m
    | (1, .text key) => { m with type := some key }
    | _ => m

structure Key where
  fragments : List Fragment

instance : Merges Key where
  empty := ⟨[]⟩
  take m
    | (1, .record fragment) => { m with fragments := m.fragments ++ [ofRecord fragment] }
    | _ => m

structure ScopedRoute where
  name : String
  routeConfigurationName : String
  key : Option Key

instance : Merges ScopedRoute where
  empty := ⟨"", "", none⟩
  take m
    | (1, .text name) => { m with name }
    | (2, .text name) => { m with routeConfigurationName := name }
    | (3, .record parts) => { m with key := some (merge (m.key.getD empty) parts) }
    | _ => m

end Message

/-- A decoded message. -/
inductive Message where
  | cluster (message : Cluster)
  | clusterLoadAssignment (message : Message.Named)
  | listener (message : Message.Listener)
  | routeConfiguration (message : RouteConfiguration)
  | runtime (message : Message.Named)
  | scopedRoute (message : Message.ScopedRoute)
  | secret (message : Message.Named)
  | virtualHost (message : VirtualHost)

namespace Message

/-- The message of a kind that has taken up the fields of a record. -/
def ofRecord (kind : Kind) (r : Record) : Message :=
  match kind with
  | .cluster => .cluster (Merges.ofRecord r)
  | .clusterLoadAssignment => .clusterLoadAssignment (Merges.ofRecord r)
  | .listener => .listener (Merges.ofRecord r)
  | .routeConfiguration => .routeConfiguration (Merges.ofRecord r)
  | .runtime => .runtime (Merges.ofRecord r)
  | .scopedRouteConfiguration => .scopedRoute (Merges.ofRecord r)
  | .secret => .secret (Merges.ofRecord r)
  | .virtualHost => .virtualHost (Merges.ofRecord r)

def name : Message → String
  | cluster m => m.name
  | clusterLoadAssignment m => m.name
  | listener m => m.name
  | routeConfiguration m => m.name
  | runtime m => m.name
  | scopedRoute m => m.name
  | secret m => m.name
  | virtualHost m => m.name

/-! ### What is checked of a message -/

def Socket.number? (m : Socket) : Option ℕ :=
  match m.port with
  | some (.value number) => some number
  | _ => none

theorem Socket.number?_eq_some_iff {m : Socket} {number : ℕ} :
    m.number? = some number ↔ m.port = some (.value number) := by
  unfold number?
  split <;> simp_all

theorem Address.socket?_eq_some_iff {m : Address} {socket : Socket} :
    m.socket? = some socket ↔ m.member = some (.socket socket) := by
  unfold socket?
  split <;> simp_all

/-- The numeric port of a listener whose address is a socket address. -/
def Listener.port? (m : Listener) : Option ℕ :=
  (m.address.bind Address.socket?).bind Socket.number?

/-- The address is a socket address, and its port is given as this number. -/
def Listener.HasPort (m : Listener) (number : ℕ) : Prop :=
  ∃ address socket, m.address = some address ∧ address.member = some (.socket socket) ∧
    socket.port = some (.value number)

theorem Listener.port?_eq_some_iff {m : Listener} {number : ℕ} :
    m.port? = some number ↔ m.HasPort number := by
  unfold port? HasPort
  simp only [Option.bind_eq_some_iff, Address.socket?_eq_some_iff, Socket.number?_eq_some_iff]
  constructor
  · rintro ⟨socket, ⟨address, haddress, hsocket⟩, hport⟩
    exact ⟨address, socket, haddress, hsocket, hport⟩
  · rintro ⟨address, socket, haddress, hsocket, hport⟩
    exact ⟨socket, ⟨address, haddress, hsocket⟩, hport⟩

/-- What validation sees of a listener. -/
def Listener.view (m : Listener) : Validation.Listener where
  name := m.name
  port := m.port?
  filterNames := m.filterChains.map fun chain => chain.filters.map Named.name

/-- A filter without a name, where validation sees it. -/
theorem Listener.unnamed_iff {m : Listener} {i j : ℕ} :
    (∃ names, m.view.filterNames[i]? = some names ∧ names[j]? = some "") ↔
      ∃ chain filter, m.filterChains[i]? = some chain ∧ chain.filters[j]? = some filter ∧
        filter.name = "" := by
  unfold view
  simp only [List.getElem?_map, Option.map_eq_some_iff]
  constructor
  · rintro ⟨names, ⟨chain, hchain, rfl⟩, hname⟩
    obtain ⟨filter, hfilter, hempty⟩ := Option.map_eq_some_iff.mp (List.getElem?_map ▸ hname)
    exact ⟨chain, filter, hchain, hfilter, hempty⟩
  · rintro ⟨chain, filter, hchain, hfilter, hempty⟩
    exact ⟨_, ⟨chain, hchain, rfl⟩, by simp [hfilter, hempty]⟩

def ScopedRoute.view (m : ScopedRoute) : Validation.ScopedRoute where
  name := m.name
  routeConfigurationName := m.routeConfigurationName
  fragments := m.key.map fun key => key.fragments.map fun fragment => fragment.type.isSome

/-- What validation sees of a message. -/
def view : Message → Subject
  | cluster m => .cluster m
  | clusterLoadAssignment m => .clusterLoadAssignment m.name
  | listener m => .listener m.view
  | routeConfiguration m => .routeConfiguration m
  | runtime m => .runtime m.name
  | scopedRoute m => .scopedRoute m.view
  | secret m => .secret m.name
  | virtualHost m => .virtualHost m

theorem name_view (m : Message) : m.view.name = m.name := by
  cases m <;> rfl

/-! ### Agreement on what is checked -/

theorem map_congr_of_forall₂ {α β : Type} {f : α → β} {l l' : List α}
    (h : List.Forall₂ (fun a a' => f a = f a') l l') : l.map f = l'.map f := by
  rw [← List.forall₂_eq_eq_eq, List.forall₂_map_left_iff, List.forall₂_map_right_iff]
  exact h

/-- The same name, the same numeric port or none, and chains of filters with the same names. -/
def Listener.Agrees (m m' : Listener) : Prop :=
  m.name = m'.name ∧ (∀ number, m.HasPort number ↔ m'.HasPort number) ∧
    List.Forall₂ (fun chain chain' => List.Forall₂ (fun filter filter' => filter.name = filter'.name)
      chain.filters chain'.filters) m.filterChains m'.filterChains

/-- The same names, and keys, if there are any, with the same number of fragments, of which the same
ones have a type. -/
def ScopedRoute.Agrees (m m' : ScopedRoute) : Prop :=
  m.name = m'.name ∧ m.routeConfigurationName = m'.routeConfigurationName ∧
    Option.Rel (fun key key' => List.Forall₂ (fun fragment fragment' =>
      (fragment.type = none ↔ fragment'.type = none)) key.fragments key'.fragments) m.key m'.key

/-- Messages of one kind that agree on all that is checked. -/
inductive Agree : Message → Message → Prop where
  | cluster (m : Cluster) : Agree (.cluster m) (.cluster m)
  | clusterLoadAssignment {m m' : Named} (h : m.name = m'.name) :
      Agree (.clusterLoadAssignment m) (.clusterLoadAssignment m')
  | listener {m m' : Listener} (h : m.Agrees m') : Agree (.listener m) (.listener m')
  | routeConfiguration (m : RouteConfiguration) :
      Agree (.routeConfiguration m) (.routeConfiguration m)
  | runtime {m m' : Named} (h : m.name = m'.name) : Agree (.runtime m) (.runtime m')
  | scopedRoute {m m' : ScopedRoute} (h : m.Agrees m') : Agree (.scopedRoute m) (.scopedRoute m')
  | secret {m m' : Named} (h : m.name = m'.name) : Agree (.secret m) (.secret m')
  | virtualHost (m : VirtualHost) : Agree (.virtualHost m) (.virtualHost m)

theorem Listener.Agrees.view_eq {m m' : Listener} (h : m.Agrees m') : m.view = m'.view := by
  obtain ⟨hname, hport, hchains⟩ := h
  have hport' : m.port? = m'.port? := by
    refine Option.ext fun number => ?_
    rw [port?_eq_some_iff, port?_eq_some_iff]
    exact hport number
  have hfilters : (m.filterChains.map fun chain => chain.filters.map Named.name) =
      m'.filterChains.map fun chain => chain.filters.map Named.name :=
    map_congr_of_forall₂ (hchains.imp fun chain chain' hfilters => map_congr_of_forall₂ hfilters)
  unfold view
  rw [hname, hport', hfilters]

theorem ScopedRoute.Agrees.view_eq {m m' : ScopedRoute} (h : m.Agrees m') : m.view = m'.view := by
  obtain ⟨hname, hroute, hkey⟩ := h
  unfold view
  rw [hname, hroute]
  generalize m.key = key at hkey
  generalize m'.key = key' at hkey
  cases hkey with
  | none => rfl
  | @some key key' hfragments =>
      have htyped : (key.fragments.map fun fragment => fragment.type.isSome) =
          key'.fragments.map fun fragment => fragment.type.isSome := by
        refine map_congr_of_forall₂ (hfragments.imp fun fragment fragment' hsame => ?_)
        rw [Bool.eq_iff_iff, Option.isSome_iff_ne_none, Option.isSome_iff_ne_none]
        exact not_congr hsame
      rw [Option.map_some, Option.map_some, htyped]

/-- Messages that agree look the same to validation. -/
theorem Agree.view_eq {m m' : Message} (h : Agree m m') : m.view = m'.view := by
  cases h with
  | cluster | routeConfiguration | virtualHost => rfl
  | clusterLoadAssignment h => exact congrArg Subject.clusterLoadAssignment h
  | listener h => exact congrArg Subject.listener h.view_eq
  | runtime h => exact congrArg Subject.runtime h
  | scopedRoute h => exact congrArg Subject.scopedRoute h.view_eq
  | secret h => exact congrArg Subject.secret h

end Message

/-! ### Records that are one field longer -/

/-- The text of a field, if its number is this one. -/
def textAt (number : ℕ) : ℕ × FieldValue → Option String
  | (n, .text content) => if n = number then some content else none
  | _ => none

def recordAt (number : ℕ) : ℕ × FieldValue → Option Record
  | (n, .record parts) => if n = number then some parts else none
  | _ => none

def varintAt (number : ℕ) : ℕ × FieldValue → Option ℕ
  | (n, .varint value) => if n = number then some value else none
  | _ => none

def memberAt (numbers : List ℕ) : ℕ × FieldValue → Option (ℕ × Record)
  | (n, .record parts) => if numbers.contains n then some (n, parts) else none
  | _ => none

section concat
variable (number : ℕ) (r : Record) (f : ℕ × FieldValue)

theorem texts_concat : Record.texts number (r ++ [f]) = r.texts number ++ (textAt number f).toList := by
  obtain ⟨n, value⟩ := f
  by_cases hn : n = number <;> cases value <;> simp [Record.texts, Record.occurrences, textAt, hn]

theorem text_concat : Record.text number (r ++ [f]) = (textAt number f).getD (r.text number) := by
  unfold Record.text
  rw [texts_concat]
  cases textAt number f <;> simp

theorem records_concat :
    Record.records number (r ++ [f]) = r.records number ++ (recordAt number f).toList := by
  obtain ⟨n, value⟩ := f
  by_cases hn : n = number <;> cases value <;>
    simp [Record.records, Record.occurrences, recordAt, hn]

theorem varint_concat :
    Record.varint number (r ++ [f]) = (varintAt number f).getD (r.varint number) := by
  obtain ⟨n, value⟩ := f
  by_cases hn : n = number <;> cases value <;>
    simp [Record.varint, Record.occurrences, varintAt, hn]

theorem joined?_eq : Record.joined? number r =
    if r.records number = [] then none else some (r.records number).flatten := by
  unfold Record.joined?
  split <;> simp_all

theorem joined?_concat : Record.joined? number (r ++ [f]) =
    (recordAt number f).elim (r.joined? number) fun parts =>
      some ((r.joined? number).getD [] ++ parts) := by
  rw [joined?_eq, joined?_eq, records_concat]
  cases recordAt number f with
  | none => simp
  | some parts => by_cases hnone : r.records number = [] <;> simp [hnone]

theorem members_concat (numbers : List ℕ) :
    Record.members numbers (r ++ [f]) = r.members numbers ++ (memberAt numbers f).toList := by
  obtain ⟨n, value⟩ := f
  by_cases hn : n ∈ numbers <;> cases value <;> simp [Record.members, memberAt, hn]

theorem choice?_concat (numbers : List ℕ) : Record.choice? numbers (r ++ [f]) =
    (memberAt numbers f).elim (r.choice? numbers) fun (n, parts) =>
      some (n, (((r.choice? numbers).filter fun m => m.1 == n).map (·.2)).getD [] ++ parts) := by
  unfold Record.choice?
  rw [members_concat]
  cases memberAt numbers f with
  | none => simp
  | some member =>
      obtain ⟨n, parts⟩ := member
      rw [Option.toList_some, List.reverse_append, List.reverse_singleton, List.singleton_append]
      cases (Record.members numbers r).reverse with
      | nil => simp
      | cons last earlier => by_cases hn : last.1 = n <;> simp [Option.filter, hn]

end concat

/-! ### Fields that are taken up -/

section taken
variable {σ τ : Type} [Merges σ] [Merges τ]

theorem text_ofRecord (get : σ → String) (number : ℕ) (hempty : get empty = "")
    (htake : ∀ m f, get (take m f) = (textAt number f).getD (get m)) (r : Record) :
    get (ofRecord r) = r.text number := by
  induction r using List.reverseRecOn with
  | nil => exact hempty
  | append_singleton r f ih => rw [ofRecord_concat, htake, ih, text_concat]

theorem texts_ofRecord (get : σ → List String) (number : ℕ) (hempty : get empty = [])
    (htake : ∀ m f, get (take m f) = get m ++ (textAt number f).toList) (r : Record) :
    get (ofRecord r) = r.texts number := by
  induction r using List.reverseRecOn with
  | nil => exact hempty
  | append_singleton r f ih => rw [ofRecord_concat, htake, ih, texts_concat]

theorem records_ofRecord (get : σ → List τ) (number : ℕ) (hempty : get empty = [])
    (htake : ∀ m f, get (take m f) = get m ++ ((recordAt number f).map ofRecord).toList)
    (r : Record) : get (ofRecord r) = (r.records number).map ofRecord := by
  induction r using List.reverseRecOn with
  | nil => exact hempty
  | append_singleton r f ih =>
      rw [ofRecord_concat, htake, ih, records_concat, List.map_append]
      cases recordAt number f <;> rfl

theorem varint_ofRecord {α : Type} (get : σ → α) (read : ℕ → α) (number : ℕ)
    (hempty : get empty = read 0)
    (htake : ∀ m f, get (take m f) = ((varintAt number f).map read).getD (get m)) (r : Record) :
    get (ofRecord r) = read (r.varint number) := by
  induction r using List.reverseRecOn with
  | nil => exact hempty
  | append_singleton r f ih =>
      rw [ofRecord_concat, htake, ih, varint_concat]
      cases varintAt number f <;> rfl

theorem joined_ofRecord (get : σ → Option τ) (number : ℕ) (hempty : get empty = none)
    (htake : ∀ m f, get (take m f) = (recordAt number f).elim (get m) fun parts =>
      some (merge ((get m).getD empty) parts)) (r : Record) :
    get (ofRecord r) = (r.joined? number).map ofRecord := by
  induction r using List.reverseRecOn with
  | nil => exact hempty
  | append_singleton r f ih =>
      rw [ofRecord_concat, htake, ih, joined?_concat]
      cases recordAt number f with
      | none => rfl
      | some parts =>
          cases Record.joined? number r with
          | none => rfl
          | some before => exact congrArg some (merge_append empty before parts).symm

end taken

/-! ### What validation reads -/

theorem signed64_eq (n : ℕ) : Wire.signed64 n = (BitVec.ofNat 64 n).toInt :=
  (BitVec.toInt_ofNat n).symm

theorem signed32_eq (n : ℕ) : Wire.signed32 n = (BitVec.ofNat 32 n).toInt :=
  (BitVec.toInt_ofNat n).symm

theorem unsigned32_eq (n : ℕ) : Wire.unsigned32 n = (BitVec.ofNat 32 n).toNat :=
  (BitVec.toNat_ofNat n 32).symm

theorem readDuration_eq (r : Record) : Subject.readDuration r = ofRecord r := by
  have hseconds := varint_ofRecord Duration.seconds (fun n => (BitVec.ofNat 64 n).toInt) 1 rfl
    (fun m f => by simp only [take, varintAt]; grind) r
  have hnanos := varint_ofRecord Duration.nanos (fun n => (BitVec.ofNat 32 n).toInt) 2 rfl
    (fun m f => by simp only [take, varintAt]; grind) r
  rw [Subject.readDuration, signed64_eq, signed32_eq]
  exact congrArg₂ Duration.mk hseconds.symm hnanos.symm

theorem readCluster_eq (r : Record) : Subject.readCluster r = ofRecord r := by
  have hname := text_ofRecord Cluster.name 1 rfl (fun m f => by simp only [take, textAt]; grind) r
  have htimeout := joined_ofRecord Cluster.connectTimeout 4 rfl
    (fun m f => by simp only [take, recordAt]; grind) r
  rw [Subject.readCluster, funext readDuration_eq]
  exact congrArg₂ Cluster.mk hname.symm htimeout.symm

theorem readVirtualHost_eq (r : Record) : Subject.readVirtualHost r = ofRecord r := by
  have hname := text_ofRecord VirtualHost.name 1 rfl
    (fun m f => by simp only [take, textAt]; grind) r
  have hdomains := texts_ofRecord VirtualHost.domains 2 rfl
    (fun m f => by simp only [take, textAt]; grind) r
  exact congrArg₂ VirtualHost.mk hname.symm hdomains.symm

theorem readRouteConfiguration_eq (r : Record) : Subject.readRouteConfiguration r = ofRecord r := by
  have hname := text_ofRecord RouteConfiguration.name 1 rfl
    (fun m f => by simp only [take, textAt]; grind) r
  have hhosts := records_ofRecord RouteConfiguration.virtualHosts 2 rfl
    (fun m f => by simp only [take, recordAt]; grind) r
  rw [Subject.readRouteConfiguration, funext readVirtualHost_eq]
  exact congrArg₂ RouteConfiguration.mk hname.symm hhosts.symm

namespace Message

theorem Named.name_ofRecord (r : Record) : (Merges.ofRecord r : Named).name = r.text 1 :=
  text_ofRecord Named.name 1 rfl (fun m f => by simp only [take, textAt]; grind) r

/-- The port that a field of a socket address gives, and whether it is a numeric one. -/
def portAt : ℕ × FieldValue → Option (Option ℕ)
  | (3, .varint n) => some (some (Wire.unsigned32 n))
  | (4, .text _) => some none
  | _ => none

theorem socketPort_concat (r : Record) (f : ℕ × FieldValue) :
    Subject.socketPort (r ++ [f]) = (portAt f).getD (Subject.socketPort r) := by
  change ((r ++ [f]).filterMap portAt).getLast?.join =
    (portAt f).getD ((r.filterMap portAt).getLast?.join)
  cases hport : portAt f with
  | none => simp [hport]
  | some port => simp [hport]

theorem Socket.number?_ofRecord (r : Record) :
    (Merges.ofRecord r : Socket).number? = Subject.socketPort r := by
  induction r using List.reverseRecOn with
  | nil => rfl
  | append_singleton r f ih =>
      rw [ofRecord_concat, socketPort_concat, ← ih]
      simp only [take, portAt, number?, unsigned32_eq]
      grind

/-- The member that a number stands for, which has taken up what belongs to it. -/
def Member.ofChoice : ℕ × Record → Member
  | (1, parts) => .socket (Merges.ofRecord parts)
  | (2, _) => .pipe
  | _ => .internal

/-- What a socket has taken up is what the choice holds for it. -/
theorem Address.socket?_of_member {m : Address} {choice : Option (ℕ × Record)}
    (h : m.member = choice.map Member.ofChoice) :
    m.socket? = ((choice.filter fun c => c.1 == 1).map (·.2)).map Merges.ofRecord := by
  unfold socket?
  rw [h]
  cases choice with
  | none => rfl
  | some choice => rcases choice with ⟨_ | _ | _ | n, parts⟩ <;> rfl

theorem Address.member_ofRecord (r : Record) :
    (Merges.ofRecord r : Address).member = (r.choice? [1, 2, 3]).map Member.ofChoice := by
  induction r using List.reverseRecOn with
  | nil => rfl
  | append_singleton r f ih =>
      rw [ofRecord_concat, choice?_concat]
      simp only [take]
      split
      case h_1 parts =>
        rw [socket?_of_member ih]
        change some (Member.socket _) = some (.socket (Merges.ofRecord (_ ++ parts)))
        unfold Merges.ofRecord
        rw [merge_append]
        cases (Record.choice? [1, 2, 3] r).filter _ <;> rfl
      case h_2 => rfl
      case h_3 => rfl
      case h_4 hsocket hpipe hinternal =>
        -- neither the message nor the choice takes the field up
        have hnone : memberAt [1, 2, 3] f = none := by
          obtain ⟨n, value⟩ := f
          cases value with
          | record parts =>
              refine if_neg fun hn => ?_
              rcases (by simpa using hn : n = 1 ∨ n = 2 ∨ n = 3) with rfl | rfl | rfl
              · exact hsocket parts rfl
              · exact hpipe parts rfl
              · exact hinternal parts rfl
          | _ => rfl
        rw [hnone]
        exact ih

theorem Address.port_ofRecord (r : Record) :
    (Merges.ofRecord r : Address).socket?.bind Socket.number? = Subject.addressPort r := by
  rw [socket?_of_member (member_ofRecord r)]
  unfold Subject.addressPort
  cases r.choice? [1, 2, 3] with
  | none => rfl
  | some choice =>
      rcases choice with ⟨_ | _ | _ | n, parts⟩
      case succ.zero => exact Socket.number?_ofRecord parts
      all_goals rfl

theorem FilterChain.names_ofRecord (r : Record) :
    (Merges.ofRecord r : FilterChain).filters.map Named.name =
      (r.records 3).map fun filter => filter.text 1 := by
  rw [records_ofRecord FilterChain.filters 3 rfl (fun m f => by simp only [take, recordAt]; grind),
    List.map_map]
  exact List.map_congr_left fun filter _ => Named.name_ofRecord filter

theorem Listener.view_ofRecord (r : Record) :
    (Merges.ofRecord r : Listener).view = Subject.readListener r := by
  have hname := text_ofRecord Listener.name 1 rfl (fun m f => by simp only [take, textAt]; grind) r
  have haddress := joined_ofRecord Listener.address 2 rfl
    (fun m f => by simp only [take, recordAt]; grind) r
  have hchains := records_ofRecord Listener.filterChains 3 rfl
    (fun m f => by simp only [take, recordAt]; grind) r
  unfold view port? Subject.readListener
  rw [hname, haddress, hchains, List.map_map]
  congr 1
  · cases Record.joined? 2 r with
    | none => rfl
    | some parts => exact Address.port_ofRecord parts
  · exact List.map_congr_left fun chain _ => FilterChain.names_ofRecord chain

theorem Fragment.type_ofRecord (r : Record) :
    (Merges.ofRecord r : Fragment).type.isSome = !(r.texts 1).isEmpty := by
  induction r using List.reverseRecOn with
  | nil => rfl
  | append_singleton r f ih =>
      rw [ofRecord_concat, texts_concat]
      have htake : (Merges.take (Merges.ofRecord r) f : Fragment).type =
          (textAt 1 f).or (Merges.ofRecord r : Fragment).type := by
        simp only [take, textAt]
        grind
      rw [htake]
      cases textAt 1 f <;> simp [ih]

theorem Key.typed_ofRecord (r : Record) :
    ((Merges.ofRecord r : Key).fragments.map fun fragment => fragment.type.isSome) =
      (r.records 1).map fun fragment => !(fragment.texts 1).isEmpty := by
  rw [records_ofRecord Key.fragments 1 rfl (fun m f => by simp only [take, recordAt]; grind),
    List.map_map]
  exact List.map_congr_left fun fragment _ => Fragment.type_ofRecord fragment

theorem ScopedRoute.view_ofRecord (r : Record) :
    (Merges.ofRecord r : ScopedRoute).view = Subject.readScopedRoute r := by
  have hname := text_ofRecord ScopedRoute.name 1 rfl
    (fun m f => by simp only [take, textAt]; grind) r
  have hroute := text_ofRecord ScopedRoute.routeConfigurationName 2 rfl
    (fun m f => by simp only [take, textAt]; grind) r
  have hkey := joined_ofRecord ScopedRoute.key 3 rfl
    (fun m f => by simp only [take, recordAt]; grind) r
  unfold view Subject.readScopedRoute
  rw [hname, hroute, hkey, Option.map_map]
  have hfragments : (fun key : Key => key.fragments.map fun fragment => fragment.type.isSome) ∘
      Merges.ofRecord = fun key => (key.records 1).map fun fragment => !(fragment.texts 1).isEmpty :=
    funext Key.typed_ofRecord
  rw [hfragments]

/-- Validation sees of the fields what is checked of the message that takes them up. -/
theorem view_ofRecord (kind : Kind) (r : Record) :
    (ofRecord kind r).view = Subject.ofRecord kind r := by
  cases kind with
  | cluster => exact congrArg Subject.cluster (readCluster_eq r).symm
  | clusterLoadAssignment => exact congrArg Subject.clusterLoadAssignment (Named.name_ofRecord r)
  | listener => exact congrArg Subject.listener (Listener.view_ofRecord r)
  | routeConfiguration => exact congrArg Subject.routeConfiguration (readRouteConfiguration_eq r).symm
  | runtime => exact congrArg Subject.runtime (Named.name_ofRecord r)
  | scopedRouteConfiguration => exact congrArg Subject.scopedRoute (ScopedRoute.view_ofRecord r)
  | secret => exact congrArg Subject.secret (Named.name_ofRecord r)
  | virtualHost => exact congrArg Subject.virtualHost (readVirtualHost_eq r).symm

end Message

end ControlPlane.Validation
