import ControlPlane.Proofs.Catalog
import ControlPlane.Proofs.Store.Authenticity

/-! # The registry of message types

Validation can be laid out as a registry.  Once, at the start, each message type enters its name with
its kind, its protocol and its check (`Validator.assemble`); a payload is then judged by the entry of the
name that its type URL denotes, if that entry is of the kind asked for.  No two types share a name, so
the registry says the same as the table of types (`registry_get?`), and `validate` is the validator that
reads the wire format (`validate_eq_assemble`).

How messages are decoded is a parameter here (`Reader`).  For any reader: the type URL alone
decides whether a type is ambiguous, the bytes decide the rest, both spellings of a type are judged
alike, and what was accepted bears its type URL in full form and validates to itself, as its own kind
and as no other (`Validator.Canonical`, `assemble_canonical`). -/

namespace ControlPlane

namespace MessageType

/-! ### Names of message types -/

theorem name_injective {a b : MessageType} (h : a.name = b.name) : a = b :=
  List.inj_on_of_nodup_map (by decide +kernel : (all.map name).Nodup) (mem_all a) (mem_all b) h

theorem parse?_eq_some_iff {text : String} {type : MessageType} :
    parse? text = some type ↔ type.name = bareName text := by
  unfold parse?
  constructor
  · intro h
    simpa using List.find?_some h
  · intro h
    cases hfound : all.find? (fun t => t.name == bareName text) with
    | none => exact absurd h (by simpa using List.find?_eq_none.mp hfound type (mem_all type))
    | some found =>
        have hname : found.name = bareName text := by simpa using List.find?_some hfound
        rw [name_injective (hname.trans h.symm)]

/-- The kind that is carried by the message that a type URL or a bare name denotes. -/
def kind? (text : String) : Option Kind := (parse? text).map (·.kind)

/-- The protocol of the message that a type URL or a bare name denotes. -/
def protocol? (text : String) : Option Protocol := (parse? text).map (·.protocol)

/-- A text is a type URL in its full form. -/
def IsUrl (text : String) : Prop := urlBase.toList <+: text.toList

theorem bareName_of_not_isUrl {text : String} (h : ¬ IsUrl text) : bareName text = text := by
  have hstart : urlBase.toList.isPrefixOf text.toList = false := by
    rw [Bool.eq_false_iff]
    exact fun hstart => h (List.isPrefixOf_iff_prefix.mp hstart)
  rw [bareName, dropStart, hstart]
  exact String.ofList_toList

theorem bareName_urlBase_append (text : String) : bareName (urlBase ++ text) = text := by
  have hstart : urlBase.toList.isPrefixOf (urlBase ++ text).toList = true := by
    rw [List.isPrefixOf_iff_prefix, String.toList_append]
    exact List.prefix_append _ _
  rw [bareName, dropStart, if_pos hstart, String.toList_append, List.drop_left]
  exact String.ofList_toList

/-- Both spellings of a type denote the same message. -/
theorem parse?_urlBase_append {text : String} (h : ¬ IsUrl text) :
    parse? (urlBase ++ text) = parse? text := by
  rw [parse?, parse?, bareName_urlBase_append, bareName_of_not_isUrl h]

end MessageType

namespace Validation

open MessageType (kind? protocol? IsUrl)

/-! ### The validator -/

/-- A way to decode the messages of each type. -/
abbrev Reader := MessageType → Bytes → Except Wire.Failure Wire.Record

/-- Reads the older messages by their schemas and the newer ones as they are read. -/
def wireReader [NewerMessages] : Reader := readMessage

/-- The check of a message type: what it accepts has a name for the proxy. -/
def checker (read : Reader) (type : MessageType) (bytes : Bytes) : Except Rejection String := do
  let message ← (read type bytes).mapError .invalidFormat
  let subject := Subject.ofRecord type.kind message
  check subject
  return subject.name

/-- What is on record for a message type. -/
structure Registration where
  kind : Kind
  protocol : Protocol
  check : Bytes → Except Rejection String

/-- What is on record for each message type, by name. -/
structure Validator where
  registry : Catalog String Registration

namespace Validator

def register (read : Reader) (type : MessageType) : Registration :=
  ⟨type.kind, type.protocol, checker read type⟩

/-- The kinds of each protocol enter their message types one after another. -/
def assemble (read : Reader) : Validator :=
  ⟨.ofList (MessageType.all.map fun type => (type.name, register read type))⟩

/-- Judges a payload by the entry of the type that it is said to have. -/
def validate (v : Validator) (kind : Kind) (payload : Payload) : Except Rejection Resource :=
  let message := MessageType.bareName payload.typeUrl
  match (v.registry.get? message).filter (·.kind = kind) with
  | none => .error (.typeAmbiguity payload.typeUrl kind)
  | some entry => do
    let name ← entry.check payload.value
    return { kind, protocol := entry.protocol, typeUrl := MessageType.urlBase ++ message,
             envoyName := name, body := payload.value }

/-- What comes of a payload, with no more of a rejection than its reason. -/
def outcome (v : Validator) (kind : Kind) (payload : Payload) : Except AcceptanceReason Resource :=
  (v.validate kind payload).mapError Rejection.reason

end Validator

/-! ### Laws of the check -/

section results
variable {ε α β : Type} {result : Except ε α} {f : α → β}

theorem map_eq_ok_iff {b : β} : result.map f = .ok b ↔ ∃ a, result = .ok a ∧ f a = b := by
  cases result <;> simp [Except.map]

theorem map_eq_error_iff {e : ε} : result.map f = .error e ↔ result = .error e := by
  cases result <;> simp [Except.map]

end results

section checking
variable {read : Reader} {type : MessageType} {bytes : Bytes} {subject : Subject}
  {message : Wire.Record}

theorem check_of_nil (h : Violation.ofSubject subject = []) : check subject = .ok () := by
  rw [check, h]

theorem check_of_cons {violation : Violation} {rest : List Violation}
    (h : Violation.ofSubject subject = violation :: rest) :
    check subject = .error (.failedValidation violation) := by
  rw [check, h]

theorem checker_of_error {failure : Wire.Failure} (h : read type bytes = .error failure) :
    checker read type bytes = .error (.invalidFormat failure) := by
  rw [checker, h]
  rfl

theorem checker_of_ok (h : read type bytes = .ok message) :
    checker read type bytes =
      (check (.ofRecord type.kind message)).map fun _ => (Subject.ofRecord type.kind message).name := by
  rw [checker, h]
  dsimp only [Except.mapError, bind, Except.bind]
  cases check (.ofRecord type.kind message) <;> rfl

/-- A name that a check has given is not empty. -/
theorem ne_empty_of_checker {name : String} (h : checker read type bytes = .ok name) :
    name ≠ "" := by
  cases hread : read type bytes with
  | error failure =>
      rw [checker_of_error hread] at h
      cases h
  | ok message =>
      rw [checker_of_ok hread, map_eq_ok_iff] at h
      obtain ⟨_, hcheck, rfl⟩ := h
      cases hviolations : Violation.ofSubject (.ofRecord type.kind message) with
      | nil => exact name_ne_empty hviolations
      | cons violation rest =>
          rw [check_of_cons hviolations] at hcheck
          cases hcheck

end checking

namespace Validator

/-! ### Laws of the registry -/

/-- The entry of a name is that of the one type with this name. -/
theorem registry_get? (read : Reader) (text : String) :
    (assemble read).registry.get? (MessageType.bareName text) =
      (MessageType.parse? text).map (register read) := by
  have hnames : ((MessageType.all.map fun type => (type.name, register read type)).map
      (·.1)).Nodup := by
    rw [List.map_map]
    exact (by decide +kernel : (MessageType.all.map MessageType.name).Nodup)
  refine Option.ext fun entry => ?_
  rw [assemble, Catalog.get?_ofList_iff hnames, List.mem_map, Option.map_eq_some_iff]
  constructor
  · rintro ⟨type, -, heq⟩
    obtain ⟨hname, hentry⟩ := Prod.mk.inj heq
    exact ⟨type, MessageType.parse?_eq_some_iff.mpr hname, hentry⟩
  · rintro ⟨type, hparse, rfl⟩
    exact ⟨type, MessageType.mem_all type, by rw [MessageType.parse?_eq_some_iff.mp hparse]⟩

section assembled
variable {read : Reader} {kind : Kind} {typeUrl : String} {type : MessageType}

/-- A type URL that does not denote a message of the kind is ambiguous, whatever the bytes. -/
theorem validate_of_ambiguous (h : kind? typeUrl ≠ some kind) (bytes : Bytes) :
    (assemble read).validate kind ⟨typeUrl, bytes⟩ = .error (.typeAmbiguity typeUrl kind) := by
  have hnone : ((MessageType.parse? typeUrl).map (register read)).filter (·.kind = kind) = none := by
    rw [Option.filter_eq_none_iff]
    intro entry hentry hkind
    obtain ⟨type, hparse, rfl⟩ := Option.map_eq_some_iff.mp hentry
    exact h (by rw [kind?, hparse, Option.map_some, ← of_decide_eq_true hkind]; rfl)
  rw [validate]
  dsimp only
  rw [registry_get?, hnone]

/-- Otherwise the check of the type decides. -/
theorem validate_of_parse? (h : MessageType.parse? typeUrl = some type) (bytes : Bytes) :
    (assemble read).validate type.kind ⟨typeUrl, bytes⟩ =
      (checker read type bytes).map fun name => ⟨type.kind, type.protocol, type.url, name, bytes⟩ := by
  have hsome : (some (register read type)).filter (·.kind = type.kind) =
      some (register read type) := Option.filter_eq_some_iff.mpr ⟨rfl, decide_eq_true rfl⟩
  rw [validate]
  dsimp only
  rw [registry_get?, h, Option.map_some, hsome, ← MessageType.parse?_eq_some_iff.mp h]
  cases hcheck : checker read type bytes with
  | error e =>
      dsimp only [register, bind, Except.bind]
      rw [hcheck]
      rfl
  | ok name =>
      dsimp only [register, bind, Except.bind]
      rw [hcheck]
      rfl

/-- A kind that a type URL denotes comes with its message type. -/
theorem exists_type (h : kind? typeUrl = some kind) :
    ∃ type, MessageType.parse? typeUrl = some type ∧ type.kind = kind ∧
      protocol? typeUrl = some type.protocol := by
  obtain ⟨type, hparse, hkind⟩ := Option.map_eq_some_iff.mp h
  exact ⟨type, hparse, hkind, by rw [protocol?, hparse, Option.map_some]⟩

end assembled

/-- The validator that reads the wire format is the one that runs. -/
theorem validate_eq_assemble [NewerMessages] (kind : Kind) (payload : Payload) :
    ControlPlane.validate kind payload = (assemble wireReader).validate kind payload := by
  obtain ⟨typeUrl, bytes⟩ := payload
  by_cases hkind : kind? typeUrl = some kind
  · obtain ⟨type, hparse, rfl, -⟩ := exists_type hkind
    have htype : typeFor type.kind typeUrl = .ok type := by
      rw [typeFor, hparse, Option.filter_some, if_pos (decide_eq_true rfl)]
    rw [validate_of_parse? hparse, ControlPlane.validate, htype, checker, wireReader]
    dsimp only [bind, Except.bind]
    rw [decode]
    cases readMessage type bytes with
    | error failure => rfl
    | ok message =>
        dsimp only [Except.mapError]
        cases check (.ofRecord type.kind message) <;> rfl
  · have htype : typeFor kind typeUrl = .error (.typeAmbiguity typeUrl kind) := by
      have hnone : (MessageType.parse? typeUrl).filter (·.kind = kind) = none := by
        rw [Option.filter_eq_none_iff]
        intro type hparse hsame
        exact hkind (by rw [kind?, hparse, Option.map_some, of_decide_eq_true hsame])
      rw [typeFor, hnone]
    rw [validate_of_ambiguous hkind, ControlPlane.validate, htype]
    rfl

/-! ### What is accepted is canonical -/

/-- How a validator stands to payloads of a kind that bear a type URL and some bytes. -/
structure Canonical (v : Validator) (read : Reader) (kind : Kind) (typeUrl : String)
    (bytes : Bytes) : Prop where
  ambiguous : v.outcome kind ⟨typeUrl, bytes⟩ = .error .typeAmbiguity ↔ kind? typeUrl ≠ some kind
  /-- The bytes are not a message of the type that the type URL denotes. -/
  undecodable : kind? typeUrl = some kind →
    (v.outcome kind ⟨typeUrl, bytes⟩ = .error .invalidFormat ↔
      ∃ protocol failure, protocol? typeUrl = some protocol ∧
        read ⟨protocol, kind⟩ bytes = .error failure)
  /-- A message that can be read is rejected for what it says, or not at all. -/
  decided : ∀ protocol message, kind? typeUrl = some kind → protocol? typeUrl = some protocol →
    read ⟨protocol, kind⟩ bytes = .ok message →
    v.outcome kind ⟨typeUrl, bytes⟩ = .error .failedValidation ∨
      ∃ r, v.outcome kind ⟨typeUrl, bytes⟩ = .ok r
  spelling : ¬ IsUrl typeUrl →
    v.outcome kind ⟨MessageType.urlBase ++ typeUrl, bytes⟩ = v.outcome kind ⟨typeUrl, bytes⟩
  accepted : ∀ r, v.validate kind ⟨typeUrl, bytes⟩ = .ok r →
    r.kind = kind ∧ protocol? typeUrl = some r.protocol ∧
    r.typeUrl = MessageType.url ⟨r.protocol, r.kind⟩ ∧ r.body = bytes ∧ r.envoyName ≠ "" ∧
    v.validate kind r.payload = .ok r ∧
    ∀ other, other ≠ kind → v.outcome other r.payload = .error .typeAmbiguity

section canonical
variable {read : Reader} {kind : Kind} {typeUrl : String} {type : MessageType} {bytes : Bytes}

theorem outcome_of_ambiguous (h : kind? typeUrl ≠ some kind) (bytes : Bytes) :
    (assemble read).outcome kind ⟨typeUrl, bytes⟩ = .error .typeAmbiguity := by
  rw [outcome, validate_of_ambiguous h]
  rfl

/-- Otherwise it is decided by the bytes, and if they are a message, by what it says. -/
theorem outcome_of_parse? (h : MessageType.parse? typeUrl = some type) (bytes : Bytes) :
    (assemble read).outcome type.kind ⟨typeUrl, bytes⟩ =
      match read type bytes with
      | .error _ => .error .invalidFormat
      | .ok message =>
        if Violation.ofSubject (.ofRecord type.kind message) = [] then
          .ok ⟨type.kind, type.protocol, type.url, (Subject.ofRecord type.kind message).name, bytes⟩
        else .error .failedValidation := by
  rw [outcome, validate_of_parse? h]
  cases hread : read type bytes with
  | error failure =>
      rw [checker_of_error hread]
      rfl
  | ok message =>
      rw [checker_of_ok hread]
      dsimp only
      cases hviolations : Violation.ofSubject (.ofRecord type.kind message) with
      | nil =>
          rw [check_of_nil hviolations, if_pos rfl]
          rfl
      | cons violation rest =>
          rw [check_of_cons hviolations, if_neg (List.cons_ne_nil _ _)]
          rfl

/-- Both spellings of a type come to the same. -/
theorem outcome_urlBase_append (h : ¬ IsUrl typeUrl) :
    (assemble read).outcome kind ⟨MessageType.urlBase ++ typeUrl, bytes⟩ =
      (assemble read).outcome kind ⟨typeUrl, bytes⟩ := by
  have hparse := MessageType.parse?_urlBase_append h
  by_cases hkind : kind? typeUrl = some kind
  · obtain ⟨type, htype, rfl, -⟩ := exists_type hkind
    rw [outcome, outcome, validate_of_parse? htype, validate_of_parse? (hparse.trans htype)]
  · have hfull : kind? (MessageType.urlBase ++ typeUrl) ≠ some kind := by
      rw [kind?, hparse]
      exact hkind
    rw [outcome_of_ambiguous hkind, outcome_of_ambiguous hfull]

/-- What was accepted has a name, bears its type URL in full form, and is accepted again. -/
theorem validate_accepted {r : Resource}
    (h : (assemble read).validate kind ⟨typeUrl, bytes⟩ = .ok r) :
    ∃ name, r = ⟨kind, r.protocol, MessageType.url ⟨r.protocol, kind⟩, name, bytes⟩ ∧ name ≠ "" ∧
      MessageType.parse? typeUrl = some ⟨r.protocol, kind⟩ ∧
      (assemble read).validate kind r.payload = .ok r := by
  by_cases hkind : kind? typeUrl = some kind
  · obtain ⟨type, hparse, rfl, -⟩ := exists_type hkind
    rw [validate_of_parse? hparse, map_eq_ok_iff] at h
    obtain ⟨name, hcheck, rfl⟩ := h
    refine ⟨name, rfl, ne_empty_of_checker hcheck, hparse, ?_⟩
    rw [Resource.payload, validate_of_parse? type.parse?_url, hcheck]
    rfl
  · rw [validate_of_ambiguous hkind] at h
    cases h

end canonical

/-- Whatever reads the messages: the type URL alone makes a type ambiguous, namely when it does not
denote a message of the kind; then bytes that do not decode are an invalid format, and a message that
decodes is accepted or fails its own constraints.  A bare name and its full form come to the same.
What is accepted is of the kind and of the protocol that the type URL denotes, bears the type URL of
both in full form, has its bytes unchanged and has a name; served as it is it validates to itself as
this kind, and its type is ambiguous for any other.  The validator that runs is the one that reads the
wire format. -/
theorem assemble_canonical [NewerMessages] :
    (∀ kind payload, ControlPlane.validate kind payload =
      (assemble wireReader).validate kind payload) ∧
    ∀ read kind typeUrl bytes, (assemble read).Canonical read kind typeUrl bytes := by
  refine ⟨validate_eq_assemble, fun read kind typeUrl bytes => ⟨⟨?_, ?_⟩, ?_, ?_, ?_, ?_⟩⟩
  · intro houtcome hkind
    obtain ⟨type, hparse, rfl, -⟩ := exists_type hkind
    rw [outcome_of_parse? hparse] at houtcome
    split at houtcome
    · cases houtcome
    · split at houtcome <;> cases houtcome
  · exact fun hkind => outcome_of_ambiguous hkind bytes
  · intro hkind
    obtain ⟨type, hparse, rfl, hprotocol⟩ := exists_type hkind
    rw [outcome_of_parse? hparse]
    constructor
    · intro houtcome
      split at houtcome
      · rename_i failure hread
        exact ⟨type.protocol, failure, hprotocol, hread⟩
      · split at houtcome <;> cases houtcome
    · rintro ⟨protocol, failure, hsame, hread⟩
      obtain rfl := Option.some.inj (hprotocol.symm.trans hsame)
      rw [hread]
  · intro protocol message hkind hsame hread
    obtain ⟨type, hparse, rfl, hprotocol⟩ := exists_type hkind
    obtain rfl := Option.some.inj (hprotocol.symm.trans hsame)
    rw [outcome_of_parse? hparse, hread]
    dsimp only
    split
    · exact Or.inr ⟨_, rfl⟩
    · exact Or.inl rfl
  · exact outcome_urlBase_append
  · intro r hr
    obtain ⟨name, heq, hname, hparse, hagain⟩ := validate_accepted hr
    refine ⟨by rw [heq], by rw [protocol?, hparse, Option.map_some], by rw [heq], by rw [heq],
      by rw [heq]; exact hname, hagain, fun other hother => ?_⟩
    rw [Resource.payload]
    refine outcome_of_ambiguous (fun hkind => hother ?_) r.body
    rw [heq, kind?, MessageType.parse?_url, Option.map_some] at hkind
    exact (Option.some.inj hkind).symm

/-- A secret `a` under the bare name of its type: it is served under the full URL of this type, which no
listener bears. -/
theorem canonical_secret :
    ∃ r, ControlPlane.validate .secret ⟨"envoy.api.v2.auth.Secret", [0x0a, 1, 0x61]⟩ = .ok r ∧
      r.payload = ⟨"type.googleapis.com/envoy.api.v2.auth.Secret", [0x0a, 1, 0x61]⟩ ∧
      ControlPlane.validate .secret r.payload = .ok r ∧
      (ControlPlane.validate .listener r.payload).mapError Rejection.reason =
        .error .typeAmbiguity := by
  obtain ⟨hruns, hcanonical⟩ := assemble_canonical
  have hok : (assemble wireReader).validate .secret
      ⟨"envoy.api.v2.auth.Secret", [0x0a, 1, 0x61]⟩ =
        .ok ⟨.secret, .v2, "type.googleapis.com/envoy.api.v2.auth.Secret", "a",
          [0x0a, 1, 0x61]⟩ := by
    rw [← hruns]
    decide +kernel
  obtain ⟨-, -, -, -, -, hagain, hothers⟩ :=
    (hcanonical wireReader .secret _ _).accepted _ hok
  refine ⟨_, (hruns _ _).trans hok, rfl, (hruns _ _).trans hagain, ?_⟩
  rw [hruns]
  exact hothers .listener (by decide)

end Validator
end Validation
end ControlPlane
