import ControlPlane.Command.Create
import ControlPlane.Proofs.Naming
import ControlPlane.Proofs.Text.Base64
import ControlPlane.Proofs.Time.Rfc3339
import ControlPlane.Proofs.Yaml.Stream

/-! # Manifests read back

What an object's manifest form says is an outline (`isOutline_objectDocument`): names, type URLs,
encoded payloads and timestamps are words.  The decoders get the object back from its data
(`object_datum`), and so whatever was created can be loaded (`ofBytes_created`): documents in either
format, joined to one file, give the objects in their order. -/

namespace ControlPlane

/-! ### Words -/

namespace Yaml

theorem isWordChar_of_isDigit {c : Char} (h : c.isDigit = true) : isWordChar c = true :=
  isWordChar_of_isAlphanum (by rw [Char.isAlphanum, h, Bool.or_true])

theorem isWordChar_of_isNameChar {c : Char} (h : ObjectKey.isNameChar c = true) :
    isWordChar c = true := by
  unfold ObjectKey.isNameChar ObjectKey.isLabelEdge at h
  simp only [Bool.or_eq_true, beq_iff_eq] at h
  rcases h with ((hlower | hdigit) | rfl) | rfl
  · refine isWordChar_of_isAlphanum ?_
    delta Char.isAlphanum Char.isAlpha
    rw [hlower, Bool.or_true, Bool.true_or]
  · exact isWordChar_of_isDigit hdigit
  · decide
  · decide

theorem isWord_of_isSubdomain {text : String} (h : ObjectKey.isSubdomain text.toList = true) :
    IsWord text :=
  fun _ hc => isWordChar_of_isNameChar (ObjectKey.isNameChar_of_isSubdomain h hc)

theorem isWord_kind (kind : Kind) : IsWord kind.name := by
  apply isWord_of_all
  cases kind <;> decide

theorem isWord_url (type : MessageType) : IsWord type.url := by
  refine isWord_append (isWord_of_all (by decide)) (isWord_of_all ?_)
  obtain ⟨protocol, kind⟩ := type
  cases protocol <;> cases kind <;> decide

theorem isWord_encode (bytes : Bytes) : IsWord (Text.Base64.encode bytes) := by
  have hdigits : ∀ n : Fin 64, isWordChar (Text.Base64.digit n) = true := by decide
  intro c hc
  rw [Text.Base64.encode, String.toList_ofList] at hc
  rcases Text.Base64.mem_encodeChars hc with rfl | ⟨n, hn, rfl⟩
  · decide
  · exact hdigits ⟨n, hn⟩

open Time (Timestamp)
open Time.Rfc3339 (padded yearText fractionText isDigit_of_mem_padded)

theorem isWordChar_of_mem_padded {width n : ℕ} {c : Char} (h : c ∈ padded width n) :
    isWordChar c = true :=
  isWordChar_of_isDigit (isDigit_of_mem_padded h)

theorem isWordChar_of_mem_yearText {year : ℤ} {c : Char} (h : c ∈ yearText year) :
    isWordChar c = true := by
  unfold yearText at h
  split_ifs at h with hplain hneg
  · exact isWordChar_of_mem_padded h
  all_goals
    rcases List.mem_cons.1 h with rfl | hdigit
    · decide
    · exact isWordChar_of_mem_padded hdigit

theorem isWordChar_of_mem_fractionText {nanos : ℕ} {c : Char} (h : c ∈ fractionText nanos) :
    isWordChar c = true := by
  unfold fractionText at h
  split_ifs at h with hzero hmillis hmicros
  · cases h
  all_goals
    rcases List.mem_cons.1 h with rfl | hdigit
    · decide
    · exact isWordChar_of_mem_padded hdigit

theorem isWord_render (t : Timestamp) : IsWord (Time.Rfc3339.render t) := by
  intro c hc
  rw [Time.Rfc3339.render, String.toList_ofList] at hc
  simp only [List.mem_append, List.mem_cons, List.not_mem_nil, or_false] at hc
  have hmarks : isWordChar '-' = true ∧ isWordChar 'T' = true ∧ isWordChar ':' = true
      ∧ isWordChar 'Z' = true := by decide
  grind [isWordChar_of_mem_yearText, isWordChar_of_mem_padded, isWordChar_of_mem_fractionText]

end Yaml

namespace Manifest

open Yaml (IsWord IsName)
open Time (Timestamp)

/-! ### The manifest form -/

/-- An object that no store has recorded yet, made of words, with a time of the calendar. -/
structure Fresh (o : Object) : Prop where
  apiVersion : IsWord o.apiVersion
  space : IsWord o.metadata.space
  name : IsWord o.metadata.name
  uid_eq : o.metadata.uid = ""
  resourceVersion_eq : o.metadata.resourceVersion = ""
  generation_eq : o.metadata.generation = 0
  isProper : ∀ t ∈ o.metadata.creationTimestamp, t.IsProper
  typeUrl : IsWord o.spec.typeUrl
  status_eq : o.status = .empty

variable {o : Object}

/-- What is left out of the metadata is what the store records. -/
theorem metadataDocument_eq (h : Fresh o) :
    metadataDocument o.metadata = .record
      (("namespace", .text o.metadata.space) :: ("name", .text o.metadata.name)
        :: (o.metadata.creationTimestamp.map fun t =>
          ("creationTimestamp", timestampDocument t)).toList) := by
  rw [metadataDocument, textUnlessEmpty, textUnlessEmpty, h.uid_eq, h.resourceVersion_eq,
    h.generation_eq, if_pos rfl, if_pos rfl, if_pos rfl]
  rfl

/-- The names of all the fields in a manifest. -/
def fieldNames : List String :=
  ["apiVersion", "kind", "metadata", "spec", "status", "namespace", "name", "creationTimestamp",
    "type", "value", "conditions"]

theorem isName_of_mem {name : String} (h : name ∈ fieldNames) : IsName name := by
  have hall : fieldNames.all (fun name => name.toList.all Char.isAlphanum
      && decide (name.length + 2 ≤ Yaml.Scanner.maxKeyLength) && Yaml.style name == .plain)
      = true := by decide +kernel
  have hname := List.all_eq_true.1 hall name h
  simp only [Bool.and_eq_true, decide_eq_true_eq, beq_iff_eq, List.all_eq_true] at hname
  exact ⟨hname.1.1, hname.1.2, hname.2⟩

theorem isOutline_record {depth : ℕ} {fields : List (String × Document)} (names : List String)
    (heq : fields.map (·.1) = names)
    (hnames : names ≠ [] ∧ names.Nodup ∧ ∀ name ∈ names, name ∈ fieldNames)
    (hfields : ∀ f ∈ fields, f.2.IsOutline depth) :
    (Document.record fields).IsOutline (depth + 1) := by
  obtain ⟨hne, hnodup, hmem⟩ := hnames
  refine .record ?_ (heq ▸ hnodup) ?_ hfields
  · rintro rfl
    exact hne heq.symm
  · intro f hf
    exact isName_of_mem (hmem f.1 (heq ▸ List.mem_map_of_mem hf))

theorem isOutline_metadataDocument {depth : ℕ} (h : Fresh o) :
    (metadataDocument o.metadata).IsOutline (depth + 1) := by
  rw [metadataDocument_eq h]
  cases o.metadata.creationTimestamp with
  | none =>
      refine isOutline_record ["namespace", "name"] rfl (by decide) ?_
      simpa using ⟨.text h.space, .text h.name⟩
  | some t =>
      refine isOutline_record ["namespace", "name", "creationTimestamp"] rfl (by decide) ?_
      simpa using ⟨.text h.space, .text h.name, .text (Yaml.isWord_render t)⟩

theorem isOutline_objectDocument (depth : ℕ) (h : Fresh o) :
    (objectDocument o).IsOutline (depth + 3) := by
  have hspec : (payloadDocument o.spec).IsOutline (depth + 2) := by
    refine isOutline_record ["type", "value"] rfl (by decide) ?_
    simpa using ⟨.text h.typeUrl, .text (Yaml.isWord_encode _)⟩
  have hstatus : (statusDocument o.status).IsOutline (depth + 2) := by
    rw [h.status_eq]
    refine isOutline_record ["conditions"] rfl (by decide) ?_
    simpa using .list
  refine isOutline_record ["apiVersion", "kind", "metadata", "spec", "status"] rfl (by decide) ?_
  simpa using ⟨.text h.apiVersion, .text (Yaml.isWord_kind _), isOutline_metadataDocument h, hspec,
    hstatus⟩

/-! ### Decoding -/

open Decode

theorem readEntries_field {σ α : Type} {fields : List (FieldReader σ)} {dialect : Dialect}
    {name : String} {datum : Datum} {rest : List (Datum × Datum)} {draft : σ}
    {decoder : Decoder α} {enter : α → σ → σ} {value : α}
    (hfind : fields.find? (·.name == name) = some (field name decoder enter))
    (hvalue : decoder dialect datum = .ok value) :
    readEntries fields dialect ((.text name, datum) :: rest) draft
      = readEntries fields dialect rest (enter value draft) := by
  have hread : (field name decoder enter).read dialect datum draft = .ok (enter value draft) := by
    show (decoder dialect datum >>= fun v => pure (enter v draft)) = _
    rw [hvalue]
    rfl
  have htext : text "field identifier" dialect (.text name) = .ok name := rfl
  rw [readEntries, htext, Time.Rfc3339.ok_bind, hfind]
  dsimp only
  rw [hread, Time.Rfc3339.ok_bind]

variable {dialect : Dialect}

theorem string_text (value : String) : string dialect (.text value) = .ok value := rfl

theorem kind_name (k : Kind) : kind dialect (.text k.name) = .ok k := by
  cases k <;> rfl

theorem base64_encode (bytes : Bytes) :
    base64 dialect (.text (Text.Base64.encode bytes)) = .ok bytes := by
  rw [base64, string_text, Time.Rfc3339.ok_bind, Text.Base64.decode_encode]
  rfl

theorem timestamp_render {t : Timestamp} (ht : t.IsProper) :
    optional timestamp dialect (timestampDocument t).datum = .ok (some t) := by
  have hread : timestamp dialect (.text (Time.Rfc3339.render t)) = .ok t := by
    have htext : text "an RFC 3339 formatted date and time string" dialect
      (.text (Time.Rfc3339.render t)) = .ok (Time.Rfc3339.render t) := rfl
    rw [timestamp, htext, Time.Rfc3339.ok_bind, Time.Rfc3339.parse_render ht]
    rfl
  rw [timestampDocument, Document.datum]
  show some <$> timestamp dialect (.text (Time.Rfc3339.render t)) = _
  rw [hread]
  rfl

theorem payload_datum (p : Payload) : payload dialect (payloadDocument p).datum = .ok p := by
  show payloadLayout.ofEntries dialect [(.text "type", .text p.typeUrl),
    (.text "value", .text (Text.Base64.encode p.value))] = _
  rw [Layout.ofEntries, readEntries_field rfl (string_text _),
    readEntries_field rfl (base64_encode _)]
  rfl

theorem status_datum : status dialect (statusDocument .empty).datum = .ok .empty := rfl

theorem Fresh.metadata_eq (h : Fresh o) : o.metadata =
    ⟨o.metadata.space, o.metadata.name, "", "", 0, o.metadata.creationTimestamp⟩ :=
  calc o.metadata = ⟨o.metadata.space, o.metadata.name, o.metadata.uid,
        o.metadata.resourceVersion, o.metadata.generation, o.metadata.creationTimestamp⟩ := rfl
    _ = _ := by rw [h.uid_eq, h.resourceVersion_eq, h.generation_eq]

theorem metadata_datum (h : Fresh o) :
    metadata dialect (metadataDocument o.metadata).datum = .ok o.metadata := by
  have hmetadata := h.metadata_eq
  rw [metadataDocument_eq h]
  cases htime : o.metadata.creationTimestamp with
  | none =>
      show metadataLayout.ofEntries dialect [(.text "namespace", .text o.metadata.space),
        (.text "name", .text o.metadata.name)] = _
      rw [Layout.ofEntries, readEntries_field rfl (string_text _),
        readEntries_field rfl (string_text _)]
      rw [htime] at hmetadata
      exact congrArg Except.ok hmetadata.symm
  | some t =>
      show metadataLayout.ofEntries dialect [(.text "namespace", .text o.metadata.space),
        (.text "name", .text o.metadata.name),
        (.text "creationTimestamp", (timestampDocument t).datum)] = _
      rw [Layout.ofEntries, readEntries_field rfl (string_text _),
        readEntries_field rfl (string_text _),
        readEntries_field rfl (timestamp_render (h.isProper t htime))]
      rw [htime] at hmetadata
      exact congrArg Except.ok hmetadata.symm

theorem object_datum (h : Fresh o) : object dialect (objectDocument o).datum = .ok o := by
  show objectLayout.ofEntries dialect [(.text "apiVersion", .text o.apiVersion),
    (.text "kind", .text o.kind.name), (.text "metadata", (metadataDocument o.metadata).datum),
    (.text "spec", (payloadDocument o.spec).datum),
    (.text "status", (statusDocument o.status).datum)] = _
  have hstatus : status dialect (statusDocument o.status).datum = .ok o.status := by
    rw [h.status_eq]
    exact status_datum
  rw [Layout.ofEntries, readEntries_field rfl (string_text _),
    readEntries_field rfl (kind_name _), readEntries_field rfl (metadata_datum h),
    readEntries_field rfl (payload_datum _), readEntries_field rfl hstatus]
  rfl

/-! ### Loading -/

open Command (buildObject renderObject)

section
variable [NewerMessages]
variable {key : ObjectKey} {protocol : Protocol} {message : Bytes} {now : Timestamp}

/-- What is built has the checked key, and nothing that a store records. -/
theorem buildObject_ok (h : buildObject key protocol message now = .ok o) :
    key.isValid = true ∧ o =
      ⟨Object.currentApiVersion, key.kind, ⟨key.space, key.name, "", "", 0, some now⟩,
        ⟨(MessageType.mk protocol key.kind).url, message⟩, .empty⟩ := by
  unfold buildObject at h
  cases hvalid : key.isValid with
  | false =>
      rw [hvalid] at h
      cases h
  | true =>
      rw [hvalid] at h
      dsimp only [Bool.not_true] at h
      rw [if_neg (by decide)] at h
      cases hresource : validate key.kind ⟨(MessageType.mk protocol key.kind).url, message⟩ with
      | error e =>
          rw [hresource] at h
          cases h
      | ok resource =>
          rw [hresource] at h
          cases h
          exact ⟨rfl, rfl⟩

theorem fresh_of_buildObject (hnow : now.IsProper)
    (h : buildObject key protocol message now = .ok o) : Fresh o := by
  obtain ⟨hvalid, rfl⟩ := buildObject_ok h
  obtain ⟨hspace, hname⟩ := ObjectKey.parts_of_isValid hvalid
  have hapi : IsWord Object.currentApiVersion := Yaml.isWord_of_all (by decide)
  exact {
    apiVersion := hapi
    space := Yaml.isWord_of_isSubdomain hspace
    name := Yaml.isWord_of_isSubdomain hname
    uid_eq := rfl
    resourceVersion_eq := rfl
    generation_eq := rfl
    isProper := fun t ht => Option.some.inj ht ▸ hnow
    typeUrl := Yaml.isWord_url _
    status_eq := rfl }

end

/-- In either format a fresh object is a document with its data. -/
theorem says_renderObject (format : Format) (h : Fresh o) :
    Yaml.Says (renderObject format o) (objectDocument o).datum := by
  -- An object is nested three deep, well within what can be read.
  have houtline : (objectDocument o).IsOutline Yaml.Source.maxDepth :=
    isOutline_objectDocument 125 h
  cases format with
  | yaml => exact Yaml.says_render houtline
  | json => exact Yaml.says_json houtline

theorem mapM_ofSource {objects : List Object} {sources : List Yaml.Source}
    (hfresh : ∀ o ∈ objects, Fresh o)
    (hdata : sources.map Yaml.Source.datum
      = (objects.map fun o => (objectDocument o).datum).map .ok) :
    sources.mapM ofSource = .ok (objects.map some) := by
  induction objects generalizing sources with
  | nil =>
      obtain rfl := List.map_eq_nil_iff.1 hdata
      rfl
  | cons o objects ih =>
      obtain ⟨source, rest, rfl, hsource, hrest⟩ := List.map_eq_cons_iff.1 hdata
      have hobject : ofSource source = .ok (some o) := by
        rw [ofSource, hsource]
        show some <$> (object .yaml (objectDocument o).datum).mapError _ = _
        rw [object_datum (hfresh o List.mem_cons_self)]
        rfl
      rw [List.mapM_cons, hobject, Time.Rfc3339.ok_bind,
        ih (fun x hx => hfresh x (List.mem_cons_of_mem o hx)) hrest]
      rfl

/-- What is created can be loaded: objects that were built, each written in a format of its own,
come back from the file in which their documents are joined. -/
theorem ofBytes_created [NewerMessages] {built : List (Object × Format)}
    (h : ∀ b ∈ built, ∃ key protocol message now, Timestamp.IsProper now ∧
      buildObject key protocol message now = .ok b.1) :
    ofBytes (Bytes.ofText ("---\n".intercalate (built.map fun b => renderObject b.2 b.1)))
      = .ok (built.map (·.1)) := by
  have hfresh : ∀ b ∈ built, Fresh b.1 := by
    intro b hb
    obtain ⟨key, protocol, message, now, hnow, hbuild⟩ := h b hb
    exact fresh_of_buildObject hnow hbuild
  have hsays : List.Forall₂ Yaml.Says (built.map fun b => renderObject b.2 b.1)
      ((built.map (·.1)).map fun o => (objectDocument o).datum) := by
    rw [List.map_map, List.forall₂_map_left_iff, List.forall₂_map_right_iff, List.forall₂_same]
    exact fun b hb => says_renderObject b.2 (hfresh b hb)
  have hobjects : ∀ o ∈ built.map (·.1), Fresh o := by
    intro o ho
    obtain ⟨b, hb, rfl⟩ := List.mem_map.1 ho
    exact hfresh b hb
  rw [ofBytes, Text.Base64.toText?_ofText]
  dsimp only
  rw [ofText, mapM_ofSource hobjects (Yaml.datum_ofText hsays)]
  show Except.ok (((built.map (·.1)).map some).filterMap id) = _
  rw [List.filterMap_map]
  simp

/-- Names that would be taken for a null, a boolean or a number, in both formats, the one created in
a leap second and the other before the epoch. -/
theorem ofBytes_reserved_names : ∃ cluster secret,
    buildObject ⟨.cluster, "null", "1e3"⟩ .v2 [0x0a, 0x03, 0x31, 0x65, 0x33]
      ⟨1483228799, 1500000000⟩ = .ok cluster ∧
    buildObject ⟨.secret, "true", "0x1f"⟩ .v3 [0x0a, 0x01, 0x2d] ⟨-62135596801, 1⟩
      = .ok secret ∧
    ofBytes (Bytes.ofText ("---\n".intercalate
      [renderObject .yaml cluster, renderObject .json secret])) = .ok [cluster, secret] := by
  obtain ⟨cluster, hcluster⟩ : ∃ o, buildObject ⟨.cluster, "null", "1e3"⟩ .v2
    [0x0a, 0x03, 0x31, 0x65, 0x33] ⟨1483228799, 1500000000⟩ = .ok o := ⟨_, rfl⟩
  obtain ⟨secret, hsecret⟩ : ∃ o, buildObject ⟨.secret, "true", "0x1f"⟩ .v3
    [0x0a, 0x01, 0x2d] ⟨-62135596801, 1⟩ = .ok o := ⟨_, rfl⟩
  refine ⟨cluster, secret, hcluster, hsecret,
    @ofBytes_created _ [(cluster, .yaml), (secret, .json)] ?_⟩
  intro b hb
  rcases List.mem_cons.1 hb with rfl | hb
  · exact ⟨_, _, _, _, by decide, hcluster⟩
  · obtain rfl := List.mem_singleton.1 hb
    exact ⟨_, _, _, _, by decide, hsecret⟩

end Manifest

end ControlPlane
