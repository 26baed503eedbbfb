import ControlPlane.Data.Datum
import ControlPlane.Text.Quoted

/-!
# Reading typed values out of data

A decoder takes a datum and gives a value or says what is wrong with it: the datum is of another
type than expected, its value is out of range, a field is missing, or a variant is unknown. Data
comes from two dialects of text; they differ in what may stand for a missing record, in how a
variant is written, and in how some values are named in messages.
-/

namespace ControlPlane

/-- The dialects that data is read from. -/
inductive Dialect where
  | json
  | yaml
  deriving DecidableEq, Repr

/-- What is wrong with a datum. -/
inductive DecodeError where
  | invalidType (found expected : String)
  | invalidValue (found expected : String)
  | invalidLength (length : Nat) (expected : String)
  | missingField (name : String)
  | unknownVariant (name : String) (expected : List String)
  /-- The text of a scalar does not have the form it should; the details are given. -/
  | malformed (details : String)
  deriving DecidableEq, Repr

namespace DecodeError

/-- Names between backticks, as a choice. -/
def oneOf (names : List String) : String :=
  match names with
  | [a] => "`" ++ a ++ "`"
  | [a, b] => "`" ++ a ++ "` or `" ++ b ++ "`"
  | names => "one of " ++ ", ".intercalate (names.map fun n => "`" ++ n ++ "`")

def message : DecodeError → String
  | invalidType found expected => "invalid type: " ++ found ++ ", expected " ++ expected
  | invalidValue found expected => "invalid value: " ++ found ++ ", expected " ++ expected
  | invalidLength length expected =>
    "invalid length " ++ toString length ++ ", expected " ++ expected
  | missingField name => "missing field `" ++ name ++ "`"
  | unknownVariant name expected =>
    "unknown variant `" ++ name ++ "`, expected " ++ oneOf expected
  | malformed details => details

end DecodeError

abbrev Decoder (α : Type) := Dialect → Datum → Except DecodeError α

namespace Decode

/-- How a message names what was found. -/
def describe (dialect : Dialect) : Datum → String
  | .null => match dialect with
    | .json => "null"
    | .yaml => "unit value"
  | .bool value => "boolean `" ++ toString value ++ "`"
  | .int value => "integer `" ++ toString value ++ "`"
  | .float value =>
    let text := match dialect with
      | .json => value.compactText
      | .yaml => value.plainText
    "floating point `" ++ text ++ "`"
  | .text value => "string " ++ Text.quote value
  | .list _ => "sequence"
  | .dict _ => "map"
  | .tagged _ _ => "enum"

def mismatch {α : Type} (dialect : Dialect) (found : Datum) (expected : String) :
    Except DecodeError α :=
  .error (.invalidType (describe dialect found) expected)

/-- A text; a message says what the text is to be. -/
def text (expected : String) : Decoder String := fun dialect datum =>
  match datum.untagged with
  | .text value => .ok value
  | other => mismatch dialect other expected

def string : Decoder String := text "a string"

def bool : Decoder Bool := fun dialect datum =>
  match datum.untagged with
  | .bool value => .ok value
  | other => mismatch dialect other "a boolean"

/-- An integer between two bounds, of a named type. -/
def integer (low high : Int) (type : String) : Decoder Int := fun dialect datum =>
  match datum.untagged with
  | .int value =>
    if low ≤ value ∧ value ≤ high then .ok value
    else .error (.invalidValue (describe dialect (.int value)) type)
  | other => mismatch dialect other type

def int64 : Decoder Int := integer (-Nat.pow 2 63) (Nat.pow 2 63 - 1) "i64"

/-- A natural number of so many bits, of a named type. -/
def unsigned (bits : Nat) (type : String) : Decoder Nat := fun dialect datum =>
  (integer 0 (Nat.pow 2 bits - 1) type dialect datum).map Int.toNat

/-- A value that may be null. -/
def optional {α : Type} (decoder : Decoder α) : Decoder (Option α) := fun dialect datum =>
  if datum.isNull then .ok none else some <$> decoder dialect datum

def list {α : Type} (decoder : Decoder α) : Decoder (List α) := fun dialect datum =>
  match datum.untagged, dialect with
  | .list items, _ => items.mapM (decoder dialect)
  | .null, .yaml => .ok []
  | other, _ => mismatch dialect other "a sequence"

/-- The name of a tag without its mark. -/
def tagName (tag : String) : String :=
  match tag.toList with
  | '!' :: c :: rest => String.ofList (c :: rest)
  | _ => tag

/-- The variant with a name. -/
def named {α : Type} (variants : List (String × α)) (name : String) : Except DecodeError α :=
  match variants.find? (·.1 == name) with
  | some v => .ok v.2
  | none => .error (.unknownVariant name (variants.map (·.1)))

/-- A variant by name. It may be given with a content, which must be null. -/
def variant {α : Type} (variants : List (String × α)) : Decoder α := fun dialect datum =>
  let withContent (name : String) (content : Datum) : Except DecodeError α := do
    let value ← named variants name
    if content.isNull then return value else mismatch dialect content "unit"
  match dialect, datum with
  | _, .text name => named variants name
  | .json, .dict [(.text name, content)] => withContent name content
  | .json, .dict _ => .error (.invalidValue "map" "map with a single key")
  | .json, other => mismatch dialect other "string or map"
  | .yaml, .tagged tag content => withContent (tagName tag) content
  | .yaml, other => mismatch dialect other "a Value::Tagged enum"

/-- A field of a record: its name, and how a draft of the record takes its value up. -/
structure FieldReader (σ : Type) where
  name : String
  read : Dialect → Datum → σ → Except DecodeError σ

def field {σ α : Type} (name : String) (decoder : Decoder α) (enter : α → σ → σ) :
    FieldReader σ :=
  ⟨name, fun dialect datum draft => do return enter (← decoder dialect datum) draft⟩

/-- Reads the entries of a mapping in their order; an entry of no field is passed over. -/
def readEntries {σ : Type} (fields : List (FieldReader σ)) (dialect : Dialect) :
    List (Datum × Datum) → σ → Except DecodeError σ
  | [], draft => .ok draft
  | (key, value) :: rest, draft => do
    let name ← text "field identifier" dialect key
    match fields.find? (·.name == name) with
    | none => readEntries fields dialect rest draft
    | some field => readEntries fields dialect rest (← field.read dialect value draft)

/-- Reads fields from items by place, as far as there are items. -/
def readItems {σ : Type} (dialect : Dialect) :
    List (FieldReader σ) → List Datum → σ → Except DecodeError σ
  | field :: fields, item :: items, draft => do
    readItems dialect fields items (← field.read dialect item draft)
  | _, _, draft => .ok draft

/-- How a record is read: a draft is filled field by field, and completed if nothing is missing from
it. -/
structure Layout (σ α : Type) where
  name : String
  fields : List (FieldReader σ)
  /-- The draft before any field is read. -/
  draft : σ
  /-- The record, or the first field that is missing. -/
  complete : σ → Except String α
  /-- The last fields, which a mapping may leave out for null and a sequence may not. -/
  nullable : List String := []

namespace Layout

variable {σ α : Type}

/-- Reads a record from a mapping, by the names of its fields. -/
def ofEntries (layout : Layout σ α) (dialect : Dialect) (entries : List (Datum × Datum)) :
    Except DecodeError α := do
  let draft ← readEntries layout.fields dialect entries layout.draft
  (layout.complete draft).mapError .missingField

/-- How a message calls the record when it is read by place. -/
def shape (layout : Layout σ α) : String :=
  let count := layout.fields.length
  "struct " ++ layout.name ++ " with " ++ toString count
    ++ (if count = 1 then " element" else " elements")

/-- Reads a record from a sequence, by the places of its fields. -/
def ofItems (layout : Layout σ α) (dialect : Dialect) (items : List Datum) :
    Except DecodeError α := do
  let draft ← readItems dialect layout.fields items layout.draft
  let names := layout.fields.map (·.name)
  let missing (name : String) : DecodeError := .invalidLength (names.idxOf name) layout.shape
  let value ← (layout.complete draft).mapError missing
  if let some name := (names.drop items.length).find? layout.nullable.contains then
    throw (missing name)
  if layout.fields.length < items.length then
    throw (.invalidLength items.length "fewer elements in array")
  return value

/-- Reads a record. In JSON it may be a sequence, in YAML it may be left empty. -/
def decode (layout : Layout σ α) : Decoder α := fun dialect datum =>
  match datum.untagged, dialect with
  | .dict entries, _ => layout.ofEntries dialect entries
  | .list items, .json => layout.ofItems dialect items
  | .null, .yaml => layout.ofEntries .yaml []
  | other, _ => mismatch dialect other ("struct " ++ layout.name)

end Layout

/-- The value of a field that must be there. -/
def need {α : Type} (name : String) : Option α → Except String α
  | some value => .ok value
  | none => .error name

end Decode

end ControlPlane
