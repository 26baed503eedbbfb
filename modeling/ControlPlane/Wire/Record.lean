import ControlPlane.Wire.Format
import ControlPlane.Wire.Schema

/-!
# Decoded messages

A decoded message is the list of its known fields in the order of the bytes. Merging two parts of
one message is appending, so the meaning of a repeated occurrence is left to the readers of a
record: the last scalar counts, messages of one field are joined, a choice holds its last member.
-/

namespace ControlPlane.Wire

inductive FieldValue where
  | varint (n : Nat)
  | double (bytes : Bytes)
  | text (content : String)
  | record (fields : List (Nat × FieldValue))

/-- The known fields of a message, by number, in the order of the bytes. -/
abbrev Record := List (Nat × FieldValue)

/-- Why bytes do not decode, and where: the fields entered, innermost first. -/
structure Failure where
  cause : Cause
  path : List String
  deriving DecidableEq, Repr

namespace Failure

def ofCause (cause : Cause) : Failure := ⟨cause, []⟩

/-- The failure as seen from the message around it. -/
def inside (label : Option String) (failure : Failure) : Failure :=
  match label with
  | none => failure
  | some l => { failure with path := failure.path ++ [l] }

def message (failure : Failure) : String :=
  "failed to decode Protobuf message: "
    ++ String.join (failure.path.map (· ++ ": ")) ++ failure.cause.message

end Failure

/-- A step of reading, as a failure of the message read. -/
def located {α : Type} (step : Except Cause α) : Except Failure α :=
  step.mapError Failure.ofCause

/-- Messages nest at most this deep. -/
def depthLimit : Nat := 100

/-- Reads fields of a message until no more than `stop` bytes are left, which must then be exactly
as many. Lengths inside the message are held against all the bytes, so that it can overrun its own.
Each field costs `fuel`, of which the bytes left are enough. -/
def readFields : Nat → Shape → Nat → Nat → Bytes → Except Failure (Record × Bytes)
  | 0, _, _, _, _ => .error (.ofCause .invalidVarint)
  | fuel + 1, shape, depth, stop, bytes =>
    if bytes.length ≤ stop then
      if bytes.length = stop then .ok ([], bytes) else .error (.ofCause .lengthExceeded)
    else do
      let (number, wireType, rest) ← located (readKey bytes)
      match shape.field? number with
      | none =>
        let rest ← located (skipValue depth number wireType rest)
        readFields fuel shape depth stop rest
      | some field =>
        let nested (inner : Shape) : Except Failure (FieldValue × Bytes) := do
          located (expectDepth depth)
          let (length, rest) ← located (readVarint rest)
          if rest.length < length then throw (.ofCause .underflow)
          let (fields, rest) ← readFields fuel inner (depth - 1) (rest.length - length) rest
          return (.record fields, rest)
        let value : Except Failure (FieldValue × Bytes) := do
          match field.type with
          | .varint =>
            located (expect wireType .varint)
            let (n, rest) ← located (readVarint rest)
            return (.varint n, rest)
          | .double =>
            located (expect wireType .sixtyFourBit)
            let (content, rest) ← located (takeBytes 8 rest)
            return (.double content, rest)
          | .text =>
            located (expect wireType .lengthDelimited)
            let (content, rest) ← located (readText rest)
            return (.text content, rest)
          | .message inner =>
            located (expect wireType .lengthDelimited)
            nested inner
          | .entry inner => nested inner
        let (found, rest) ← value.mapError (Failure.inside field.label)
        let (more, rest) ← readFields fuel shape depth stop rest
        return ((number, found) :: more, rest)

/-- Reads all the bytes as one message. -/
def decode (shape : Shape) (bytes : Bytes) : Except Failure Record :=
  (·.1) <$> readFields (bytes.length + 1) shape depthLimit 0 bytes

namespace Record

/-- What a record holds under a number, in order. -/
def occurrences (number : Nat) (record : Record) : List FieldValue :=
  (record.filter fun f => f.1 == number).map (·.2)

def texts (number : Nat) (record : Record) : List String :=
  (record.occurrences number).filterMap fun
    | .text content => some content
    | _ => none

/-- The last text under a number, or the empty one. -/
def text (number : Nat) (record : Record) : String :=
  ((record.texts number).getLast?).getD ""

def records (number : Nat) (record : Record) : List Record :=
  (record.occurrences number).filterMap fun
    | .record fields => some fields
    | _ => none

/-- The parts of one message under a number, joined, if there is any. -/
def joined? (number : Nat) (record : Record) : Option Record :=
  match record.records number with
  | [] => none
  | parts => some parts.flatten

/-- The last integer under a number, or zero. -/
def varint (number : Nat) (record : Record) : Nat :=
  (((record.occurrences number).filterMap fun
    | .varint n => some n
    | _ => none).getLast?).getD 0

/-- The messages that stand under any of some numbers, each with its number, in order. -/
def members (numbers : List Nat) (record : Record) : List (Nat × Record) :=
  record.filterMap fun
    | (number, .record fields) => if numbers.contains number then some (number, fields) else none
    | _ => none

/-- The member that a choice among messages holds: the last one's number, and what that member has
taken up since another one was last there. -/
def choice? (numbers : List Nat) (record : Record) : Option (Nat × Record) :=
  match (record.members numbers).reverse with
  | [] => none
  | last :: earlier =>
    some (last.1,
      ((last :: earlier.takeWhile fun m => m.1 == last.1).reverse.map (·.2)).flatten)

end Record

/-- The value of a 64-bit word read as signed. -/
def signed64 (n : Nat) : Int := (Int.ofNat n).bmod (Nat.pow 2 64)

/-- The value of the low half of a 64-bit word read as signed. -/
def signed32 (n : Nat) : Int := (Int.ofNat n).bmod (Nat.pow 2 32)

/-- The value of the low half of a 64-bit word. -/
def unsigned32 (n : Nat) : Nat := n % Nat.pow 2 32

end ControlPlane.Wire
