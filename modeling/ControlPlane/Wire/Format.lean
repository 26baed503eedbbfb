import ControlPlane.Bytes

/-!
# The wire format

Messages are runs of fields. A field opens with a key, a varint that holds the field number and
one of six wire types; the wire type says how far the field reaches, so a reader can pass over a
field it does not know. Every reader here returns what it read and the bytes that follow.
-/

namespace ControlPlane.Wire

inductive WireType where
  | varint
  | sixtyFourBit
  | lengthDelimited
  | startGroup
  | endGroup
  | thirtyTwoBit
  deriving DecidableEq, Repr

namespace WireType

def ofNat? : Nat → Option WireType
  | 0 => some varint
  | 1 => some sixtyFourBit
  | 2 => some lengthDelimited
  | 3 => some startGroup
  | 4 => some endGroup
  | 5 => some thirtyTwoBit
  | _ => none

def name : WireType → String
  | varint => "Varint"
  | sixtyFourBit => "SixtyFourBit"
  | lengthDelimited => "LengthDelimited"
  | startGroup => "StartGroup"
  | endGroup => "EndGroup"
  | thirtyTwoBit => "ThirtyTwoBit"

end WireType

/-- Why bytes are not a message. -/
inductive Cause where
  | invalidVarint
  | keyTooLarge (key : Nat)
  | unknownWireType (code : Nat)
  | zeroFieldNumber
  | wireTypeMismatch (found expected : WireType)
  | underflow
  | lengthExceeded
  | notUtf8
  | strayGroupEnd
  | tooDeep
  deriving DecidableEq, Repr

def Cause.message : Cause → String
  | invalidVarint => "invalid varint"
  | keyTooLarge key => s!"invalid key value: {key}"
  | unknownWireType code => s!"invalid wire type value: {code}"
  | zeroFieldNumber => "invalid tag value: 0"
  | wireTypeMismatch found expected =>
    "invalid wire type: " ++ found.name ++ " (expected " ++ expected.name ++ ")"
  | underflow => "buffer underflow"
  | lengthExceeded => "delimited length exceeded"
  | notUtf8 => "invalid string value: data is not UTF-8 encoded"
  | strayGroupEnd => "unexpected end group tag"
  | tooDeep => "recursion limit reached"

/-- Seven bits of each byte, least significant first; `left` bytes may still follow. The last of ten
bytes has room for one bit only. -/
def readVarintFrom : Nat → Bytes → Except Cause (Nat × Bytes)
  | 0, _ => .error .invalidVarint
  | _ + 1, [] => .error .invalidVarint
  | left + 1, byte :: rest =>
    if byte < 128 then
      if left = 0 ∧ 2 ≤ byte then .error .invalidVarint else .ok (byte.toNat, rest)
    else
      match readVarintFrom left rest with
      | .error cause => .error cause
      | .ok (high, rest) => .ok (byte.toNat - 128 + 128 * high, rest)

def readVarint (bytes : Bytes) : Except Cause (Nat × Bytes) := readVarintFrom 10 bytes

/-- The greatest value of a key. -/
def maxKey : Nat := Nat.pow 2 32 - 1

/-- A field number and the wire type of its value. -/
def readKey (bytes : Bytes) : Except Cause (Nat × WireType × Bytes) := do
  let (key, rest) ← readVarint bytes
  if maxKey < key then throw (.keyTooLarge key)
  match WireType.ofNat? (key % 8) with
  | none => throw (.unknownWireType (key % 8))
  | some wireType =>
    if key / 8 = 0 then throw .zeroFieldNumber
    return (key / 8, wireType, rest)

def expect (found expected : WireType) : Except Cause Unit :=
  if found = expected then .ok () else .error (.wireTypeMismatch found expected)

/-- A value below the nesting limit: none may open with no depth left. -/
def expectDepth (depth : Nat) : Except Cause Unit :=
  if depth = 0 then .error .tooDeep else .ok ()

/-- Splits off `n` bytes. -/
def takeBytes (n : Nat) (bytes : Bytes) : Except Cause (Bytes × Bytes) :=
  if bytes.length < n then .error .underflow else .ok (bytes.take n, bytes.drop n)

/-- A length and as many bytes. -/
def readDelimited (bytes : Bytes) : Except Cause (Bytes × Bytes) := do
  let (length, rest) ← readVarint bytes
  takeBytes length rest

def readText (bytes : Bytes) : Except Cause (String × Bytes) := do
  let (content, rest) ← readDelimited bytes
  match content.toText? with
  | none => throw .notUtf8
  | some text => return (text, rest)

/-- Passes over a value that is not a group. -/
def skipScalar (wireType : WireType) (bytes : Bytes) : Except Cause Bytes :=
  match wireType with
  | .varint => (·.2) <$> readVarint bytes
  | .sixtyFourBit => (·.2) <$> takeBytes 8 bytes
  | .thirtyTwoBit => (·.2) <$> takeBytes 4 bytes
  | .lengthDelimited => (·.2) <$> readDelimited bytes
  | .startGroup | .endGroup => .error .strayGroupEnd

/-- Passes over the fields of the group that `number` opened, and its end. Each field costs `fuel`,
of which the bytes left are enough. -/
def skipGroup : Nat → Nat → Nat → Bytes → Except Cause Bytes
  | 0, _, _, _ => .error .invalidVarint
  | fuel + 1, depth, number, bytes => do
    let (inner, wireType, rest) ← readKey bytes
    match wireType with
    | .endGroup => if inner = number then return rest else throw .strayGroupEnd
    | .startGroup =>
      expectDepth (depth - 1)
      let rest ← skipGroup fuel (depth - 1) inner rest
      skipGroup fuel depth number rest
    | _ =>
      expectDepth (depth - 1)
      let rest ← skipScalar wireType rest
      skipGroup fuel depth number rest

/-- Passes over the value of a field that the message does not have. -/
def skipValue (depth number : Nat) (wireType : WireType) (bytes : Bytes) : Except Cause Bytes := do
  expectDepth depth
  match wireType with
  | .startGroup => skipGroup (bytes.length + 1) depth number bytes
  | _ => skipScalar wireType bytes

end ControlPlane.Wire
