import ControlPlane.Bytes

/-!
# Documents

The tree of texts, numbers, lists and records that is written out as a manifest or a configuration.
The fields of a record keep their order. In JSON text each item and each field has a line of its own,
two spaces deeper than what holds it.
-/

namespace ControlPlane

inductive Document where
  | null
  | bool (value : Bool)
  | int (value : Int)
  | text (value : String)
  | list (items : List Document)
  | record (fields : List (String × Document))

namespace Json

/-- A character inside a quoted text. -/
def escapeChar (c : Char) : List Char :=
  if c = '"' then ['\\', '"']
  else if c = '\\' then ['\\', '\\']
  else if c = '\n' then ['\\', 'n']
  else if c = '\r' then ['\\', 'r']
  else if c = '\t' then ['\\', 't']
  else if c = '\x08' then ['\\', 'b']
  else if c = '\x0c' then ['\\', 'f']
  else if c.toNat < 32 then
    ['\\', 'u', '0', '0', Bytes.hexDigit (c.toNat / 16), Bytes.hexDigit (c.toNat % 16)]
  else [c]

def quoted (text : String) : List Char := '"' :: text.toList.flatMap escapeChar ++ ['"']

/-- A line break and the indent of a depth. -/
def newline (depth : Nat) : List Char := '\n' :: List.replicate (2 * depth) ' '

mutual

def write (depth : Nat) : Document → List Char
  | .null => "null".toList
  | .bool true => "true".toList
  | .bool false => "false".toList
  | .int value => (toString value).toList
  | .text value => quoted value
  | .list [] => ['[', ']']
  | .list (item :: rest) =>
    '[' :: newline (depth + 1) ++ write (depth + 1) item ++ writeItems (depth + 1) rest
      ++ newline depth ++ [']']
  | .record [] => ['\x7b', '\x7d']
  | .record (field :: rest) =>
    '\x7b' :: writeField (depth + 1) field ++ writeFields (depth + 1) rest
      ++ newline depth ++ ['\x7d']

/-- The items after the first. -/
def writeItems (depth : Nat) : List Document → List Char
  | [] => []
  | item :: rest => ',' :: newline depth ++ write depth item ++ writeItems depth rest

def writeField (depth : Nat) : String × Document → List Char
  | (name, value) => newline depth ++ quoted name ++ ':' :: ' ' :: write depth value

/-- The fields after the first. -/
def writeFields (depth : Nat) : List (String × Document) → List Char
  | [] => []
  | field :: rest => ',' :: writeField depth field ++ writeFields depth rest

end

def render (document : Document) : String := String.ofList (write 0 document)

end Json

end ControlPlane
