import ControlPlane.Yaml.Block
import ControlPlane.Yaml.Flow
import ControlPlane.Yaml.Tag

/-!
# Tokens

A text is cut into tokens from the left. Two of them have no characters of their own: the start
and the end of a block collection follow from the indents of lines. A key without a mark is known
only by the colon after it, so the tokens of a key are put in front of it when the colon is met;
until then the tokens from the key on are not final.
-/

namespace ControlPlane.Yaml

inductive TokenKind where
  | directive (directive : Directive)
  | documentStart
  | documentEnd
  | streamEnd
  | blockSequence
  | blockMapping
  | blockEnd
  | flowSequence
  | flowSequenceEnd
  | flowMapping
  | flowMappingEnd
  | blockEntry
  | flowEntry
  | key
  | value
  | alias (name : String)
  | anchor (name : String)
  | tag (tag : TagName)
  | scalar (text : String) (isPlain : Bool)
  deriving DecidableEq, Repr

structure Token where
  kind : TokenKind
  place : Place
  deriving DecidableEq, Repr

/-- A token that may turn out to begin a key. -/
structure PendingKey where
  /-- Whether a key must stand here. -/
  isRequired : Bool
  /-- The number of the token. -/
  number : Nat
  place : Place
  deriving DecidableEq, Repr

structure Scanner where
  cursor : Cursor
  /-- The tokens so far, the last one first. -/
  tokens : List Token
  /-- How many there are. -/
  count : Nat
  /-- The number of brackets and braces around. -/
  depth : Nat
  /-- The column of the innermost block collection, -1 outside all. -/
  indent : Int
  /-- The columns of those around it. -/
  outer : List Int
  /-- The pending keys: for the text itself and for each bracket or brace, innermost first. -/
  keys : List (Option PendingKey)
  /-- Whether a key without a mark may stand here. -/
  allowsKey : Bool
  isDone : Bool

namespace Scanner

def start (text : List Char) : Scanner where
  cursor := ⟨text, .start⟩
  tokens := []
  count := 0
  depth := 0
  indent := -1
  outer := []
  keys := [none]
  allowsKey := true
  isDone := false

def place (s : Scanner) : Place := s.cursor.place

def inFlow (s : Scanner) : Bool := s.depth != 0

def emit (s : Scanner) (kind : TokenKind) (place : Place) : Scanner :=
  { s with tokens := ⟨kind, place⟩ :: s.tokens, count := s.count + 1 }

/-- Puts a token in front of the one with this number. -/
def emitAt (s : Scanner) (number : Nat) (kind : TokenKind) (place : Place) : Scanner :=
  let newer := s.count - number
  { s with
    tokens := s.tokens.take newer ++ ⟨kind, place⟩ :: s.tokens.drop newer
    count := s.count + 1 }

/-! ### Indents -/

/-- Opens a block collection if the column lies deeper than the innermost one. -/
def openBlock (s : Scanner) (column number : Nat) (kind : TokenKind) (place : Place) : Scanner :=
  if !s.inFlow && s.indent < column then
    { s with indent := column, outer := s.indent :: s.outer }.emitAt number kind place
  else s

/-- Closes block collections that lie deeper than a column, out of a list of those around. -/
def closeBlocksFrom (column : Int) : List Int → Scanner → Scanner
  | [], s => s
  | i :: outer, s =>
    if column < s.indent then
      closeBlocksFrom column outer ({ s with indent := i, outer := outer }.emit .blockEnd s.place)
    else s

def closeBlocks (s : Scanner) (column : Int) : Scanner :=
  if s.inFlow then s else closeBlocksFrom column s.outer s

/-! ### Pending keys -/

def keyContext : String := "while scanning a simple key"

/-- What is wrong when a key must stand somewhere and none does. -/
def missingColon (s : Scanner) (key : PendingKey) : Fault :=
  s.cursor.fault "could not find expected ':'" keyContext key.place

/-- The most characters that a key may have. -/
def maxKeyLength : Nat := 1024

/-- A key without a mark stands on one line and is not too long. -/
def isStale (s : Scanner) (key : PendingKey) : Bool :=
  key.place.line < s.place.line || key.place.column + maxKeyLength < s.place.column

/-- Gives up pending keys that can no longer be keys. -/
def dropStale (s : Scanner) : Except Fault Scanner :=
  match s.keys.findSome? fun key => key.filter fun k => s.isStale k && k.isRequired with
  | some key => .error (s.missingColon key)
  | none => .ok { s with keys := s.keys.map (·.filter fun k => !s.isStale k) }

/-- Gives up the innermost pending key. -/
def dropKey (s : Scanner) : Except Fault Scanner :=
  match s.keys with
  | some key :: rest =>
    if key.isRequired then .error (s.missingColon key) else .ok { s with keys := none :: rest }
  | _ => .ok s

/-- Takes the next token down as a pending key, if one may stand here. -/
def noteKey (s : Scanner) : Except Fault Scanner :=
  if s.allowsKey then do
    let key : PendingKey := ⟨!s.inFlow && s.indent == s.place.column, s.count, s.place⟩
    let s ← s.dropKey
    return { s with keys := some key :: s.keys.drop 1 }
  else .ok s

/-! ### Single tokens -/

/-- What stands between tokens: blanks, breaks and comments. A new line allows a key outside
brackets; a tab does not stand where a key may. A byte order mark that begins a line is passed
over too, and takes up a column. -/
def skipGap (inFlow : Bool) :
    (allowsKey inComment : Bool) → (place : Place) → List Char → Bool × Cursor
  | allows, _, place, [] => (allows, ⟨[], place⟩)
  | allows, inComment, place, c :: rest =>
    if isBreak c then skipGap inFlow (allows || !inFlow) false (place.after c) rest
    else if inComment || c == ' ' || (c == '\t' && (inFlow || !allows))
        || (c == '\ufeff' && place.column == 0) then
      skipGap inFlow allows inComment (place.after c) rest
    else if c == '#' then skipGap inFlow allows true (place.after c) rest
    else (allows, ⟨c :: rest, place⟩)

/-- A token of so many characters. -/
def mark (s : Scanner) (width : Nat) (kind : TokenKind) : Scanner :=
  { s.emit kind s.place with cursor := s.cursor.skipMany width }

def finish (s : Scanner) : Except Fault Scanner := do
  let place : Place := if s.place.column = 0 then s.place else ⟨s.place.line + 1, 0⟩
  let s ← ({ s with cursor := ⟨[], place⟩ }.closeBlocks (-1)).dropKey
  return { s.emit .streamEnd place with allowsKey := false, isDone := true }

def directive (s : Scanner) : Except Fault Scanner := do
  let s ← (s.closeBlocks (-1)).dropKey
  let (directive, cursor) ← Directive.read s.cursor
  return { s.emit (.directive directive) s.place with cursor := cursor, allowsKey := false }

def documentMarker (s : Scanner) (kind : TokenKind) : Except Fault Scanner := do
  let s ← (s.closeBlocks (-1)).dropKey
  return { s.mark 3 kind with allowsKey := false }

def openFlow (s : Scanner) (kind : TokenKind) : Except Fault Scanner := do
  let s ← s.noteKey
  return { s.mark 1 kind with keys := none :: s.keys, depth := s.depth + 1, allowsKey := true }

def closeFlow (s : Scanner) (kind : TokenKind) : Except Fault Scanner := do
  let s ← s.dropKey
  let keys := if s.inFlow then s.keys.drop 1 else s.keys
  return { s.mark 1 kind with keys := keys, depth := s.depth - 1, allowsKey := false }

def flowEntry (s : Scanner) : Except Fault Scanner := do
  let s ← s.dropKey
  return { s.mark 1 .flowEntry with allowsKey := true }

/-- Refuses a mark of a block collection where none may begin. -/
def requireKeyPlace (s : Scanner) (problem : String) : Except Fault Unit :=
  if s.inFlow || s.allowsKey then .ok ()
  else .error (.badSyntax (problem ++ " are not allowed in this context") s.place none)

def blockEntry (s : Scanner) : Except Fault Scanner := do
  s.requireKeyPlace "block sequence entries"
  let s ← (s.openBlock s.place.column s.count .blockSequence s.place).dropKey
  return { s.mark 1 .blockEntry with allowsKey := true }

def explicitKey (s : Scanner) : Except Fault Scanner := do
  s.requireKeyPlace "mapping keys"
  let s ← (s.openBlock s.place.column s.count .blockMapping s.place).dropKey
  return { s.mark 1 .key with allowsKey := !s.inFlow }

def value (s : Scanner) : Except Fault Scanner := do
  match s.keys with
  | some key :: rest =>
    let s := (s.emitAt key.number .key key.place).openBlock key.place.column key.number
      .blockMapping key.place
    return { s.mark 1 .value with keys := none :: rest, allowsKey := false }
  | _ =>
    s.requireKeyPlace "mapping values"
    let s := s.openBlock s.place.column s.count .blockMapping s.place
    return { s.mark 1 .value with allowsKey := !s.inFlow }

def anchor (s : Scanner) (context : String) (kind : String → TokenKind) :
    Except Fault Scanner := do
  let s ← s.noteKey
  let (name, cursor) ← Tag.readAnchor context s.place s.cursor.skip
  return { s.emit (kind name) s.place with cursor := cursor, allowsKey := false }

def tag (s : Scanner) : Except Fault Scanner := do
  let s ← s.noteKey
  let (tag, cursor) ← Tag.read s.inFlow s.cursor
  return { s.emit (.tag tag) s.place with cursor := cursor, allowsKey := false }

def blockScalar (s : Scanner) (isFolded : Bool) : Except Fault Scanner := do
  let s ← s.dropKey
  let (text, cursor) ← Block.read isFolded s.indent s.place s.cursor.skip
  return { s.emit (.scalar (String.ofList text) false) s.place with
    cursor := cursor, allowsKey := true }

def quoted (s : Scanner) (isSingle : Bool) : Except Fault Scanner := do
  let s ← s.noteKey
  let inner := s.cursor.skip
  let (text, cursor) ←
    if isSingle then SingleQuoted.read s.place inner.place [] .none inner.rest
    else DoubleQuoted.read s.place inner.place [] (.text .none) inner.rest
  return { s.emit (.scalar (String.ofList text) false) s.place with
    cursor := cursor, allowsKey := false }

def plain (s : Scanner) : Except Fault Scanner := do
  let s ← s.noteKey
  let setting : Plain.Setting := ⟨s.inFlow, (s.indent + 1).toNat⟩
  let (text, isBroken, cursor) ← Plain.read setting s.place s.place [] .none s.cursor.rest
  return { s.emit (.scalar (String.ofList text) true) s.place with
    cursor := cursor, allowsKey := isBroken }

/-- Whether a scalar without quotes may begin with this character. -/
def startsPlain (s : Scanner) (c : Char) : Bool :=
  !(("-?:,[]\x7b\x7d#&*!|>'\"%@\x60".toList).contains c || isBlank c || isBreak c)
    || (c == '-' && !(s.cursor.peekAt 1 |>.map isBlank).getD false)
    || (!s.inFlow && (c == '?' || c == ':') && !s.cursor.isGapAt 1)

/-- The token that begins here, after what stands before it. -/
def token (s : Scanner) : Except Fault Scanner :=
  let c := s.cursor
  let opens := s.inFlow || c.isGapAt 1
  match c.peek with
  | none => s.finish
  | some x =>
    if c.column = 0 ∧ x = '%' then s.directive
    else if c.isMarker then s.documentMarker (if x = '-' then .documentStart else .documentEnd)
    else if x = '[' then s.openFlow .flowSequence
    else if x = '\x7b' then s.openFlow .flowMapping
    else if x = ']' then s.closeFlow .flowSequenceEnd
    else if x = '\x7d' then s.closeFlow .flowMappingEnd
    else if x = ',' then s.flowEntry
    else if x = '-' ∧ c.isGapAt 1 then s.blockEntry
    else if x = '?' ∧ opens then s.explicitKey
    else if x = ':' ∧ opens then s.value
    else if x = '*' then s.anchor "while scanning an alias" .alias
    else if x = '&' then s.anchor "while scanning an anchor" .anchor
    else if x = '!' then s.tag
    else if x = '|' ∧ !s.inFlow then s.blockScalar false
    else if x = '>' ∧ !s.inFlow then s.blockScalar true
    else if x = '\'' then s.quoted true
    else if x = '"' then s.quoted false
    else if s.startsPlain x then s.plain
    else
      .error (c.fault "found character that cannot start any token"
        "while scanning for the next token" c.place)

def step (s : Scanner) : Except Fault Scanner := do
  let (allows, cursor) := skipGap s.inFlow s.allowsKey false s.place s.cursor.rest
  let s ← { s with cursor := cursor, allowsKey := allows }.dropStale
  (s.closeBlocks s.place.column).token

/-- The tokens in front of the first pending key. -/
def settled (s : Scanner) : List Token :=
  let pending := s.keys.filterMap (·.map (·.number))
  s.tokens.reverse.take (pending.foldl min s.count)

/-- Scans on. Each step but the last takes up a character, which is what the fuel counts. -/
def run : Nat → Scanner → List Token × Option Fault
  | 0, s => (s.settled, none)
  | fuel + 1, s =>
    match s.dropStale with
    | .error fault => (s.settled, some fault)
    | .ok s =>
      if s.isDone then (s.tokens.reverse, none)
      else match s.step with
        | .error fault => (s.settled, some fault)
        | .ok s => run fuel s

end Scanner

/-- The tokens of a text with even breaks, up to what is wrong with it. -/
def Token.scan (text : List Char) : List Token × Option Fault :=
  (Scanner.start text).run (text.length + 2)

end ControlPlane.Yaml
