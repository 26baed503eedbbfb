import ControlPlane.Text.Quoted
import ControlPlane.Yaml.Event
import ControlPlane.Yaml.Scalar

/-!
# Nodes

A document as a tree, in which an alias stands for the node that carries its anchor, and its data.
A document that breaks off has a broken node where its text does, so what is wrong with the data
in front of it is found first.
-/

namespace ControlPlane.Yaml

inductive Node where
  | alias (anchor : Nat)
  | scalar (tag : Option String) (text : String) (isPlain : Bool) (place : Place)
  | sequence (tag : Option String) (items : List Node) (place : Place)
  | mapping (tag : Option String) (entries : List (Node × Node)) (place : Place)
  | broken

/-- A document: its tree, if anything of it could be read, and what is wrong with its text. -/
structure Source where
  root : Option Node
  /-- The nodes that carry anchors, by the number of the anchor. -/
  anchored : List (Nat × Node)
  /-- The number of events that the tree was made from. -/
  size : Nat
  fault : Option Fault

namespace Node

/-- A collection that has been opened. -/
structure Frame where
  isMapping : Bool
  tag : Option String
  place : Place
  /-- The number of its first event, if it carries an anchor. -/
  anchoredAt : Option Nat
  /-- The nodes inside, the last one first; in a mapping keys and values take turns. -/
  children : List Node

/-- Keys with their values. -/
def pairs : List Node → List (Node × Node)
  | key :: value :: rest => (key, value) :: pairs rest
  | [key] => [(key, .broken)]
  | [] => []

def Frame.close (f : Frame) : Node :=
  if f.isMapping then .mapping f.tag (pairs f.children.reverse) f.place
  else .sequence f.tag f.children.reverse f.place

structure Builder where
  frames : List Frame
  root : Option Node
  /-- The numbers of the anchors by name. -/
  names : List (String × Nat)
  /-- The first event of the node that an anchor stands for, by number. -/
  starts : List (Nat × Nat)
  /-- The nodes that carry anchors, by first event. -/
  kept : List (Nat × Node)
  /-- How many events were taken up. -/
  size : Nat

namespace Builder

def empty : Builder := ⟨[], none, [], [], [], 0⟩

/-- Puts a finished node into the collection around it. -/
def place (b : Builder) (node : Node) (anchoredAt : Option Nat) : Builder :=
  let b := match anchoredAt with
    | some start => { b with kept := (start, node) :: b.kept }
    | none => b
  match b.frames with
  | f :: rest => { b with frames := { f with children := node :: f.children } :: rest }
  | [] => { b with root := some node }

/-- Takes an anchor down. Its number is the number of names that are known. -/
def note (b : Builder) (anchor : Option String) : Builder :=
  match anchor with
  | none => b
  | some name =>
    let number := b.names.length
    { b with
      names := (name, number) :: b.names.filter (·.1 != name)
      starts := (number, b.size) :: b.starts }

def openFrame (b : Builder) (isMapping : Bool) (anchor tag : Option String) (place : Place) :
    Builder :=
  let frame : Frame := ⟨isMapping, tag, place, anchor.map fun _ => b.size, []⟩
  let b := b.note anchor
  { b with frames := frame :: b.frames }

def closeFrame (b : Builder) : Builder :=
  match b.frames with
  | f :: rest => { b with frames := rest }.place f.close f.anchoredAt
  | [] => b

/-- Closes all that is open around what breaks off. -/
def breakOff : Nat → Builder → Builder
  | 0, b => b
  | n + 1, b => breakOff n b.closeFrame

/-- The document, with what is wrong with it. -/
def source (b : Builder) (fault : Option Fault) : Source :=
  let b := if b.frames.isEmpty then b else breakOff b.frames.length (b.place .broken none)
  let anchored := b.starts.filterMap fun (number, start) =>
    (b.kept.lookup start).map fun node => (number, node)
  ⟨b.root, anchored, b.size, fault⟩

/-- Takes up an event inside a document. -/
def add (b : Builder) (event : Event) (place : Place) : Except Fault Builder :=
  let counted (b : Builder) : Builder := { b with size := b.size + 1 }
  match event with
  | .alias name =>
    match b.names.lookup name with
    | some number => .ok (counted (b.place (.alias number) none))
    | none => .error (.unknownAnchor place)
  | .scalar anchor tag text isPlain =>
    let start := anchor.map fun _ => b.size
    .ok (counted ((b.note anchor).place (.scalar tag text isPlain place) start))
  | .sequenceStart anchor tag => .ok (counted (b.openFrame false anchor tag place))
  | .mappingStart anchor tag => .ok (counted (b.openFrame true anchor tag place))
  | .sequenceEnd | .mappingEnd => .ok (counted b.closeFrame)
  | .documentStart | .documentEnd => .ok b

end Builder

/-- The documents of a stream, up to the first with something wrong in its text. -/
def documentsFrom (fault : Option Fault) : Builder → List (Event × Place) → List Source
  | b, [] => match fault with
    | some f => [b.source (some f)]
    | none => []
  | b, (.documentEnd, _) :: rest => b.source none :: documentsFrom fault .empty rest
  | b, (event, place) :: rest =>
    match b.add event place with
    | .ok b => documentsFrom fault b rest
    | .error f => [b.source (some f)]

end Node

/-- The byte position of the first character that no text may hold. -/
def controlAt? : (position : Nat) → List Char → Option Nat
  | _, [] => none
  | position, c :: rest =>
    let n := c.toNat
    if n == 9 || n == 10 || n == 13 || (0x20 ≤ n && n ≤ 0x7e) || n == 0x85
        || (0xa0 ≤ n && n != 0xfffe && n != 0xffff) then
      controlAt? (position + c.utf8Size) rest
    else some position

/-- The documents of a text. -/
def Source.ofText (text : String) : List Source :=
  match controlAt? 0 text.toList with
  | some position => [⟨none, [], 0, some (.control position)⟩]
  | none =>
    let (tokens, fault) := Token.scan (evenBreaks text.toList)
    let (events, fault) := Event.ofTokens tokens fault
    Node.documentsFrom fault .empty events

/-! ### Data -/

/-- The text of a tag after its mark, unless the tag is one of the standard's. -/
def customTag? (tag : Option String) : Option String :=
  tag.bind fun t => match t.toList with
    | '!' :: rest => some (String.ofList rest)
    | _ => none

/-- A standard tag by its short name. -/
def standardTag (name : String) : String := "tag:yaml.org,2002:" ++ name

/-- What is said of an integer that nothing holds. -/
def wideText (value : Int) : String :=
  "invalid type: integer \x60" ++ toString value ++ "\x60 as "
    ++ (if 0 ≤ value then "u128" else "i128") ++ ", expected any YAML value"

def datumOf (place : Place) : Scalar.Meaning → Except Fault Datum
  | .datum value => .ok value
  | .wide value => .error (.badValue (wideText value) place)

/-- A scalar under a tag of the standard, or under none. -/
def scalarDatum (tag : Option String) (text : String) (isPlain : Bool) (place : Place) :
    Except Fault Datum :=
  let refuse (expected : String) : Except Fault Datum :=
    .error (.badValue ("invalid value: string " ++ Text.quote text ++ ", expected " ++ expected)
      place)
  match tag with
  | none => if isPlain then datumOf place (Scalar.meaning text) else .ok (.text text)
  | some tag =>
    if tag = standardTag "bool" then
      match Scalar.bool? text with
      | some value => .ok (.bool value)
      | none => refuse "a boolean"
    else if tag = standardTag "int" then
      match (Scalar.integer? text.toList).bind Scalar.sized? with
      | some meaning => datumOf place meaning
      | none => refuse "an integer"
    else if tag = standardTag "float" then
      match Scalar.float? text.toList with
      | some value => .ok (.float value)
      | none => refuse "a float"
    else if tag = standardTag "null" then
      if Scalar.isNull text then .ok .null else refuse "null"
    else .ok (.text text)

/-- How a key is named that stands twice in a mapping. -/
def keyText : Datum → String
  | .null => "with null key"
  | .bool value => "with key \x60" ++ toString value ++ "\x60"
  | .int value => "with key " ++ toString value
  | .float value => "with key " ++ value.bareText
  | .text value => "with key " ++ Text.quote value
  | .list _ | .dict _ | .tagged _ _ => "in YAML map"

/-- Work on the data of a document: it counts the aliases followed. -/
abbrev Reading := StateT Nat (Except Fault)

namespace Source

/-- How deep collections may be nested. -/
def maxDepth : Nat := 128

/-- How often, for each event, an alias may be followed. -/
def maxRepetitions : Nat := 100

/-- The node that is meant: an alias is followed. -/
def follow (s : Source) (node : Node) : Reading Node := do
  match node with
  | .alias number =>
    let count := (← get) + 1
    set count
    if s.size * maxRepetitions < count then throw .tooManyRepetitions
    return (s.anchored.lookup number).getD .broken
  | node => return node

/-- Reads the entries of a mapping; no two may have the same key. -/
def readEntries (read : Node → Reading Datum) (place : Place) :
    (before : List (Datum × Datum)) → List (Node × Node) → Reading (List (Datum × Datum))
  | before, [] => return before.reverse
  | before, (keyNode, valueNode) :: rest => do
    let key ← read keyNode
    if before.any fun e => Datum.same e.1 key then
      throw (.badValue ("duplicate entry " ++ keyText key) place)
    let value ← read valueNode
    readEntries read place ((key, value) :: before) rest

/-- The datum of a node under a tag that is not the standard's. -/
def tagged (tag : Option String) (place : Place) (content : Reading Datum) : Reading Datum :=
  match customTag? tag with
  | none => content
  | some name => do
    if name = "" then throw (.badValue "empty YAML tag is not allowed" place)
    return .tagged name (← content)

/-- The datum of a node, with collections nested at most so deep. -/
def read (s : Source) : Nat → Node → Reading Datum
  | depth, node => do
    match ← s.follow node with
    | .scalar tag text isPlain place =>
      let plainTag := if (customTag? tag).isSome then none else tag
      tagged tag place (liftM (scalarDatum plainTag text isPlain place))
    | .sequence tag items place =>
      tagged tag place <| match depth with
        | 0 => throw (.tooDeep place)
        | depth + 1 => return .list (← items.mapM (s.read depth))
    | .mapping tag entries place =>
      tagged tag place <| match depth with
        | 0 => throw (.tooDeep place)
        | depth + 1 => return .dict (← readEntries (s.read depth) place [] entries)
    | _ => throw (s.fault.getD (.badSyntax "EOF while parsing a value" .start none))

/-- The data of a document. -/
def datum (s : Source) : Except Fault Datum := do
  let (value, _) ← (s.read maxDepth (s.root.getD .broken)).run 0
  match s.fault with
  | some fault => throw fault
  | none => return value

end Source

end ControlPlane.Yaml
