import ControlPlane.Yaml.Token

/-!
# Events

The structure of a stream of documents, laid out flat: where documents, sequences and mappings begin
and end, and the scalars and aliases in between. Events are made from tokens one at a time; what may
come next is a state, and the states of the collections around wait on a stack.
-/

namespace ControlPlane.Yaml

inductive Event where
  | documentStart
  | documentEnd
  | alias (anchor : String)
  | scalar (anchor tag : Option String) (text : String) (isPlain : Bool)
  | sequenceStart (anchor tag : Option String)
  | sequenceEnd
  | mappingStart (anchor tag : Option String)
  | mappingEnd
  deriving DecidableEq, Repr

namespace Event

/-- A scalar that is not written. -/
def empty : Event := .scalar none none "" true

/-- What may come next. A state inside a collection knows where the collection began. -/
inductive State where
  | documentStart (isFirst : Bool)
  | blockNode
  | documentContent
  | documentEnd
  | blockItem (began : Place)
  /-- An item of a sequence that has no indent of its own. -/
  | flushItem
  | blockKey (began : Place)
  | blockValue (began : Place)
  | flowItem (began : Place) (isFirst : Bool)
  /-- The key, the value and the end of a single pair inside brackets. -/
  | pairKey (began : Place)
  | pairValue (began : Place)
  | pairEnd (began : Place)
  | flowKey (began : Place) (isFirst : Bool)
  | flowValue (began : Place)
  /-- The value of a key that has none. -/
  | flowNoValue (began : Place)
  | done

structure Parser where
  tokens : List Token
  /-- What is wrong with the text after the tokens. -/
  fault : Option Fault
  state : State
  /-- The states to go back to, innermost first. -/
  stack : List State
  /-- What the handles of tags stand for. -/
  handles : List (String × String)

namespace Parser

abbrev Result := Except Fault (Event × Place × Parser)

def peek (p : Parser) : Except Fault Token :=
  match p.tokens with
  | token :: _ => .ok token
  | [] => .error (p.fault.getD (.badSyntax "did not find expected <stream-end>" .start none))

def advance (p : Parser) : Parser := { p with tokens := p.tokens.drop 1 }

def goTo (p : Parser) (state : State) : Parser := { p with state := state }

def push (p : Parser) (state : State) : Parser := { p with stack := state :: p.stack }

/-- Goes back to the innermost state that waits. -/
def pop (p : Parser) : Parser :=
  match p.stack with
  | state :: rest => { p with state := state, stack := rest }
  | [] => { p with state := .done }

def emit (event : Event) (place : Place) (p : Parser) : Result := .ok (event, place, p)

/-- An unwritten scalar. -/
def emitEmpty (place : Place) (p : Parser) : Result := emit .empty place p

/-! ### Nodes -/

/-- The anchor and the tag in front of a node, in either order. -/
structure Properties where
  anchor : Option String
  tag : Option TagName
  /-- Where they begin, and where the tag does. -/
  place : Option Place
  tagPlace : Place

def readAnchor (props : Properties) (p : Parser) : Except Fault (Properties × Parser) := do
  let token ← p.peek
  match token.kind with
  | .anchor name =>
    return ({ props with anchor := some name, place := props.place.or (some token.place) },
      p.advance)
  | _ => return (props, p)

def readTag (props : Properties) (p : Parser) : Except Fault (Properties × Parser) := do
  let token ← p.peek
  match token.kind with
  | .tag tag =>
    return (⟨props.anchor, some tag, props.place.or (some token.place), token.place⟩, p.advance)
  | _ => return (props, p)

def readProperties (p : Parser) : Except Fault (Properties × Parser) := do
  let none : Properties := ⟨.none, .none, .none, .start⟩
  let token ← p.peek
  match token.kind with
  | .anchor _ =>
    let (props, p) ← p.readAnchor none
    p.readTag props
  | .tag _ =>
    let (props, p) ← p.readTag none
    p.readAnchor props
  | _ => return (none, p)

/-- The whole text of a tag. -/
def resolveTag (p : Parser) (props : Properties) (began : Place) : Except Fault (Option String) :=
  match props.tag with
  | none => .ok none
  | some tag =>
    if tag.handle = "" then .ok (some tag.suffix)
    else match p.handles.lookup tag.handle with
      | some expansion => .ok (some (expansion ++ tag.suffix))
      | none =>
        .error (.badSyntax "found undefined tag handle" props.tagPlace
          (some ("while parsing a node", began)))

/-- A node with its properties read. -/
def nodeContent (p : Parser) (inBlock isFlush : Bool) (anchor tag : Option String)
    (began : Place) : Result := do
  let token ← p.peek
  match token.kind with
  | .scalar text isPlain =>
    emit (.scalar anchor (tag.filter (· != "!")) text isPlain) began p.pop.advance
  | .flowSequence =>
    emit (.sequenceStart anchor tag) began (p.advance.goTo (.flowItem token.place true))
  | .flowMapping =>
    emit (.mappingStart anchor tag) began (p.advance.goTo (.flowKey token.place true))
  | kind =>
    if isFlush && kind = .blockEntry then
      emit (.sequenceStart anchor tag) began (p.goTo .flushItem)
    else if inBlock && kind = .blockSequence then
      emit (.sequenceStart anchor tag) began (p.advance.goTo (.blockItem token.place))
    else if inBlock && kind = .blockMapping then
      emit (.mappingStart anchor tag) began (p.advance.goTo (.blockKey token.place))
    else if anchor.isSome || tag.isSome then emit (.scalar anchor tag "" true) began p.pop
    else
      throw (.badSyntax "did not find expected node content" token.place
        (some (if inBlock then "while parsing a block node" else "while parsing a flow node",
          began)))

/-- A node; in a block, a sequence may stand without an indent of its own. -/
def node (p : Parser) (inBlock isFlush : Bool) : Result := do
  let token ← p.peek
  match token.kind with
  | .alias name => emit (.alias name) token.place p.pop.advance
  | _ =>
    let (props, p) ← p.readProperties
    let began := props.place.getD token.place
    let tag ← p.resolveTag props began
    p.nodeContent inBlock isFlush props.anchor tag began

/-! ### Documents -/

/-- Handles that need no directive. -/
def defaultHandles : List (String × String) := [("!", "!"), ("!!", "tag:yaml.org,2002:")]

/-- Reads the directives in front of a document. The fuel bounds their number. -/
def readDirectives : Nat → (hasVersion : Bool) → Parser → Except Fault Parser
  | 0, _, p => .ok p
  | fuel + 1, hasVersion, p => do
    let token ← p.peek
    match token.kind with
    | .directive (.version major minor) =>
      if hasVersion then throw (.badSyntax "found duplicate %YAML directive" token.place none)
      if major ≠ 1 ∨ (minor ≠ 1 ∧ minor ≠ 2) then
        throw (.badSyntax "found incompatible YAML document" token.place none)
      readDirectives fuel true p.advance
    | .directive (.tag handle expansion) =>
      if (p.handles.lookup handle).isSome then
        throw (.badSyntax "found duplicate %TAG directive" token.place none)
      readDirectives fuel hasVersion
        { p.advance with handles := p.handles ++ [(handle, expansion)] }
    | _ => return p

/-- Passes over the ends of documents. -/
def skipDocumentEnds (p : Parser) : Parser :=
  { p with tokens := p.tokens.dropWhile fun t => t.kind = .documentEnd }

def documentStart (p : Parser) (isFirst : Bool) : Result := do
  let p := if isFirst then p else p.skipDocumentEnds
  let token ← p.peek
  let isExplicit : Bool := match token.kind with
    | .directive _ | .documentStart => true
    | _ => !isFirst
  if token.kind = .streamEnd then emit .documentEnd token.place (p.goTo .done)
  else if !isExplicit then
    emit .documentStart token.place
      ({ p with handles := defaultHandles }.push .documentEnd |>.goTo .blockNode)
  else
    let p ← readDirectives p.tokens.length false { p with handles := [] }
    let marker ← p.peek
    if marker.kind ≠ .documentStart then
      throw (.badSyntax "did not find expected <document start>" marker.place none)
    emit .documentStart token.place
      ({ p.advance with handles := p.handles ++ defaultHandles }.push .documentEnd
        |>.goTo .documentContent)

def documentContent (p : Parser) : Result := do
  let token ← p.peek
  match token.kind with
  | .directive _ | .documentStart | .documentEnd | .streamEnd => emitEmpty token.place p.pop
  | _ => p.node true false

def documentEnd (p : Parser) : Result := do
  let token ← p.peek
  let p := if token.kind = .documentEnd then p.advance else p
  emit .documentEnd token.place (p.goTo (.documentStart false))

/-! ### Block collections -/

def blockItem (p : Parser) (began : Place) : Result := do
  let token ← p.peek
  match token.kind with
  | .blockEntry =>
    let p := p.advance
    match (← p.peek).kind with
    | .blockEntry | .blockEnd => emitEmpty token.place (p.goTo (.blockItem began))
    | _ => (p.push (.blockItem began)).node true false
  | .blockEnd => emit .sequenceEnd token.place p.pop.advance
  | _ =>
    throw (.badSyntax "did not find expected '-' indicator" token.place
      (some ("while parsing a block collection", began)))

def flushItem (p : Parser) : Result := do
  let token ← p.peek
  match token.kind with
  | .blockEntry =>
    let p := p.advance
    match (← p.peek).kind with
    | .blockEntry | .key | .value | .blockEnd => emitEmpty token.place (p.goTo .flushItem)
    | _ => (p.push .flushItem).node true false
  | _ => emit .sequenceEnd token.place p.pop

def blockKey (p : Parser) (began : Place) : Result := do
  let token ← p.peek
  match token.kind with
  | .key =>
    let p := p.advance
    match (← p.peek).kind with
    | .key | .value | .blockEnd => emitEmpty token.place (p.goTo (.blockValue began))
    | _ => (p.push (.blockValue began)).node true true
  | .blockEnd => emit .mappingEnd token.place p.pop.advance
  | _ =>
    throw (.badSyntax "did not find expected key" token.place
      (some ("while parsing a block mapping", began)))

def blockValue (p : Parser) (began : Place) : Result := do
  let token ← p.peek
  match token.kind with
  | .value =>
    let p := p.advance
    match (← p.peek).kind with
    | .key | .value | .blockEnd => emitEmpty token.place (p.goTo (.blockKey began))
    | _ => (p.push (.blockKey began)).node true true
  | _ => emitEmpty token.place (p.goTo (.blockKey began))

/-! ### Flow collections -/

/-- Passes the comma in front of an entry that is not the first. -/
def readComma (p : Parser) (isFirst : Bool) (closing : TokenKind) (problem context : String)
    (began : Place) : Except Fault Parser := do
  let token ← p.peek
  if isFirst || token.kind = closing then return p
  else if token.kind = .flowEntry then return p.advance
  else throw (.badSyntax problem token.place (some (context, began)))

def flowItem (p : Parser) (began : Place) (isFirst : Bool) : Result := do
  let p ← p.readComma isFirst .flowSequenceEnd "did not find expected ',' or ']'"
    "while parsing a flow sequence" began
  let token ← p.peek
  match token.kind with
  | .flowSequenceEnd => emit .sequenceEnd token.place p.pop.advance
  | .key => emit (.mappingStart none none) token.place (p.advance.goTo (.pairKey began))
  | _ => (p.push (.flowItem began false)).node false false

/-- The key of a pair; where there is none, the token that stands in its place is passed over. -/
def pairKey (p : Parser) (began : Place) : Result := do
  let token ← p.peek
  match token.kind with
  | .value | .flowEntry | .flowSequenceEnd =>
    emitEmpty token.place (p.advance.goTo (.pairValue began))
  | _ => (p.push (.pairValue began)).node false false

def pairValue (p : Parser) (began : Place) : Result := do
  let token ← p.peek
  match token.kind with
  | .value =>
    let p := p.advance
    let next ← p.peek
    match next.kind with
    | .flowEntry | .flowSequenceEnd => emitEmpty next.place (p.goTo (.pairEnd began))
    | _ => (p.push (.pairEnd began)).node false false
  | _ => emitEmpty token.place (p.goTo (.pairEnd began))

def pairEnd (p : Parser) (began : Place) : Result := do
  let token ← p.peek
  emit .mappingEnd token.place (p.goTo (.flowItem began false))

def flowKey (p : Parser) (began : Place) (isFirst : Bool) : Result := do
  let p ← p.readComma isFirst .flowMappingEnd "did not find expected ',' or '\x7d'"
    "while parsing a flow mapping" began
  let token ← p.peek
  match token.kind with
  | .flowMappingEnd => emit .mappingEnd token.place p.pop.advance
  | .key =>
    let p := p.advance
    let next ← p.peek
    match next.kind with
    | .value | .flowEntry | .flowMappingEnd => emitEmpty next.place (p.goTo (.flowValue began))
    | _ => (p.push (.flowValue began)).node false false
  | _ => (p.push (.flowNoValue began)).node false false

def flowValue (p : Parser) (began : Place) : Result := do
  let token ← p.peek
  match token.kind with
  | .value =>
    let p := p.advance
    let next ← p.peek
    match next.kind with
    | .flowEntry | .flowMappingEnd => emitEmpty next.place (p.goTo (.flowKey began false))
    | _ => (p.push (.flowKey began false)).node false false
  | _ => emitEmpty token.place (p.goTo (.flowKey began false))

def flowNoValue (p : Parser) (began : Place) : Result := do
  let token ← p.peek
  emitEmpty token.place (p.goTo (.flowKey began false))

/-- The next event. -/
def step (p : Parser) : Result :=
  match p.state with
  | .documentStart isFirst => p.documentStart isFirst
  | .blockNode => p.node true false
  | .documentContent => p.documentContent
  | .documentEnd => p.documentEnd
  | .blockItem began => p.blockItem began
  | .flushItem => p.flushItem
  | .blockKey began => p.blockKey began
  | .blockValue began => p.blockValue began
  | .flowItem began isFirst => p.flowItem began isFirst
  | .pairKey began => p.pairKey began
  | .pairValue began => p.pairValue began
  | .pairEnd began => p.pairEnd began
  | .flowKey began isFirst => p.flowKey began isFirst
  | .flowValue began => p.flowValue began
  | .flowNoValue began => p.flowNoValue began
  | .done => .error (.badSyntax "did not find expected <stream-end>" .start none)

/-- Goes on to the end of the stream or to what is wrong with it. The fuel bounds the events. -/
def run : Nat → Parser → List (Event × Place) × Option Fault
  | 0, _ => ([], none)
  | fuel + 1, p =>
    match p.step with
    | .error fault => ([], some fault)
    | .ok (event, place, p) =>
      match p.state with
      | .done => ([], none)
      | _ =>
        let (events, fault) := run fuel p
        ((event, place) :: events, fault)

end Parser

/-- The most events that come from one token. -/
def perToken : Nat := 4

/-- The events of a stream, up to what is wrong with it. -/
def ofTokens (tokens : List Token) (fault : Option Fault) : List (Event × Place) × Option Fault :=
  (Parser.mk tokens fault (.documentStart true) [] []).run (perToken * (tokens.length + 2))

end Event

end ControlPlane.Yaml
