import ControlPlane.Bytes
import ControlPlane.Settings.Environment
import ControlPlane.Text.Characters

/-!
# Files of variables

A file may set variables that the environment leaves open, one to a line: a name, an equals sign
and a value. A name may be led in by `export`. A value may be quoted, and then go on over several
lines; outside single quotes a backslash takes the meaning from the next character, and a dollar
sign stands before the name of a variable, plain or in braces. A hash sign starts a comment at the
start of a line, or after a blank.
-/

namespace ControlPlane.Settings.VariableFile

/-- Why a file cannot be read to its end. -/
inductive Fault where
  /-- A line does not have the form of an assignment from this place on. -/
  | malformed (line : String) (place : Nat)
  /-- A line is not text. -/
  | notText
  deriving DecidableEq, Repr

def Fault.message : Fault → String
  | malformed line place =>
    "Error parsing line: '" ++ line ++ "', error at line index: " ++ toString place
  | notText => "stream did not contain valid UTF-8"

/-! ### Lines -/

/-- What the reader of a line is within. -/
inductive LineState where
  | plain
  | blank
  | escaped
  | single
  | singleEscaped
  | double
  | doubleEscaped
  deriving DecidableEq, Repr

/-- The state after a character outside quotes. -/
def LineState.afterPlain (c : Char) : LineState :=
  if c = '\\' then escaped
  else if c = '"' then double
  else if c = '\'' then single
  else plain

/-- The state after a character; none where a comment starts. -/
def LineState.next? (s : LineState) (c : Char) : Option LineState :=
  match s with
  | plain =>
    some (if Text.isBlank c && c != '\n' && c != '\r' then blank else afterPlain c)
  | blank => if c = '#' then none else some (afterPlain c)
  | escaped => some plain
  | single => some (if c = '\\' then singleEscaped else if c = '\'' then plain else single)
  | singleEscaped => some single
  | double => some (if c = '\\' then doubleEscaped else if c = '"' then plain else double)
  | doubleEscaped => some double

/-- The characters before a comment, and the state after them; none if there is no comment. -/
def readLine (s : LineState) : List Char → List Char × Option LineState
  | [] => ([], some s)
  | c :: rest =>
    match s.next? c with
    | none => ([], none)
    | some s =>
      let (before, final) := readLine s rest
      (c :: before, final)

/-- A line without its line break. -/
def dropBreak (text : List Char) : List Char :=
  match text.reverse with
  | '\n' :: '\r' :: rest => rest.reverse
  | '\n' :: rest => rest.reverse
  | _ => text

def byteLength (text : List Char) : Nat := (text.map Char.utf8Size).foldr (· + ·) 0

/-- The lines of assignments, out of the lines of a file; a line that ends within quotes or after
a blank goes on in the next. What was started and not finished at the end is a fault. -/
def joinLines (started : List Char) (s : LineState) :
    List (Option (List Char)) → List (Except Fault (List Char))
  | [] =>
    if s = .plain then []
    else [.error (.malformed (String.ofList started) (byteLength started))]
  | none :: _ => [.error .notText]
  | some line :: rest =>
    if (Text.trimStart (started ++ line)).head? = some '#' then .ok [] :: joinLines [] .plain rest
    else
      match readLine s line with
      | (before, none) => .ok (started ++ before) :: joinLines [] .plain rest
      | (_, some .plain) => .ok (dropBreak (started ++ line)) :: joinLines [] .plain rest
      | (_, some s) => joinLines (started ++ line) s rest

/-- The bytes of each line, with the line break. -/
def splitLines : Bytes → List Bytes
  | [] => []
  | b :: rest =>
    if b = 10 then [b] :: splitLines rest
    else match splitLines rest with
      | [] => [[b]]
      | line :: more => (b :: line) :: more

/-- What some files start with to say that they are text. -/
def byteOrderMark : Bytes := [0xef, 0xbb, 0xbf]

def lines (content : Bytes) : List (Except Fault (List Char)) :=
  let content := if content.take 3 = byteOrderMark then content.drop 3 else content
  joinLines [] .plain ((splitLines content).map fun line => line.toText?.map String.toList)

/-! ### Values -/

/-- What the reader of a value is within. -/
inductive ValueState where
  | plain
  | escaped
  | single
  /-- The name of a variable. -/
  | name (reversed : List Char)
  /-- The name of a variable in braces. -/
  | braced (reversed : List Char)
  /-- The blanks after a value. -/
  | ended
  deriving DecidableEq, Repr

/-- A value as far as it was read, and whether the reader is within double quotes. -/
structure ValueReader where
  state : ValueState
  isQuoted : Bool
  reversed : List Char

namespace ValueReader

def push (r : ValueReader) (c : Char) : ValueReader := { r with reversed := c :: r.reversed }

/-- Puts the value of a variable in the place of its name. -/
def substitute (known : Environment) (r : ValueReader) (name : List Char) : ValueReader :=
  let value := (known (String.ofList name.reverse)).getD ""
  { r with state := .plain, reversed := value.toList.reverse ++ r.reversed }

/-- The character that a backslash before this one makes. -/
def unescape? (c : Char) : Option Char :=
  if c = 'n' then some '\n'
  else if ['\\', '\'', '"', '$', ' '].contains c then some c
  else none

/-- Takes a character where nothing special is under way. -/
def takePlain (r : ValueReader) (c : Char) : ValueReader :=
  if c = '$' then { r with state := .name [] }
  else if c = '\\' then { r with state := .escaped }
  else if c = '"' then { r with isQuoted := !r.isQuoted }
  else if r.isQuoted then r.push c
  else if c = '\'' then { r with state := .single }
  else if c = ' ' ∨ c = '\t' then { r with state := .ended }
  else r.push c

/-- Takes one character, if it may stand there. -/
def take? (known : Environment) (r : ValueReader) (c : Char) : Option ValueReader :=
  match r.state with
  | .plain => some (r.takePlain c)
  | .ended => if c = ' ' ∨ c = '\t' then some r else none
  | .escaped => (unescape? c).map fun c => { r with state := .plain }.push c
  | .single => some (if c = '\'' then { r with state := .plain } else r.push c)
  | .name name =>
    if Text.isAlphanumeric c then some { r with state := .name (c :: name) }
    else if c = '\x7b' ∧ name = [] then some { r with state := .braced [] }
    else
      let r := r.substitute known name
      some (if c = '$' then { r with state := .name [] } else r.push c)
  | .braced name =>
    if Text.isAlphanumeric c then some { r with state := .braced (c :: name) }
    else if c = '\x7d' then some (r.substitute known name)
    else some { r with state := .braced (c :: name) }

/-- Reads characters up to a comment. The error is the place of a character that may not stand
there. -/
def read (known : Environment) (place : Nat) (r : ValueReader) :
    List Char → Except Nat ValueReader
  | [] => .ok r
  | c :: rest =>
    if r.state = .ended ∧ c = '#' then .ok r
    else match r.take? known c with
      | none => .error place
      | some r => read known (place + 1) r rest

/-- The value, if it may end here. -/
def finish? (known : Environment) (r : ValueReader) : Option String :=
  match r.state with
  | .single | .braced _ => none
  | .name name =>
    if r.isQuoted then none
    else some (String.ofList (r.substitute known name).reversed.reverse)
  | _ => if r.isQuoted then none else some (String.ofList r.reversed.reverse)

end ValueReader

/-- The value that a text stands for. -/
def readValue (known : Environment) (text : List Char) : Except Fault String :=
  match ValueReader.read known 0 ⟨.plain, false, []⟩ text with
  | .error place => .error (.malformed (String.ofList text) place)
  | .ok r =>
    match r.finish? known with
    | none => .error (.malformed (String.ofList text) (byteLength text - 1))
    | some value => .ok value

/-! ### Assignments -/

/-- A name and what follows it. -/
def takeName? (text : List Char) : Option (List Char × List Char) :=
  match text with
  | [] => none
  | c :: _ =>
    if c.isAlpha ∨ c = '_' then
      let isPart (c : Char) : Bool := c.isAlphanum || c == '_' || c == '.'
      some (text.takeWhile isPart, text.dropWhile isPart)
    else none

/-- What follows an equals sign. -/
def afterEquals? : List Char → Option (List Char)
  | '=' :: rest => some rest
  | _ => none

/-- The word that may lead in a name. -/
def leadWord : List Char := "export".toList

/-- The name of an assignment and the text of its value; the error is the text from the place of
the fault on. A name that is the lead word itself is one if an equals sign follows it. -/
def splitAssignment (text : List Char) : Except (List Char) (List Char × List Char) :=
  match takeName? text with
  | none => .error text
  | some (name, rest) =>
    let rest := Text.trimStart rest
    match afterEquals? rest with
    | some value => .ok (name, value)
    | none =>
      if name ≠ leadWord then .error rest
      else match takeName? rest with
        | none => .error rest
        | some (name, rest) =>
          let rest := Text.trimStart rest
          match afterEquals? rest with
          | some value => .ok (name, value)
          | none => .error rest

/-- The assignment of a line: none if the line is empty or a comment. -/
def readAssignment (known : Environment) (line : List Char) :
    Except Fault (Option (String × Option String)) := do
  let text := Text.trimStart (Text.trimEnd line)
  if text = [] ∨ text.head? = some '#' then return none
  match splitAssignment text with
  | .error rest =>
    let place := byteLength (Text.trimEnd line) - byteLength rest
    throw (.malformed (String.ofList line) place)
  | .ok (name, value) =>
    let value := Text.trimStart value
    if value = [] ∨ value.head? = some '#' then return some (String.ofList name, none)
    return some (String.ofList name, some (← readValue known value))

/-! ### Files -/

/-- The variables that a file has set so far, and those that it names. -/
structure Loaded where
  set : List (String × String)
  named : List (String × Option String)

namespace Loaded

def empty : Loaded := ⟨[], []⟩

/-- The environment with what the file has set. -/
def atop (l : Loaded) (env : Environment) : Environment := fun name =>
  (env name).or (l.set.lookup name)

/-- What a name stands for within the file: the environment comes first. -/
def within (l : Loaded) (env : Environment) : Environment := fun name =>
  (l.atop env name).or ((l.named.lookup name).bind id)

/-- Takes up an assignment. A variable that is set already keeps its value. -/
def assign (env : Environment) (l : Loaded) (name : String) (value : Option String) : Loaded where
  set := if (l.atop env name).isSome then l.set else (name, value.getD "") :: l.set
  named := (name, value) :: l.named

end Loaded

/-- Takes up lines until one has a fault. -/
def loadLines (env : Environment) (l : Loaded) :
    List (Except Fault (List Char)) → Loaded × Option Fault
  | [] => (l, none)
  | .error fault :: _ => (l, some fault)
  | .ok line :: rest =>
    match readAssignment (l.within env) line with
    | .error fault => (l, some fault)
    | .ok none => loadLines env l rest
    | .ok (some (name, value)) => loadLines env (l.assign env name value) rest

/-- The environment with what a file adds to it, and what is wrong with the file. -/
def load (env : Environment) (content : Bytes) : Environment × Option Fault :=
  let (l, fault) := loadLines env .empty (lines content)
  (l.atop env, fault)

end ControlPlane.Settings.VariableFile
