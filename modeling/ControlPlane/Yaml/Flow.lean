import ControlPlane.Yaml.Cursor

/-!
# Scalars that run on

Scalars without quotes and in quotes may run over several lines. The blanks around a break do not
count; a single break stands for a space, and of more breaks in a row all but the first are kept. A
break that is one of the Unicode separators is kept also when it is the first.
-/

namespace ControlPlane.Yaml

/-- What stands between two characters of a scalar that are neither blanks nor breaks. -/
inductive Gap where
  /-- Blanks on one line. -/
  | blanks (text : List Char)
  /-- Breaks: the first one, unless it is to be dropped, and those after it. -/
  | breaks (first : Option Char) (more : List Char)
  deriving DecidableEq, Repr

namespace Gap

/-- No gap. -/
def none : Gap := .blanks []

/-- The gap with one blank or break more. -/
def add (gap : Gap) (c : Char) : Gap :=
  match gap with
  | .blanks text => if isBreak c then .breaks (some c) [] else .blanks (text ++ [c])
  | .breaks first more => if isBreak c then .breaks first (more ++ [c]) else .breaks first more

/-- What the gap stands for. -/
def text : Gap → List Char
  | .blanks text => text
  | .breaks (some '\n') [] => [' ']
  | .breaks (some '\n') more => more
  | .breaks (some c) more => c :: more
  | .breaks Option.none more => more

def isBroken : Gap → Bool
  | .blanks _ => false
  | .breaks _ _ => true

end Gap

/-! ### Without quotes -/

namespace Plain

/-- Where a scalar without quotes stands. -/
structure Setting where
  /-- Whether it is inside brackets or braces. -/
  inFlow : Bool
  /-- The least column of its later lines. -/
  indent : Nat

def isFlowMark (c : Char) : Bool := (",[]\x7b\x7d".toList).contains c

/-- Whether the scalar ends in front of a character. -/
def endsAt (s : Setting) (c : Char) (next : Option Char) : Bool :=
  (c == ':' && (next.map fun x => isBlank x || isBreak x).getD true) || (s.inFlow && isFlowMark c)

/-- Whether a colon stands where it can be neither text nor a separator. -/
def isStrayColon (s : Setting) (c : Char) (next : Option Char) : Bool :=
  s.inFlow && c == ':' && (next.map fun x => isFlowMark x || x == '?').getD false

/-- Reads on after what has been read, kept in reverse. The answer tells where the scalar ends and
whether it ran into a new line there. -/
def read (s : Setting) (began : Place) :
    (place : Place) → (text : List Char) → Gap → List Char →
      Except Fault (List Char × Bool × Cursor)
  | place, text, gap, [] => .ok (text.reverse, gap.isBroken, ⟨[], place⟩)
  | place, text, gap, c :: rest =>
    let here : Cursor := ⟨c :: rest, place⟩
    if isBlank c || isBreak c then
      if gap.isBroken && place.column < s.indent && c == '\t' then
        .error (here.fault "found a tab character that violates indentation"
          "while scanning a plain scalar" began)
      else read s began (place.after c) text (gap.add c) rest
    else if gap != .none
        && ((!s.inFlow && place.column < s.indent) || here.isMarker || c == '#') then
      .ok (text.reverse, gap.isBroken, here)
    else if isStrayColon s c rest.head? then
      .error (here.fault "found unexpected ':'" "while scanning a plain scalar" began)
    else if endsAt s c rest.head? then .ok (text.reverse, gap.isBroken, here)
    else read s began (place.after c) (c :: (gap.text.reverse ++ text)) .none rest

end Plain

/-! ### In single quotes -/

namespace SingleQuoted

/-- Reads on inside the quotes; a quote written twice stands for one. -/
def read (began : Place) :
    (place : Place) → (text : List Char) → Gap → List Char → Except Fault (List Char × Cursor)
  | place, _, _, [] =>
    .error (Cursor.fault ⟨[], place⟩ "found unexpected end of stream"
      "while scanning a quoted scalar" began)
  | place, text, gap, '\'' :: '\'' :: rest =>
    read began ((place.after '\'').after '\'') ('\'' :: (gap.text.reverse ++ text)) .none rest
  | place, text, gap, c :: rest =>
    let here : Cursor := ⟨c :: rest, place⟩
    if c = '\'' then .ok ((gap.text.reverse ++ text).reverse, here.skip)
    else if isBlank c || isBreak c then read began (place.after c) text (gap.add c) rest
    else if here.isMarker then
      .error
          (here.fault "found unexpected document indicator" "while scanning a quoted scalar" began)
    else read began (place.after c) (c :: (gap.text.reverse ++ text)) .none rest

end SingleQuoted

/-! ### In double quotes -/

namespace DoubleQuoted

/-- The character that a letter after a backslash stands for. -/
def escaped? (c : Char) : Option Char :=
  [('0', '\x00'), ('a', '\x07'), ('b', '\x08'), ('t', '\t'), ('\t', '\t'), ('n', '\n'),
    ('v', '\x0b'), ('f', '\x0c'), ('r', '\r'), ('e', '\x1b'), (' ', ' '), ('"', '"'), ('/', '/'),
    ('\\', '\\'), ('N', '\u0085'), ('_', '\u00a0'), ('L', '\u2028'), ('P', '\u2029')].lookup c

/-- The number of digits after a letter that starts a code point. -/
def codeLength? (c : Char) : Option Nat := [('x', 2), ('u', 4), ('U', 8)].lookup c

def hexDigit? (c : Char) : Option Nat :=
  let n := c.toNat
  if 48 ≤ n ∧ n ≤ 57 then some (n - 48)
  else if 97 ≤ n ∧ n ≤ 102 then some (n - 87)
  else if 65 ≤ n ∧ n ≤ 70 then some (n - 55)
  else none

/-- What the next character is read as. -/
inductive Mode where
  | text (gap : Gap)
  /-- After a backslash. -/
  | escape (gap : Gap)
  /-- In a code point: the digits to come, and the value of those read. -/
  | code (left value : Nat)

/-- Reads on inside the quotes. -/
def read (began : Place) :
    (place : Place) → (text : List Char) → Mode → List Char → Except Fault (List Char × Cursor)
  | place, _, _, [] =>
    .error (Cursor.fault ⟨[], place⟩ "found unexpected end of stream"
      "while scanning a quoted scalar" began)
  | place, text, .text gap, c :: rest =>
    let here : Cursor := ⟨c :: rest, place⟩
    if c = '"' then .ok ((gap.text.reverse ++ text).reverse, here.skip)
    else if isBlank c || isBreak c then read began (place.after c) text (.text (gap.add c)) rest
    else if here.isMarker then
      .error
          (here.fault "found unexpected document indicator" "while scanning a quoted scalar" began)
    else if c = '\\' then read began (place.after c) text (.escape gap) rest
    else read began (place.after c) (c :: (gap.text.reverse ++ text)) (.text .none) rest
  | place, text, .escape gap, c :: rest =>
    let here : Cursor := ⟨c :: rest, place⟩
    let text := gap.text.reverse ++ text
    if isBreak c then read began (place.after c) text (.text (.breaks Option.none [])) rest
    else match escaped? c, codeLength? c with
      | some x, _ => read began (place.after c) (x :: text) (.text .none) rest
      | Option.none, some n => read began (place.after c) text (.code n 0) rest
      | Option.none, Option.none =>
        .error (here.fault "found unknown escape character" "while parsing a quoted scalar" began)
  | place, text, .code left value, c :: rest =>
    let here : Cursor := ⟨c :: rest, place⟩
    match hexDigit? c with
    | Option.none =>
      .error (here.fault "did not find expected hexdecimal number" "while parsing a quoted scalar"
        began)
    | some d =>
      let value := 16 * value + d
      if 1 < left then read began (place.after c) text (.code (left - 1) value) rest
      else if value.isValidChar then
        read began (place.after c) (Char.ofNat value :: text) (.text .none) rest
      else
        .error (here.fault "found invalid Unicode character escape code"
          "while parsing a quoted scalar" began)

end DoubleQuoted

end ControlPlane.Yaml
