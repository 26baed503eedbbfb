import ControlPlane.Yaml.Fault

/-!
# Cursors

A cursor is what is left of a text and the place where it begins. Moving over characters keeps
both in step.

A line ends with a line feed, a carriage return, both in this order, or one of three Unicode
separators. Reading starts from a text in which all ends but the last two separators are line feeds.
-/

namespace ControlPlane.Yaml

def isBlank (c : Char) : Bool := c == ' ' || c == '\t'

/-- Ends of lines in a text with even breaks. -/
def isBreak (c : Char) : Bool := c == '\n' || c == '\u2028' || c == '\u2029'

/-- Writes every end of line that counts as a line feed as one. -/
def evenBreaks : List Char → List Char
  | [] => []
  | '\r' :: '\n' :: rest => '\n' :: evenBreaks rest
  | c :: rest => (if c == '\r' || c == '\u0085' then '\n' else c) :: evenBreaks rest

structure Cursor where
  rest : List Char
  place : Place
  deriving DecidableEq, Repr

/-- The place after a character. -/
def Place.after (p : Place) (c : Char) : Place :=
  if isBreak c then ⟨p.line + 1, 0⟩ else ⟨p.line, p.column + 1⟩

namespace Cursor

def line (c : Cursor) : Nat := c.place.line

def column (c : Cursor) : Nat := c.place.column

def peek (c : Cursor) : Option Char := c.rest.head?

/-- The character so many places further. -/
def peekAt (c : Cursor) (n : Nat) : Option Char := c.rest[n]?

/-- Moves over one character. -/
def skip (c : Cursor) : Cursor :=
  match c.rest with
  | [] => c
  | x :: rest => ⟨rest, c.place.after x⟩

/-- Moves over so many characters. -/
def skipMany : Nat → Cursor → Cursor
  | 0, c => c
  | n + 1, c => skipMany n c.skip

/-- Moves over the characters in front that pass a test; no break does. -/
def skipWhile (c : Cursor) (test : Char → Bool) : Cursor :=
  let run := c.rest.takeWhile fun x => test x && !isBreak x
  ⟨c.rest.drop run.length, ⟨c.line, c.column + run.length⟩⟩

/-- The characters in front that pass a test; no break does. -/
def takeWhile (c : Cursor) (test : Char → Bool) : List Char :=
  c.rest.takeWhile fun x => test x && !isBreak x

def has (c : Cursor) (x : Char) : Bool := c.peek == some x

/-- Whether a position holds a blank, a break or nothing. -/
def isGapAt (c : Cursor) (n : Nat) : Bool :=
  match c.peekAt n with
  | none => true
  | some x => isBlank x || isBreak x

def isGap (c : Cursor) : Bool := c.isGapAt 0

def isEnd (c : Cursor) : Bool := c.rest.isEmpty

/-- Whether there is nothing more on the line. -/
def isLineEnd (c : Cursor) : Bool := (c.peek.map isBreak).getD true

/-- Whether a line that starts here separates documents. -/
def isMarker (c : Cursor) : Bool :=
  c.column == 0
    && (['-', '-', '-'].isPrefixOf c.rest || ['.', '.', '.'].isPrefixOf c.rest) && c.isGapAt 3

/-- What is wrong here with something that began at a place. -/
def fault (c : Cursor) (problem context : String) (began : Place) : Fault :=
  .badSyntax problem c.place (some (context, began))

end Cursor

end ControlPlane.Yaml
