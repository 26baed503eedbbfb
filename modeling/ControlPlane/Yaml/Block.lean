import ControlPlane.Yaml.Cursor

/-!
# Block scalars

A header says whether the lines are kept or folded, what becomes of the breaks at the end, and, if
it must, how far the lines are indented. Otherwise the first line that is not empty sets the
indent.
-/

namespace ControlPlane.Yaml.Block

/-- What becomes of the breaks at the end. -/
inductive Chomping where
  | strip
  | clip
  | keep
  deriving DecidableEq, Repr

structure Header where
  chomping : Chomping
  /-- The indent of the lines relative to what holds the scalar; zero if it is to be found out. -/
  increment : Nat

def context : String := "while scanning a block scalar"

def chomping? (c : Char) : Option Chomping :=
  if c = '+' then some .keep else if c = '-' then some .strip else none

def readChomping (c : Cursor) : Option Chomping × Cursor :=
  match c.peek.bind chomping? with
  | some chomping => (some chomping, c.skip)
  | none => (none, c)

/-- The digit of an indent, zero if there is none. -/
def readIncrement (began : Place) (c : Cursor) : Except Fault (Nat × Cursor) :=
  match c.peek with
  | some '0' => .error (c.fault "found an indentation indicator equal to 0" context began)
  | some x => if '1' ≤ x ∧ x ≤ '9' then .ok (x.toNat - 48, c.skip) else .ok (0, c)
  | none => .ok (0, c)

/-- The header, up to the start of the next line. -/
def readHeader (began : Place) (c : Cursor) : Except Fault (Header × Cursor) := do
  let (early, c) := readChomping c
  let (increment, c) ← readIncrement began c
  let (late, c) := if early.isNone && increment != 0 then readChomping c else (none, c)
  let c := c.skipWhile isBlank
  let c := if c.has '#' then c.skipWhile fun _ => true else c
  if !c.isLineEnd then
    throw (c.fault "did not find expected comment or line break" context began)
  return (⟨(early.or late).getD .clip, increment⟩, c.skip)

/-- The breaks and indents in front of a line that is not empty: the breaks, and the column of the
widest indent. The indent is zero as long as it is not known. -/
def readBreaks (began : Place) (indent : Nat) :
    (place : Place) → (breaks : List Char) → (widest : Nat) → List Char →
      Except Fault (List Char × Nat × Cursor)
  | place, breaks, widest, [] => .ok (breaks.reverse, max widest place.column, ⟨[], place⟩)
  | place, breaks, widest, c :: rest =>
    let isOutside := indent = 0 ∨ place.column < indent
    if c = ' ' ∧ isOutside then readBreaks began indent (place.after c) breaks widest rest
    else if c = '\t' ∧ isOutside then
      .error (Cursor.fault ⟨c :: rest, place⟩
        "found a tab character where an indentation space is expected" context began)
    else if isBreak c then
      readBreaks began indent (place.after c) (c :: breaks) (max widest place.column) rest
    else .ok (breaks.reverse, max widest place.column, ⟨c :: rest, place⟩)

/-- What has been read: the text in reverse, the break after the last line, and whether that line
began with a blank. -/
structure State where
  text : List Char
  lastBreak : List Char
  lastIsBlank : Bool

/-- Joins the last line to one that starts with or without a blank: a line feed between two lines
without is folded into a space, or into the empty lines that follow it. -/
def State.join (s : State) (isFolded startsBlank : Bool) (breaks : List Char) : List Char :=
  if isFolded && s.lastBreak == ['\n'] && !s.lastIsBlank && !startsBlank then
    if breaks.isEmpty then ' ' :: s.text else breaks.reverse ++ s.text
  else breaks.reverse ++ s.lastBreak.reverse ++ s.text

/-- Reads lines as long as they have the indent. The fuel bounds their number. -/
def readLines (began : Place) (isFolded : Bool) (indent : Nat) :
    Nat → State → List Char → Cursor → Except Fault (State × List Char × Cursor)
  | 0, s, breaks, c => .ok (s, breaks, c)
  | fuel + 1, s, breaks, c =>
    if c.column = indent ∧ !c.isEnd then do
      let startsBlank := (c.peek.map isBlank).getD false
      let line := c.takeWhile fun _ => true
      let after := c.skipWhile fun _ => true
      let text := line.reverse ++ s.join isFolded startsBlank breaks
      let lastBreak := after.peek.toList
      let next := after.skip
      let (breaks, _, next) ← readBreaks began indent next.place [] 0 next.rest
      readLines began isFolded indent fuel ⟨text, lastBreak, startsBlank⟩ breaks next
    else .ok (s, breaks, c)

/-- Reads a block scalar whose mark has been passed, inside a collection of this indent (-1 outside
all). -/
def read (isFolded : Bool) (outer : Int) (began : Place) (c : Cursor) :
    Except Fault (List Char × Cursor) := do
  let (header, c) ← readHeader began c
  let given : Nat := if header.increment = 0 then 0 else (max outer 0).toNat + header.increment
  let (breaks, widest, c) ← readBreaks began given c.place [] 0 c.rest
  let indent := if given = 0 then max widest (max (outer + 1) 1).toNat else given
  let (s, breaks, c) ← readLines began isFolded indent (c.rest.length + 1) ⟨[], [], false⟩ breaks c
  let tail := match header.chomping with
    | .strip => []
    | .clip => s.lastBreak
    | .keep => s.lastBreak ++ breaks
  return (s.text.reverse ++ tail, c)

end ControlPlane.Yaml.Block
