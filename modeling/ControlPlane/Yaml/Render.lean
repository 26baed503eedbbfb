import ControlPlane.Data.Document
import ControlPlane.Yaml.Cursor
import ControlPlane.Yaml.Scalar

/-!
# YAML text

A document in block form. A text is written in the plainest of four styles that reads back as the
same text: without quotes, in single quotes, in double quotes with escapes, or, if it has line
breaks, as a literal block.
-/

namespace ControlPlane.Yaml

/-- How a text is written. -/
inductive Style where
  | plain
  | single
  | double
  | literal
  deriving DecidableEq, Repr

/-- What the characters of a text rule out. -/
structure Analysis where
  /-- Whether there is a mark that means something else outside quotes. -/
  hasIndicator : Bool
  /-- Whether there is a character that only an escape can write. -/
  hasSpecial : Bool
  hasBreak : Bool
  /-- Whether it starts or ends with a space or a break. -/
  hasBlankEdge : Bool
  endsWithSpace : Bool
  /-- Whether a space follows a break. -/
  hasBreakSpace : Bool
  /-- Whether a break follows a space. -/
  hasSpaceBreak : Bool
  deriving DecidableEq, Repr

/-- Characters that can be written as they are. -/
def isWritable (c : Char) : Bool :=
  let n := c.toNat
  n == 0x0a || (0x20 ≤ n && n ≤ 0x7e) || (0xa0 ≤ n && n != 0xfeff && n != 0xfffe && n != 0xffff)

/-- Whether a text goes on with a blank, a break or nothing. -/
def isGap : Option Char → Bool
  | none => true
  | some c => isBlank c || isBreak c

/-- Whether the first character would not be taken as text. -/
def isFirstIndicator (c : Char) (next : Option Char) : Bool :=
  ("#,[]\x7b\x7d&*!|>'\"%@".toList).contains c || c == '\x60'
    || (("?:-".toList).contains c && isGap next)

/-- Whether a later character would not be taken as text. -/
def isLaterIndicator (previous c : Char) (next : Option Char) : Bool :=
  (c == ':' && isGap next) || (c == '#' && isGap (some previous))

/-- Neighbours in a text: each character after the first with the one before and the one after it.
-/
def windows : List Char → List (Char × Char × Option Char)
  | a :: b :: rest => (a, b, rest.head?) :: windows (b :: rest)
  | _ => []

def startsLikeMarker (text : List Char) : Bool :=
  ['-', '-', '-'].isPrefixOf text || ['.', '.', '.'].isPrefixOf text

def analyse (text : List Char) : Analysis :=
  let pairs := windows text
  let isEdge (c : Option Char) : Bool := (c.map fun c => c == ' ' || isBreak c).getD false
  { hasIndicator := startsLikeMarker text
      || (text.head?.map fun c => isFirstIndicator c text.tail.head?).getD false
      || pairs.any fun (a, b, next) => isLaterIndicator a b next
    hasSpecial := text.any fun c => !isWritable c
    hasBreak := text.any isBreak
    hasBlankEdge := isEdge text.head? || isEdge text.getLast?
    endsWithSpace := text.getLast? == some ' '
    hasBreakSpace := pairs.any fun (a, b, _) => isBreak a && b == ' '
    hasSpaceBreak := pairs.any fun (a, b, _) => a == ' ' && isBreak b }

namespace Analysis

def allowsPlain (a : Analysis) : Bool :=
  !(a.hasIndicator || a.hasSpecial || a.hasBreak || a.hasBlankEdge || a.hasBreakSpace
    || a.hasSpaceBreak)

def allowsSingle (a : Analysis) : Bool := !(a.hasSpecial || a.hasBreakSpace || a.hasSpaceBreak)

def allowsLiteral (a : Analysis) : Bool := !(a.hasSpecial || a.endsWithSpace || a.hasSpaceBreak)

end Analysis

def style (text : String) : Style :=
  let a := analyse text.toList
  if text.toList.contains '\n' then if a.allowsLiteral then .literal else .double
  else if Scalar.isPlainText text && a.allowsPlain then .plain
  else if a.allowsSingle then .single
  else .double

/-- So many hexadecimal digits of a code point, in capitals. -/
def upperHex (width n : Nat) : List Char :=
  let digits := (Nat.toDigits 16 n).map Char.toUpper
  List.replicate (width - digits.length) '0' ++ digits

def escapeLetter? (c : Char) : Option Char :=
  [('\x00', '0'), ('\x07', 'a'), ('\x08', 'b'), ('\t', 't'), ('\n', 'n'), ('\x0b', 'v'),
    ('\x0c', 'f'), ('\r', 'r'), ('\x1b', 'e'), ('"', '"'), ('\\', '\\'), ('\u0085', 'N'),
    ('\u2028', 'L'), ('\u2029', 'P')].lookup c

/-- A character between double quotes. -/
def escape (c : Char) : List Char :=
  match escapeLetter? c with
  | some letter => ['\\', letter]
  | none =>
    let n := c.toNat
    if isWritable c then [c]
    else if n ≤ 0xff then '\\' :: 'x' :: upperHex 2 n
    else if n ≤ 0xffff then '\\' :: 'u' :: upperHex 4 n
    else '\\' :: 'U' :: upperHex 8 n

def spaces (n : Nat) : List Char := List.replicate n ' '

/-- Text with an indent in front of each line after the first. -/
def indentAfterBreaks (indent : Nat) : List Char → List Char
  | [] => []
  | c :: rest =>
    if isBreak c && !(rest.head?.map isBreak).getD false then
      c :: spaces indent ++ indentAfterBreaks indent rest
    else c :: indentAfterBreaks indent rest

/-- Text in single quotes. -/
def single (indent : Nat) (text : List Char) : List Char :=
  '\'' :: indentAfterBreaks indent (text.flatMap fun c => if c = '\'' then ['\'', '\''] else [c])
    ++ ['\'']

def double (text : List Char) : List Char := '"' :: text.flatMap escape ++ ['"']

/-- The lines of a literal block, each with its indent unless it is empty. -/
def literalLines (indent : Nat) : (atStart : Bool) → List Char → List Char
  | _, [] => []
  | atStart, c :: rest =>
    if isBreak c then c :: literalLines indent true rest
    else (if atStart then spaces indent else []) ++ c :: literalLines indent false rest

/-- The marks after the bar: an indent if the text starts with a blank, and what is to become of the
breaks at the end. -/
def literalHints (text : List Char) : List Char :=
  let startsBlank := (text.head?.map fun c => c == ' ' || isBreak c).getD false
  let chomp := match text.reverse with
    | [] => ['-']
    | [c] => if isBreak c then ['+'] else ['-']
    | c :: d :: _ => if !isBreak c then ['-'] else if isBreak d then ['+'] else []
  (if startsBlank then ['2'] else []) ++ chomp

/-- A literal block with its last line ended. -/
def literal (indent : Nat) (text : List Char) : List Char :=
  let ended := (text.getLast?.map isBreak).getD true
  '|' :: literalHints text ++ '\n' :: literalLines indent true text
        ++ (if ended then [] else ['\n'])

/-- A text on its line, with the end of the line. -/
def textLine (indent : Nat) (text : String) : List Char :=
  match style text with
  | .plain => text.toList ++ ['\n']
  | .single => single indent text.toList ++ ['\n']
  | .double => double text.toList ++ ['\n']
  | .literal => literal indent text.toList

/-- The name of a field, which has one line. -/
def nameText (name : String) : List Char :=
  match style name with
  | .plain => name.toList
  | .single => if name.toList.any isBreak then double name.toList else single 0 name.toList
  | .double | .literal => double name.toList

mutual

/-- What follows a colon: a scalar on the same line, or a collection on the next ones. Items stand
under the name of their field, fields are indented. -/
def valueLines (indent : Nat) : Document → List Char
  | .list [] => " []\n".toList
  | .list (item :: rest) => '\n' :: itemsLines indent (item :: rest)
  | .record [] => " \x7b\x7d\n".toList
  | .record (field :: rest) =>
    '\n' :: spaces (indent + 2) ++ fieldLines (indent + 2) field
      ++ fieldsLines (indent + 2) rest
  | .null => " null\n".toList
  | .bool value => ' ' :: (toString value).toList ++ ['\n']
  | .int value => ' ' :: (toString value).toList ++ ['\n']
  | .text value => ' ' :: textLine (indent + 2) value

/-- A field whose indent has been written. -/
def fieldLines (indent : Nat) : String × Document → List Char
  | (name, value) => nameText name ++ ':' :: valueLines indent value

/-- Fields on lines of their own. -/
def fieldsLines (indent : Nat) : List (String × Document) → List Char
  | [] => []
  | field :: rest => spaces indent ++ fieldLines indent field ++ fieldsLines indent rest

/-- Items on lines of their own. -/
def itemsLines (indent : Nat) : List Document → List Char
  | [] => []
  | item :: rest =>
    spaces indent ++ '-' :: ' ' :: itemLines (indent + 2) item ++ itemsLines indent rest

/-- An item after its dash. -/
def itemLines (indent : Nat) : Document → List Char
  | .list [] => "[]\n".toList
  | .list (item :: rest) =>
    '-' :: ' ' :: itemLines (indent + 2) item ++ itemsLines indent rest
  | .record [] => "\x7b\x7d\n".toList
  | .record (field :: rest) => fieldLines indent field ++ fieldsLines indent rest
  | .null => "null\n".toList
  | .bool value => (toString value).toList ++ ['\n']
  | .int value => (toString value).toList ++ ['\n']
  | .text value => textLine indent value

end

/-- A whole document. -/
def render (document : Document) : String := String.ofList (itemLines 0 document)

end ControlPlane.Yaml
