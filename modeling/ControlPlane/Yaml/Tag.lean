import ControlPlane.Yaml.Cursor

/-!
# Tags, anchors and directives

A tag is a handle and a suffix; a directive may say what a handle stands for. The handle is empty
for a tag that is given in full.
-/

namespace ControlPlane.Yaml

structure TagName where
  handle : String
  suffix : String
  deriving DecidableEq, Repr

/-- What may stand at the start of a document before its marker. -/
inductive Directive where
  | version (major minor : Nat)
  | tag (handle : String) (expansion : String)
  deriving DecidableEq, Repr

namespace Tag

def isWordChar (c : Char) : Bool := c.isAlphanum || c == '_' || c == '-'

/-- Characters of a tag's suffix. Between angle brackets there may be flow marks, too. -/
def isUriChar (inFull : Bool) (c : Char) : Bool :=
  isWordChar c || (";/?:@&=+$.%!~*'()".toList).contains c
    || (inFull && (",[]".toList).contains c)

def hexDigit? (c : Char) : Option Nat :=
  let n := c.toNat
  if 48 ≤ n ∧ n ≤ 57 then some (n - 48)
  else if 97 ≤ n ∧ n ≤ 102 then some (n - 87)
  else if 65 ≤ n ∧ n ≤ 70 then some (n - 55)
  else none

/-- An octet written as a percent sign and two digits. -/
def octet? : List Char → Option (UInt8 × List Char)
  | '%' :: a :: b :: rest =>
    match hexDigit? a, hexDigit? b with
    | some m, some n => some (UInt8.ofNat (16 * m + n), rest)
    | _, _ => none
  | _ => none

/-- The length of an encoded character by its first octet. -/
def encodedLength? (b : UInt8) : Option Nat :=
  let n := b.toNat
  if n < 0x80 then some 1
  else if n / 0x20 = 0x06 then some 2
  else if n / 0x10 = 0x0e then some 3
  else if n / 0x08 = 0x1e then some 4
  else none

/-- So many octets that carry on a character. -/
def moreOctets? : Nat → List Char → Option (List UInt8 × List Char)
  | 0, text => some ([], text)
  | n + 1, text => do
    let (b, text) ← octet? text
    if b.toNat / 0x40 ≠ 0x02 then none
    let (more, text) ← moreOctets? n text
    return (b :: more, text)

/-- The octets of one encoded character, and the text after them. -/
def encodedChar? (text : List Char) : Option (List UInt8 × List Char) := do
  let (b, text) ← octet? text
  let (more, text) ← moreOctets? ((← encodedLength? b) - 1) text
  return (b :: more, text)

/-- The bytes of a text in which characters may be written as octets. The fuel bounds their
number. -/
def decodeUri? : Nat → List Char → Option (List UInt8)
  | 0, _ => some []
  | _ + 1, [] => some []
  | fuel + 1, '%' :: rest => do
    let (bytes, rest) ← encodedChar? ('%' :: rest)
    return bytes ++ (← decodeUri? fuel rest)
  | fuel + 1, c :: rest => do
    return (String.singleton c).toUTF8.toList ++ (← decodeUri? fuel rest)

/-- Reads a suffix that may go on from a beginning that was read before. -/
def readUri (inFull : Bool) (before : List Char) (context : String) (began : Place) (c : Cursor) :
    Except Fault (String × Cursor) := do
  let run := c.takeWhile (isUriChar inFull)
  if before.isEmpty && run.isEmpty then
    throw (c.fault "did not find expected tag URI" context began)
  match decodeUri? run.length run with
  | none => throw (c.fault "did not find URI escaped octet" context began)
  | some bytes =>
    let text := String.fromUTF8? ⟨(String.ofList (before.drop 1)).toUTF8.toList ++ bytes |>.toArray⟩
    return (text.getD "", c.skipWhile (isUriChar inFull))

/-- Reads a handle: an exclamation mark, perhaps a word, perhaps another mark. -/
def readHandle (inDirective : Bool) (began : Place) (c : Cursor) :
    Except Fault (List Char × Cursor) := do
  if !c.has '!' then
    throw (c.fault "did not find expected '!'"
      (if inDirective then "while scanning a tag directive" else "while scanning a tag") began)
  let word := c.skip.takeWhile isWordChar
  let c := c.skip.skipWhile isWordChar
  if c.has '!' then return ('!' :: word ++ ['!'], c.skip)
  else if inDirective && !word.isEmpty then
    throw (c.fault "did not find expected '!'" "while parsing a tag directive" began)
  else return ('!' :: word, c)

/-- Reads a tag. -/
def read (inFlow : Bool) (c : Cursor) : Except Fault (TagName × Cursor) := do
  let began := c.place
  let context := "while scanning a tag"
  let uriContext := "while parsing a tag"
  let (tag, c) ← do
    if c.peekAt 1 == some '<' then
      let (suffix, c) ← readUri true [] uriContext began (c.skipMany 2)
      if !c.has '>' then throw (c.fault "did not find the expected '>'" context began)
      pure ((⟨"", suffix⟩ : TagName), c.skip)
    else
      let (handle, c) ← readHandle false began c
      if 2 ≤ handle.length && handle.getLast? == some '!' then
        let (suffix, c) ← readUri false [] uriContext began c
        pure (⟨String.ofList handle, suffix⟩, c)
      else
        let (suffix, c) ← readUri false handle uriContext began c
        pure (if suffix = "" then ⟨"", "!"⟩ else ⟨"!", suffix⟩, c)
  if !(inFlow && c.has ',') && !c.isGap then
    throw (c.fault "did not find expected whitespace or line break" context began)
  return (tag, c)

/-- Reads the name of an anchor or of an alias, after its mark. -/
def readAnchor (context : String) (began : Place) (c : Cursor) : Except Fault (String × Cursor) :=
  let word := c.takeWhile isWordChar
  let after := c.skipWhile isWordChar
  let ends := after.isGap || (after.peek.map ("?:,]\x7d%@\x60".toList).contains).getD false
  if word.isEmpty || !ends then
    .error (after.fault "did not find expected alphabetic or numeric character" context began)
  else .ok (String.ofList word, after)

end Tag

namespace Directive

def context : String := "while scanning a directive"

/-- Reads a number of a version. -/
def readNumber (began : Place) (c : Cursor) : Except Fault (Nat × Cursor) :=
  let context := "while scanning a %YAML directive"
  let digits := c.takeWhile Char.isDigit
  if digits.isEmpty then .error (c.fault "did not find expected version number" context began)
  else if 9 < digits.length then
    .error (c.fault "found extremely long version number" context began)
  else .ok (digits.foldl (fun n d => 10 * n + (d.toNat - 48)) 0, c.skipWhile Char.isDigit)

def readVersion (began : Place) (c : Cursor) : Except Fault (Directive × Cursor) := do
  let (major, c) ← readNumber began (c.skipWhile isBlank)
  if !c.has '.' then
    throw (c.fault "did not find expected digit or '.' character"
      "while scanning a %YAML directive" began)
  let (minor, c) ← readNumber began c.skip
  return (version major minor, c)

def readTag (began : Place) (c : Cursor) : Except Fault (Directive × Cursor) := do
  let context := "while scanning a %TAG directive"
  let (handle, c) ← Tag.readHandle true began (c.skipWhile isBlank)
  if !(c.peek.map isBlank).getD false then
    throw (c.fault "did not find expected whitespace" context began)
  let (expansion, c) ← Tag.readUri true [] "while parsing a %TAG directive" began
    (c.skipWhile isBlank)
  if !c.isGap then
    throw (c.fault "did not find expected whitespace or line break" context began)
  return (tag (String.ofList handle) expansion, c)

/-- Reads a directive, up to the end of its line. -/
def read (c : Cursor) : Except Fault (Directive × Cursor) := do
  let began := c.place
  let c := c.skip
  let name := String.ofList (c.takeWhile Tag.isWordChar)
  let c := c.skipWhile Tag.isWordChar
  if name = "" then throw (c.fault "could not find expected directive name" context began)
  if !c.isGap then throw (c.fault "found unexpected non-alphabetical character" context began)
  let (directive, c) ←
    if name = "YAML" then readVersion began c
    else if name = "TAG" then readTag began c
    else throw (c.fault "found unknown directive name" context began)
  let c := c.skipWhile isBlank
  let c := if c.has '#' then c.skipWhile fun _ => true else c
  if !c.isLineEnd then
    throw (c.fault "did not find expected comment or line break" context began)
  return (directive, c.skip)

end Directive

end ControlPlane.Yaml
