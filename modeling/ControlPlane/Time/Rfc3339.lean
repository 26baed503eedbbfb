import ControlPlane.Text.Characters
import ControlPlane.Text.Integer
import ControlPlane.Time.Civil

/-!
# Timestamps in RFC 3339

Reading is lenient: blanks may stand before numbers and separators, a blank or a letter of either
case between date and time, years may be signed and of any length, and an offset may leave out its
colon. Writing is strict: always in UTC, with as many groups of three fraction digits as the instant
needs.
-/

namespace ControlPlane.Time

/-- Why a text is not a timestamp. -/
inductive TimeError where
  | tooShort
  | invalid
  | outOfRange
  | impossible
  | tooLong
  deriving DecidableEq, Repr

def TimeError.message : TimeError → String
  | tooShort => "premature end of input"
  | invalid => "input contains invalid characters"
  | outOfRange => "input is out of range"
  | impossible => "no possible date and time matching input"
  | tooLong => "trailing input"

namespace Rfc3339

open Text (trimStart)
open Text.Integer (digit?)

abbrev Reader (α : Type) := List Char → Except TimeError (α × List Char)

/-- Digits from the left, at most `left` more, as long as the value fits a signed 64-bit word. -/
def digitsFrom : Nat → Nat → Reader Nat
  | _, value, [] => .ok (value, [])
  | 0, value, rest => .ok (value, rest)
  | left + 1, value, c :: rest =>
    match digit? c with
    | none => .ok (value, c :: rest)
    | some d =>
      if 10 * value + d < Nat.pow 2 63 then digitsFrom left (10 * value + d) rest
      else .error .outOfRange

/-- A number of one to `width` digits. -/
def number (width : Nat) : Reader Nat
  | [] => .error .tooShort
  | c :: rest => if (digit? c).isSome then digitsFrom width 0 (c :: rest) else .error .invalid

/-- A number in its place: blanks may stand before it. -/
def field (low high : Nat) : Reader Nat := fun text => do
  let (value, rest) ← number 2 (trimStart text)
  if low ≤ value ∧ value ≤ high then return (value, rest) else throw .outOfRange

/-- Four digits, or a sign and any number of digits. -/
def year : Reader Int := fun text =>
  let signed (sign : Int) (text : List Char) : Except TimeError (Int × List Char) := do
    let (value, rest) ← number text.length text
    if -Nat.pow 2 31 ≤ sign * value ∧ sign * value < Nat.pow 2 31 then return (sign * value, rest)
    else throw .outOfRange
  match trimStart text with
  | '-' :: rest => signed (-1) rest
  | '+' :: rest => signed 1 rest
  | rest => do
    let (value, rest) ← number 4 rest
    return (value, rest)

/-- A separator; blanks may stand before it. -/
def separator (mark : Char) : Reader Unit := fun text =>
  match trimStart text with
  | [] => .error .tooShort
  | c :: rest => if c = mark then .ok ((), rest) else .error .invalid

/-- The digits after a point, as nanoseconds; digits past the ninth do not count. -/
def fraction : Reader Nat
  | '.' :: rest => do
    let (value, after) ← number 9 rest
    let digits := rest.length - after.length
    return (value * Nat.pow 10 (9 - digits), after.dropWhile fun c => (digit? c).isSome)
  | rest => .ok (0, rest)

/-- The two digits that come next, as a number. A single character fills both places when it takes
up more than one byte. -/
def digitPair : Reader Nat
  | [] => .error .tooShort
  | [c] => if 2 ≤ c.utf8Size then .error .invalid else .error .tooShort
  | a :: b :: rest =>
    match digit? a, digit? b with
    | some m, some n => .ok (10 * m + n, rest)
    | _, _ => .error .invalid

/-- Seconds east of UTC. -/
def offset : Reader Int := fun text =>
  let clock (sign : Int) (text : List Char) : Except TimeError (Int × List Char) := do
    let (hours, rest) ← digitPair text
    let (minutes, rest) ← digitPair (rest.dropWhile fun c => c == ':' || Text.isBlank c)
    if 60 ≤ minutes then throw .outOfRange
    return (sign * (3600 * hours + 60 * minutes), rest)
  match text with
  | [] => .error .tooShort
  | 'Z' :: rest | 'z' :: rest => .ok (0, rest)
  | '+' :: rest => clock 1 rest
  | '-' :: rest | '\u2212' :: rest => clock (-1) rest
  | _ :: _ => .error .invalid

/-- The offset, or `UTC` in any case. -/
def zone : Reader Int := fun text =>
  match text with
  | u :: t :: c :: rest =>
    if [u, t, c].map Char.toLower = ['u', 't', 'c'] then .ok (0, rest) else offset text
  | _ => offset text

def dateTimeMark : Reader Unit
  | [] => .error .tooShort
  | c :: rest => if c = 'T' ∨ c = 't' ∨ c = ' ' then .ok ((), rest) else .error .invalid

def parse (text : String) : Except TimeError Timestamp := do
  let (y, rest) ← year text.toList
  let ((), rest) ← separator '-' rest
  let (month, rest) ← field 1 12 rest
  let ((), rest) ← separator '-' rest
  let (day, rest) ← field 1 31 rest
  let ((), rest) ← dateTimeMark rest
  let (hour, rest) ← field 0 23 rest
  let ((), rest) ← separator ':' rest
  let (minute, rest) ← field 0 59 rest
  let ((), rest) ← separator ':' rest
  let (second, rest) ← field 0 60 rest
  let (nanos, rest) ← fraction rest
  let (east, rest) ← zone (trimStart rest)
  if trimStart rest ≠ [] then throw .tooLong
  let date : Date := ⟨y, month, day⟩
  if !date.isValid then throw .outOfRange
  if 86400 ≤ east.natAbs then throw .outOfRange
  let wall : Int := date.toDays * 86400 + 3600 * hour + 60 * minute + min second 59
  let instant : Timestamp := ⟨wall - east, if second = 60 then nanos + 1000000000 else nanos⟩
  if instant.date.isValid then return instant else throw .impossible

/-- A number padded with zeros to a width. -/
def padded (width n : Nat) : List Char :=
  let digits := Nat.toDigits 10 n
  List.replicate (width - digits.length) '0' ++ digits

def yearText (y : Int) : List Char :=
  if 0 ≤ y ∧ y ≤ 9999 then padded 4 y.toNat
  else (if y < 0 then '-' else '+') :: padded 4 y.natAbs

def fractionText (nanos : Nat) : List Char :=
  if nanos = 0 then []
  else if nanos % 1000000 = 0 then '.' :: padded 3 (nanos / 1000000)
  else if nanos % 1000 = 0 then '.' :: padded 6 (nanos / 1000)
  else '.' :: padded 9 nanos

def render (t : Timestamp) : String :=
  let date := t.date
  let second := t.secondOfDay
  let leap := Timestamp.nanosPerSecond ≤ t.nanos
  let nanos := if leap then t.nanos - Timestamp.nanosPerSecond else t.nanos
  let shown := second % 60 + (if leap then 1 else 0)
  String.ofList <|
    yearText date.year ++ '-' :: padded 2 date.month ++ '-' :: padded 2 date.day
      ++ 'T' :: padded 2 (second / 3600) ++ ':' :: padded 2 (second / 60 % 60)
      ++ ':' :: padded 2 shown ++ fractionText nanos ++ ['Z']

end Rfc3339

end ControlPlane.Time
