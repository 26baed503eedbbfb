import ControlPlane.Bytes

/-!
# Base64

The standard alphabet with padding. Decoding accepts only what encoding writes: whole groups of
four, padding at the end alone, and no bits set beyond the last byte. The cause of a failure is
the first one met when whole groups are read from the left and the last group after them.
-/

namespace ControlPlane.Text.Base64

/-- The digit for a value below 64. -/
def digit (n : Nat) : Char :=
  if n < 26 then Char.ofNat (65 + n)
  else if n < 52 then Char.ofNat (71 + n)
  else if n < 62 then Char.ofNat (n - 4)
  else if n = 62 then '+'
  else '/'

def encodeChars : Bytes → List Char
  | [] => []
  | [a] =>
    let n := a.toNat
    [digit (n / 4), digit (n % 4 * 16), '=', '=']
  | [a, b] =>
    let n := a.toNat * 256 + b.toNat
    [digit (n / 1024), digit (n / 16 % 64), digit (n % 16 * 4), '=']
  | a :: b :: c :: rest =>
    let n := (a.toNat * 256 + b.toNat) * 256 + c.toNat
    digit (n / 262144) :: digit (n / 4096 % 64) :: digit (n / 64 % 64) :: digit (n % 64)
      :: encodeChars rest

def encode (bytes : Bytes) : String := String.ofList (encodeChars bytes)

/-- Why a text is not base64. Positions count bytes. -/
inductive Failure where
  | invalidSymbol (symbol position : Nat)
  | invalidLength (length : Nat)
  | invalidLastSymbol (symbol position : Nat)
  | invalidPadding
  deriving DecidableEq, Repr

def Failure.message : Failure → String
  | invalidSymbol symbol position => s!"Invalid symbol {symbol}, offset {position}."
  | invalidLength length => s!"Invalid input length: {length}"
  | invalidLastSymbol symbol position => s!"Invalid last symbol {symbol}, offset {position}."
  | invalidPadding => "Invalid padding"

/-- The value of a digit. -/
def value? (b : UInt8) : Option Nat :=
  let n := b.toNat
  if 65 ≤ n ∧ n ≤ 90 then some (n - 65)
  else if 97 ≤ n ∧ n ≤ 122 then some (n - 71)
  else if 48 ≤ n ∧ n ≤ 57 then some (n + 4)
  else if n = 43 then some 62
  else if n = 47 then some 63
  else none

/-- The padding character. -/
def pad : UInt8 := 61

/-- The value of the digit at a position. -/
def readDigit (position : Nat) (b : UInt8) : Except Failure Nat :=
  match value? b with
  | none => .error (.invalidSymbol b.toNat position)
  | some v => .ok v

/-- The digits and the padding of the last group: the digits with their bytes, and the number of
padding characters. -/
def readLast (start : Nat) (group : Bytes) : Except Failure (List (UInt8 × Nat) × Nat) :=
  let digits := group.takeWhile (· ≠ pad)
  let tail := group.drop digits.length
  let padding := tail.takeWhile (· = pad)
  do
    let values ← (digits.zipIdx start).mapM fun (b, i) => return (b, ← readDigit i b)
    let place := start + digits.length
    if padding.length = 0 then return (values, 0)
    if digits.length < 2 then throw (.invalidSymbol pad.toNat place)
    if padding.length < tail.length then throw (.invalidSymbol pad.toNat place)
    return (values, padding.length)

/-- The bytes of the last group, which may be short or padded. -/
def decodeLast (start : Nat) (group : Bytes) : Except Failure Bytes := do
  let (values, padding) ← readLast start group
  if group = [] then return []
  if values.length < 2 then throw (.invalidLength (start + values.length))
  if values.length + padding ≠ 4 then throw .invalidPadding
  let n := (values.map (·.2)).foldl (fun n v => 64 * n + v) 0
  match values, values.getLast? with
  | [_, _], some (symbol, _) =>
    if n % 16 ≠ 0 then throw (.invalidLastSymbol symbol.toNat (start + 1))
    return [UInt8.ofNat (n / 16)]
  | [_, _, _], some (symbol, _) =>
    if n % 4 ≠ 0 then throw (.invalidLastSymbol symbol.toNat (start + 2))
    return [UInt8.ofNat (n / 1024), UInt8.ofNat (n / 4 % 256)]
  | _, _ => return [UInt8.ofNat (n / 65536), UInt8.ofNat (n / 256 % 256), UInt8.ofNat (n % 256)]

/-- Reads groups from the left; the last one is left to `decodeLast`. -/
def decodeFrom (start : Nat) : Bytes → Except Failure Bytes
  | a :: b :: c :: d :: e :: rest => do
    let w ← readDigit start a
    let x ← readDigit (start + 1) b
    let y ← readDigit (start + 2) c
    let z ← readDigit (start + 3) d
    let tail ← decodeFrom (start + 4) (e :: rest)
    let n := ((w * 64 + x) * 64 + y) * 64 + z
    return UInt8.ofNat (n / 65536) :: UInt8.ofNat (n / 256 % 256) :: UInt8.ofNat (n % 256) :: tail
  | group => decodeLast start group

/-- A stray character at the end, such as a line break, is reported before all else. -/
def decode (text : String) : Except Failure Bytes :=
  let bytes := Bytes.ofText text
  match bytes.getLast? with
  | some last =>
    if bytes.length % 4 = 1 ∧ last ≠ pad ∧ value? last = none then
      .error (.invalidSymbol last.toNat (bytes.length - 1))
    else decodeFrom 0 bytes
  | none => .ok []

end ControlPlane.Text.Base64
