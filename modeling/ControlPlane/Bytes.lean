/-!
# Byte strings

Payloads are lists of bytes. Their text form is lower-case hexadecimal.
-/

namespace ControlPlane

abbrev Bytes := List UInt8

namespace Bytes

/-- The digit for a value below 16. -/
def hexDigit (n : Nat) : Char :=
  Char.ofNat (if n < 10 then 48 + n else 87 + n)

/-- Two digits for each byte. -/
def toHexChars : Bytes → List Char
  | [] => []
  | b :: rest => hexDigit (b.toNat / 16) :: hexDigit (b.toNat % 16) :: toHexChars rest

def toHex (bytes : Bytes) : String := String.ofList (toHexChars bytes)

/-- The value of a hexadecimal digit of either case. -/
def hexValue? (c : Char) : Option Nat :=
  let n := c.toNat
  if 48 ≤ n ∧ n ≤ 57 then some (n - 48)
  else if 97 ≤ n ∧ n ≤ 102 then some (n - 87)
  else if 65 ≤ n ∧ n ≤ 70 then some (n - 55)
  else none

def ofHexChars? : List Char → Option Bytes
  | [] => some []
  | [_] => none
  | a :: b :: rest => do
    let high ← hexValue? a
    let low ← hexValue? b
    let tail ← ofHexChars? rest
    return UInt8.ofNat (16 * high + low) :: tail

def ofHex? (text : String) : Option Bytes := ofHexChars? text.toList

/-- The bytes of a text in UTF-8. -/
def ofText (text : String) : Bytes := text.toUTF8.toList

/-- The text that the bytes are the UTF-8 form of, if they are one. -/
def toText? (bytes : Bytes) : Option String := String.fromUTF8? (ByteArray.mk bytes.toArray)

end Bytes

end ControlPlane
