import ControlPlane.Data.Binary64
import ControlPlane.Text.Integer

/-!
# Decimal numbers in text

Digits with an optional point among them and an optional power of ten after them.
-/

namespace ControlPlane.Text.Decimal

open Text.Integer (digit?)

def isDigit (c : Char) : Bool := (digit? c).isSome

/-- The value of a run of digits. -/
def value (digits : List Char) : Nat :=
  digits.foldl (fun n c => 10 * n + (digit? c).getD 0) 0

/-- A power of ten: digits with an optional sign. -/
def exponent? (text : List Char) : Option Int :=
  let unsigned (digits : List Char) : Option Nat :=
    if digits ≠ [] ∧ digits.all isDigit then some (value digits) else none
  match text with
  | '-' :: digits => (unsigned digits).map fun n => -n
  | '+' :: digits => (unsigned digits).map Int.ofNat
  | digits => (unsigned digits).map Int.ofNat

/-- A number without a sign: its digits as an integer, and the power of ten of the last one. -/
def unsigned? (text : List Char) : Option (Nat × Int) :=
  let whole := text.takeWhile isDigit
  let afterWhole := text.drop whole.length
  let (fraction, afterFraction) := match afterWhole with
    | '.' :: rest => (rest.takeWhile isDigit, rest.dropWhile isDigit)
    | rest => ([], rest)
  let number (power : Int) : Nat × Int := (value (whole ++ fraction), power - fraction.length)
  if whole = [] ∧ fraction = [] then none
  else match afterFraction with
    | [] => some (number 0)
    | 'e' :: rest | 'E' :: rest => (exponent? rest).map number
    | _ => none

/-- The double-precision number nearest to a decimal with an optional minus sign. -/
def binary64? (text : List Char) : Option Binary64 :=
  let nearest (negative : Bool) (text : List Char) : Option Binary64 :=
    (unsigned? text).map fun (digits, power) => Binary64.ofDecimal negative digits power
  match text with
  | '-' :: rest => nearest true rest
  | rest => nearest false rest

end ControlPlane.Text.Decimal
