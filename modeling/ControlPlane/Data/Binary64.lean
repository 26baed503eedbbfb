/-!
# Double-precision numbers

Finite numbers are a sign, an integer and a power of two. A decimal is rounded to the nearest of
them, ties to even; a number is written with the fewest digits that read back as it, the nearest
such if there are two.
-/

namespace ControlPlane

inductive Binary64 where
  /-- The number `mantissa * 2 ^ exponent`, with its sign. -/
  | finite (negative : Bool) (mantissa : Nat) (exponent : Int)
  | infinite (negative : Bool)
  | notANumber
  deriving DecidableEq, Repr

namespace Binary64

/-- Whether two values are the same; the sign of zero does not count. -/
def same : Binary64 → Binary64 → Bool
  | finite s m e, finite t n f => (m == 0 && n == 0) || (s == t && m == n && e == f)
  | a, b => a == b

/-- The exponent of the smallest numbers, and the greatest exponent. -/
def minExponent : Int := -1074

def maxExponent : Int := 971

/-- A quotient rounded to the nearest integer, ties to even. -/
def roundQuotient (num den : Nat) : Nat :=
  let q := num / den
  let r := num % den
  if 2 * r < den then q
  else if den < 2 * r then q + 1
  else if q % 2 = 0 then q else q + 1

/-- The nearest number to a quotient of positive integers, by mantissa and exponent. -/
def roundFraction (num den : Nat) : Nat × Int :=
  let estimate : Int := Int.ofNat num.log2 - Int.ofNat den.log2 - 53
  let exponent := max estimate minExponent
  let scaled (e : Int) : Nat :=
    if 0 ≤ e then roundQuotient num (den * Nat.pow 2 e.toNat)
    else roundQuotient (num * Nat.pow 2 (-e).toNat) den
  let fits (e : Int) : Bool := scaled e ≤ Nat.pow 2 53
  let exponent := if fits exponent then exponent
    else if fits (exponent + 1) then exponent + 1 else exponent + 2
  let mantissa := scaled exponent
  if mantissa = Nat.pow 2 53 then (Nat.pow 2 52, exponent + 1) else (mantissa, exponent)

/-- The number nearest to `digits * 10 ^ power`. -/
def ofDecimal (negative : Bool) (digits : Nat) (power : Int) : Binary64 :=
  let size := Int.ofNat (Nat.toDigits 10 digits).length + power
  if digits = 0 ∨ size < -400 then finite negative 0 minExponent
  else if 400 < size then infinite negative
  else
    let (mantissa, exponent) :=
      if 0 ≤ power then roundFraction (digits * Nat.pow 10 power.toNat) 1
      else roundFraction digits (Nat.pow 10 (-power).toNat)
    if maxExponent < exponent then infinite negative else finite negative mantissa exponent

/-- The grid points around a number with `count` digits: a power of ten, and the two neighbours of
the number among its multiples. -/
def neighbours (num den : Nat) (place : Int) (count : Nat) : Int × Nat × Nat :=
  let power := place - count
  let q := if 0 ≤ power then num / (den * Nat.pow 10 power.toNat)
    else num * Nat.pow 10 (-power).toNat / den
  (power, q, q + 1)

/-- The number of digits before the point of a quotient that is not zero, or minus the number of
zeros after it. -/
def decimalPlace (num den : Nat) : Int :=
  let estimate := Int.ofNat (Nat.toDigits 10 num).length - Int.ofNat (Nat.toDigits 10 den).length
  let reaches (p : Int) : Bool :=
    if 0 ≤ p then den * Nat.pow 10 p.toNat ≤ num else den ≤ num * Nat.pow 10 (-p).toNat
  if reaches estimate then estimate + 1 else estimate

/-- The nearer of two grid points that read back, if any does. -/
def pick (num den : Nat) (self : Binary64) (grid : Int × Nat × Nat) : Option (Nat × Int) :=
  let (power, low, high) := grid
  let lowReads := ofDecimal false low power == self
  let highReads := ofDecimal false high power == self
  let lowIsNearer : Bool :=
    if 0 ≤ power then 2 * num ≤ den * Nat.pow 10 power.toNat * (low + high)
    else 2 * num * Nat.pow 10 (-power).toNat ≤ den * (low + high)
  if lowReads && highReads then some (if lowIsNearer then low else high, power)
  else if lowReads then some (low, power)
  else if highReads then some (high, power)
  else none

/-- The fewest digits that read back as a positive number, and the power of ten of the last. -/
def shortest (mantissa : Nat) (exponent : Int) : Nat × Int :=
  let num := if 0 ≤ exponent then mantissa * Nat.pow 2 exponent.toNat else mantissa
  let den := if 0 ≤ exponent then 1 else Nat.pow 2 (-exponent).toNat
  let place := decimalPlace num den
  let self := finite false mantissa exponent
  let found := (List.range 17).findSome? fun n =>
      pick num den self (neighbours num den place (n + 1))
  found.getD (num, 0)

/-- Digits without the zeros at the end, and how many there were. -/
def trimZeros (digits : List Char) : List Char × Nat :=
  let kept := (digits.reverse.dropWhile (· == '0')).reverse
  (kept, digits.length - kept.length)

/-- Digits and the place of the point among them: it stands before the first for zero. -/
def shortestDigits (mantissa : Nat) (exponent : Int) : List Char × Int :=
  let (value, power) := shortest mantissa exponent
  let (digits, dropped) := trimZeros (Nat.toDigits 10 value)
  (digits, Int.ofNat digits.length + power + dropped)

/-- Digits with the point after `place` of them, and always a digit on either side of it. -/
def positional (digits : List Char) (place : Int) : List Char :=
  if place ≤ 0 then '0' :: '.' :: List.replicate (-place).toNat '0' ++ digits
  else
    let n := place.toNat
    if digits.length ≤ n then digits ++ List.replicate (n - digits.length) '0' ++ ['.', '0']
    else digits.take n ++ '.' :: digits.drop n

/-- One digit before the point, and a power of ten with a sign and two digits or more. -/
def scientific (digits : List Char) (place : Int) : List Char :=
  let power := place - 1
  let size := Nat.toDigits 10 power.natAbs
  let point := match digits with
    | [] => []
    | [d] => [d]
    | d :: rest => d :: '.' :: rest
  point ++ 'e' :: (if power < 0 then '-' else '+')
    :: (if size.length < 2 then '0' :: size else size)

def signText (negative : Bool) (text : List Char) : String :=
  String.ofList (if negative then '-' :: text else text)

/-- All digits written out. -/
def plainText : Binary64 → String
  | finite negative mantissa exponent =>
    if mantissa = 0 then signText negative ['0', '.', '0']
    else
      let (digits, place) := shortestDigits mantissa exponent
      signText negative (positional digits place)
  | infinite negative => signText negative ['i', 'n', 'f']
  | notANumber => "NaN"

/-- All digits written out, and no more than are needed. -/
def bareText : Binary64 → String
  | infinite negative => if negative then "-.inf" else ".inf"
  | notANumber => ".nan"
  | value =>
    let text := value.plainText.toList
    String.ofList (if ['0', '.'].isPrefixOf text.reverse then text.take (text.length - 2) else text)

/-- Very large and very small numbers are written with a power of ten. -/
def compactText : Binary64 → String
  | finite negative mantissa exponent =>
    if mantissa = 0 then signText negative ['0', '.', '0']
    else
      let (digits, place) := shortestDigits mantissa exponent
      signText negative <|
        if -5 < place ∧ place ≤ 16 then positional digits place else scientific digits place
  | infinite negative => signText negative ['i', 'n', 'f']
  | notANumber => "NaN"

end Binary64

end ControlPlane
