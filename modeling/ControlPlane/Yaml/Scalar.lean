import ControlPlane.Data.Datum
import ControlPlane.Text.Decimal

/-!
# Scalars without quotes

What a scalar means that is written without quotes and without a tag: null, a boolean, an integer,
a floating-point number, or else the text itself. The choice is that of the core schema of YAML
1.2, so `yes` and `012` are texts.
-/

namespace ControlPlane.Yaml.Scalar

def isNull (text : String) : Bool := ["null", "Null", "NULL", "~"].contains text

def bool? (text : String) : Option Bool :=
  if ["true", "True", "TRUE"].contains text then some true
  else if ["false", "False", "FALSE"].contains text then some false
  else none

/-- The value of a digit in a base of at most 16. -/
def digit? (base : Nat) (c : Char) : Option Nat :=
  let n := c.toNat
  let value :=
    if 48 ≤ n ∧ n ≤ 57 then n - 48
    else if 97 ≤ n ∧ n ≤ 102 then n - 87
    else if 65 ≤ n ∧ n ≤ 70 then n - 55
    else base
  if value < base then some value else none

/-- The value of a text of one digit or more. -/
def digits? (base : Nat) (text : List Char) : Option Nat :=
  if text = [] then none
  else text.foldlM (fun n c => (digit? base c).map (base * n + ·)) 0

/-- Digits of which the first is a zero that could be left out. -/
def isZeroLed (text : List Char) : Bool :=
  match text with
  | '0' :: c :: rest => (c :: rest).all Text.Decimal.isDigit
  | _ => false

def natural? (text : List Char) : Option Nat :=
  match text with
  | '0' :: 'x' :: rest => digits? 16 rest
  | '0' :: 'o' :: rest => digits? 8 rest
  | '0' :: 'b' :: rest => digits? 2 rest
  | _ => if isZeroLed text then none else digits? 10 text

def integer? (text : List Char) : Option Int :=
  match text with
  | '-' :: rest => (natural? rest).map fun n => -n
  | '+' :: rest => (natural? rest).map Int.ofNat
  | _ => (natural? text).map Int.ofNat

def isInfinity (text : List Char) : Bool :=
  [".inf", ".Inf", ".INF"].contains (String.ofList text)

def isFinite : Binary64 → Bool
  | .finite _ _ _ => true
  | _ => false

def float? (text : List Char) : Option Binary64 :=
  let finite (text : List Char) : Option Binary64 := (Text.Decimal.binary64? text).filter isFinite
  match text with
  | '+' :: '-' :: _ => none
  | '+' :: rest => if isInfinity rest then some (.infinite false) else finite rest
  | '-' :: rest => if isInfinity rest then some (.infinite true) else finite text
  | _ =>
    if isInfinity text then some (.infinite false)
    else if [".nan", ".NaN", ".NAN"].contains (String.ofList text) then some .notANumber
    else finite text

/-- What a text without quotes stands for. Integers that fit 64 bits are taken up; those that fit
only 128 bits are recognised, but nothing holds them. -/
inductive Meaning where
  | datum (value : Datum)
  | wide (value : Int)

/-- An integer by its size; one past 128 bits is no integer. -/
def sized? (value : Int) : Option Meaning :=
  if -Nat.pow 2 63 ≤ value ∧ value < Nat.pow 2 64 then some (.datum (.int value))
  else if -Nat.pow 2 127 ≤ value ∧ value < Nat.pow 2 128 then some (.wide value)
  else none

def stripSign (text : List Char) : List Char :=
  match text with
  | '-' :: rest | '+' :: rest => rest
  | _ => text

def meaning (text : String) : Meaning :=
  let chars := text.toList
  if text = "" ∨ isNull text then .datum .null
  else match bool? text with
  | some value => .datum (.bool value)
  | none =>
    match (integer? chars).bind sized? with
    | some meaning => meaning
    | none =>
      if isZeroLed (stripSign chars) then .datum (.text text)
      else match float? chars with
        | some value => .datum (.float value)
        | none => .datum (.text text)

/-- Whether a text means itself when it is written without quotes, to any reader. -/
def isPlainText (text : String) : Bool :=
  match meaning text with
  | .datum (.text _) => !isZeroLed (stripSign text.toList)
  | _ => false

end ControlPlane.Yaml.Scalar
