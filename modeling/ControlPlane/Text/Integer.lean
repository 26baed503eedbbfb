/-!
# Integers in decimal text

A sign and ASCII digits within the bounds of a fixed-width type. The cause of a failure is that of
the first step that cannot go on: nothing to read, a character that is no digit, or a value past
the bound.
-/

namespace ControlPlane.Text.Integer

/-- Why a text is not an integer of the wanted type. -/
inductive Failure where
  | empty
  | invalidDigit
  | tooLarge
  deriving DecidableEq, Repr

def Failure.message : Failure → String
  | .empty => "cannot parse integer from empty string"
  | .invalidDigit => "invalid digit found in string"
  | .tooLarge => "number too large to fit in target type"

def digit? (c : Char) : Option Nat :=
  if 48 ≤ c.toNat ∧ c.toNat ≤ 57 then some (c.toNat - 48) else none

/-- Reads digits from the left, stopping at the first step that leaves `0 … bound`. -/
def readDigits (bound : Nat) : Nat → List Char → Except Failure Nat
  | value, [] => .ok value
  | value, c :: rest =>
    match digit? c with
    | none => .error .invalidDigit
    | some d =>
      let next := 10 * value + d
      if next ≤ bound then readDigits bound next rest else .error .tooLarge

/-- An unsigned integer of at most `bound`; one leading plus sign is allowed. -/
def parseUnsigned (bound : Nat) : List Char → Except Failure Nat
  | [] => .error .empty
  | '+' :: [] => .error .invalidDigit
  | '+' :: rest => readDigits bound 0 rest
  | rest => readDigits bound 0 rest

def bound16 : Nat := Nat.pow 2 16 - 1

def bound32 : Nat := Nat.pow 2 32 - 1

def bound64 : Nat := Nat.pow 2 64 - 1

def parse16 (text : String) : Except Failure Nat := parseUnsigned bound16 text.toList

def parse32 (text : String) : Except Failure Nat := parseUnsigned bound32 text.toList

def parse64 (text : String) : Except Failure Nat := parseUnsigned bound64 text.toList

end ControlPlane.Text.Integer
