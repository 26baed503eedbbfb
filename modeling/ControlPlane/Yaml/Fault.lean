/-!
# Faults in YAML text

What is wrong with a text, and where. A place counts lines and columns from zero; a fault at the
very start of a text is reported without its place.
-/

namespace ControlPlane.Yaml

structure Place where
  line : Nat
  column : Nat
  deriving DecidableEq, Repr

namespace Place

def start : Place := ⟨0, 0⟩

/-- The place as it is said to people, who count from one. -/
def text (p : Place) : String :=
  "line " ++ toString (p.line + 1) ++ " column " ++ toString (p.column + 1)

/-- The place after a message. -/
def suffix (p : Place) : String := if p = start then "" else " at " ++ p.text

end Place

inductive Fault where
  /-- The text breaks a rule of the notation; what was being read may be said, and where it began.
  -/
  | badSyntax (problem : String) (place : Place) (context : Option (String × Place))
  /-- A character that no text may hold, by the number of bytes before it. -/
  | control (position : Nat)
  /-- A value that is not taken up. -/
  | badValue (problem : String) (place : Place)
  | unknownAnchor (place : Place)
  | tooDeep (place : Place)
  | tooManyRepetitions
  deriving DecidableEq, Repr

namespace Fault

def message : Fault → String
  | badSyntax problem place none => problem ++ place.suffix
  | badSyntax problem place (some (context, began)) =>
    problem ++ place.suffix ++ ", " ++ context
      ++ (if began = place then "" else began.suffix)
  | control position =>
    "control characters are not allowed"
      ++ (if position = 0 then "" else " at position " ++ toString position)
  | badValue problem place => problem ++ place.suffix
  | unknownAnchor place => "unknown anchor" ++ place.suffix
  | tooDeep place => "recursion limit exceeded" ++ place.suffix
  | tooManyRepetitions => "repetition limit exceeded"

end Fault

end ControlPlane.Yaml
