/-!
# Command-line grammar

The arguments of a command are options and operands. An option has a long name, a short one, or
both; one that takes a value finds it in its own argument or in the next. Options may come between
and after the operands, until a double dash says that only operands follow.

A value is read when the next option or operand is, or at the end. So an argument that means
nothing is found before a value ahead of it that cannot be read.
-/

namespace ControlPlane.Command

/-- Why arguments do not say what to do. -/
inductive ArgumentError where
  /-- Help is asked for, with a command or in general. -/
  | help (command : Option String)
  /-- The program's version is asked for. -/
  | version
  /-- Nothing is said at all. -/
  | nothing
  | missingCommand
  | unknownCommand (name : String)
  | unknownArgument (text : String)
  | missingOperands (names : List String)
  | missingValue (argument : String)
  /-- Not one of the values that there are. -/
  | unlistedValue (argument value : String)
  /-- A value without the form it should have. -/
  | malformedValue (argument value : String)
  | repeated (argument : String)
  /-- A value for an option that takes none. -/
  | unexpectedValue (argument value : String)
  deriving DecidableEq, Repr

/-- What an option does to the arguments collected so far. -/
inductive Role (σ : Type) where
  | flag (mark : σ → σ)
  | value (read : String → σ → Except ArgumentError σ)
  | halt (outcome : ArgumentError)

structure OptionRule (σ : Type) where
  long : Option String
  short : Option Char
  role : Role σ

/-- The name by which an option is spoken of. -/
def OptionRule.label {σ : Type} (rule : OptionRule σ) : String :=
  match rule.long, rule.short with
  | some name, _ => "--" ++ name
  | none, some c => String.ofList ['-', c]
  | none, none => ""

structure Operand (σ : Type) where
  label : String
  read : String → σ → Except ArgumentError σ

structure Grammar (σ : Type) where
  options : List (OptionRule σ)
  operands : List (Operand σ)
  /-- What is said of an operand too many, after a double dash or not. -/
  surplus : Bool → String → ArgumentError

/-- An option or operand whose value is not read yet. -/
structure Pending (σ : Type) where
  label : String
  /-- The value, once it has come. -/
  value : Option String
  read : String → σ → Except ArgumentError σ

/-- Arguments as far as they were taken up. -/
structure Scan (σ : Type) where
  collected : σ
  /-- The options and operands that were given. -/
  given : List String
  pending : Option (Pending σ)
  /-- The operands still to come. -/
  operands : List (Operand σ)
  /-- Whether a double dash was met. -/
  isVerbatim : Bool

namespace Scan

variable {σ : Type}

def start (g : Grammar σ) (empty : σ) : Scan σ := ⟨empty, [], none, g.operands, false⟩

/-- Takes note that an option or operand was given. -/
def note (s : Scan σ) (label : String) : Except ArgumentError (Scan σ) :=
  if s.given.contains label then .error (.repeated label)
  else .ok { s with given := label :: s.given }

/-- Reads the value that is pending. -/
def resolve (s : Scan σ) : Except ArgumentError (Scan σ) := do
  match s.pending with
  | none => return s
  | some p =>
    match p.value with
    | none => throw (.missingValue p.label)
    | some value =>
      let s ← s.note p.label
      return { s with collected := ← p.read value s.collected, pending := none }

/-- Leaves an option or operand pending. -/
def expect (s : Scan σ) (p : Pending σ) : Except ArgumentError (Scan σ) := do
  return { ← s.resolve with pending := some p }

/-- Takes up an option, with the value found in the same argument. -/
def option (s : Scan σ) (rule : OptionRule σ) (attached : Option String) :
    Except ArgumentError (Scan σ) := do
  match rule.role, attached with
  | .value read, some value => (← s.expect ⟨rule.label, some value, read⟩).resolve
  | .value read, none => s.expect ⟨rule.label, none, read⟩
  | _, some value => throw (.unexpectedValue rule.label value)
  | .flag mark, none =>
    let s ← (← s.resolve).note rule.label
    return { s with collected := mark s.collected }
  | .halt outcome, none =>
    let _ ← s.resolve
    throw outcome

/-- Takes up an option by its long name. -/
def longOption (g : Grammar σ) (s : Scan σ) (name : String) (attached : Option String) :
    Except ArgumentError (Scan σ) :=
  match g.options.find? fun rule => rule.long == some name with
  | none => .error (.unknownArgument ("--" ++ name))
  | some rule => s.option rule attached

/-- Takes up options by their short names, which stand together; what follows the name of one that
takes a value is the value, after an equals sign or without. -/
def shortOptions (g : Grammar σ) : Scan σ → List Char → Except ArgumentError (Scan σ)
  | s, [] => .ok s
  | s, c :: rest =>
    match g.options.find? fun rule => rule.short == some c with
    | none => .error (.unknownArgument (String.ofList ['-', c]))
    | some rule =>
      match rule.role, rest with
      | .value _, [] => s.option rule none
      | .value _, '=' :: value => s.option rule (some (String.ofList value))
      | .value _, value => s.option rule (some (String.ofList value))
      | _, rest => do shortOptions g (← s.option rule none) rest

/-- Takes up the next operand. -/
def operand (g : Grammar σ) (s : Scan σ) (text : String) : Except ArgumentError (Scan σ) :=
  match s.operands with
  | [] => .error (g.surplus s.isVerbatim text)
  | o :: rest => do return { ← s.expect ⟨o.label, some text, o.read⟩ with operands := rest }

/-- Takes up one argument. -/
def step (g : Grammar σ) (s : Scan σ) (text : String) : Except ArgumentError (Scan σ) :=
  if s.isVerbatim then s.operand g text
  else match text.toList with
  | ['-', '-'] => .ok { s with isVerbatim := true }
  | '-' :: '-' :: rest =>
    let name := String.ofList (rest.takeWhile (· != '='))
    match rest.dropWhile (· != '=') with
    | [] => s.longOption g name none
    | _ :: value => s.longOption g name (some (String.ofList value))
  | '-' :: c :: rest => s.shortOptions g (c :: rest)
  | _ =>
    match s.pending with
    | some ⟨label, none, read⟩ => .ok { s with pending := some ⟨label, some text, read⟩ }
    | _ => s.operand g text

/-- Takes up all arguments of a command. -/
def run (g : Grammar σ) (empty : σ) (arguments : List String) : Except ArgumentError (Scan σ) := do
  (← arguments.foldlM (step g) (start g empty)).resolve

end Scan

end ControlPlane.Command
