import ControlPlane.Command.Execute
import Std.Time.DateTime.Timestamp

/-!
# The program

Runs a command against the process it is started in.
-/

namespace ControlPlane.Main

open Command (FileFault Surroundings)

def faultOf : IO.Error → FileFault
  | .noFileOrDirectory .. => .missing
  | .inappropriateType .. => .isDirectory
  | e => .other (toString e)

/-- A step that may fail for the sake of a file. -/
def guarded {α : Type} (step : IO α) : IO (Except FileFault α) := do
  try
    return .ok (← step)
  catch e =>
    return .error (faultOf e)

def now : IO Time.Timestamp := do
  let t ← Std.Time.Timestamp.now
  return ⟨t.val.second.val, t.val.nano.val.toNat⟩

/-- The surroundings of this process, which has these variables. -/
def surroundings (environment : Settings.Environment) : Surroundings IO where
  environment := environment
  hostFile := do
    match ← guarded (IO.FS.readFile "/etc/hostname") with
    | .ok text => return some text
    | .error _ => return none
  input := do return (← IO.FS.readBinFile "/dev/stdin").toList
  read := fun name => guarded do return (← IO.FS.readBinFile name).toList
  write := fun name content => guarded (IO.FS.writeBinFile name ⟨content.toArray⟩)
  now := now

/-- The variables of a process, out of the text in which they stand one after the other. -/
def variablesOf (text : String) : List (String × String) :=
  (text.splitOn "\x00").map fun entry =>
    let name := entry.toList.takeWhile (· != '=')
    (String.ofList name, String.ofList (entry.toList.drop (name.length + 1)))

def processVariables : IO (List (String × String)) := do
  match ← guarded (IO.FS.readBinFile "/proc/self/environ") with
  | .ok content => return variablesOf ((Bytes.toText? content.toList).getD "")
  | .error _ => return []

def run (arguments : List String) : IO UInt32 := do
  let values ← processVariables
  let outcome ← Command.execute (surroundings fun name => values.lookup name) arguments
  IO.print outcome.output
  IO.eprint outcome.errors
  return outcome.code.toUInt32

end ControlPlane.Main

def main (arguments : List String) : IO UInt32 := ControlPlane.Main.run arguments
