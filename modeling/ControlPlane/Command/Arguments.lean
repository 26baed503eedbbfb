import ControlPlane.Command.Create
import ControlPlane.Command.Grammar
import ControlPlane.Kind
import ControlPlane.Manifest.Load
import ControlPlane.Settings.Environment

/-!
# Arguments

What the program can be told to do: run the control plane, create an object from an encoded
message, or write a bootstrap document for a proxy.
-/

namespace ControlPlane.Command

/-- Which protocol versions were asked for. -/
structure VersionChoice where
  v2 : Bool
  v3 : Bool
  deriving DecidableEq, Repr

/-- The one version that was asked for, if any was. -/
def VersionChoice.selected (c : VersionChoice) : Except ExitError (Option Protocol) :=
  match c.v2, c.v3 with
  | true, true => .error ⟨.usage, "multiple Envoy API versions specified"⟩
  | true, false => .ok (some .v2)
  | false, true => .ok (some .v3)
  | false, false => .ok none

structure RunArguments where
  xdsAddress : Option String
  metricsAddress : Option String
  /-- The directory of manifests to serve. -/
  manifests : Option String
  workers : Option Nat
  deriving DecidableEq, Repr

structure CreateArguments where
  kind : Kind
  name : String
  /-- The namespace. -/
  space : Option String
  /-- The file with the encoded message. -/
  filename : String
  format : Manifest.Format
  versions : VersionChoice
  deriving DecidableEq, Repr

structure BootstrapArguments where
  adminAddress : String
  adminAccessLog : String
  xdsAddress : String
  xdsClusterName : String
  xdsIncremental : Bool
  nodeId : Option String
  /-- The file to write to. -/
  filename : String
  versions : VersionChoice
  deriving DecidableEq, Repr

inductive Order where
  | run (arguments : RunArguments)
  | create (arguments : CreateArguments)
  | bootstrap (arguments : BootstrapArguments)
  deriving DecidableEq, Repr

structure Invocation where
  debug : Bool
  order : Order
  deriving DecidableEq, Repr

namespace Arguments

/-- The file name that stands for the standard streams. -/
def standardStream : String := "-"

/-! ### Rules -/

variable {σ : Type}

def text (name : String) (set : String → σ → σ) : OptionRule σ :=
  ⟨some name, none, .value fun value s => .ok (set value s)⟩

def shortText (name : String) (short : Char) (set : String → σ → σ) : OptionRule σ :=
  { text name set with short := some short }

def debugRule : OptionRule σ := ⟨some "debug", none, .flag id⟩

def helpRule (command : Option String) : OptionRule σ :=
  ⟨some "help", some 'h', .halt (.help command)⟩

def versionRule : OptionRule σ := ⟨some "version", some 'V', .halt .version⟩

/-- The options that choose protocol versions. -/
def versionChoiceRules (change : (VersionChoice → VersionChoice) → σ → σ) : List (OptionRule σ) :=
  [⟨none, some '2', .flag (change fun c => { c with v2 := true })⟩,
    ⟨none, some '3', .flag (change fun c => { c with v3 := true })⟩]

/-- The grammar of a command, with the options that every command has. -/
def commandGrammar (command : String) (options : List (OptionRule σ))
    (operands : List (Operand σ)) : Grammar σ :=
  ⟨options ++ [debugRule, helpRule (some command)], operands, fun _ text => .unknownArgument text⟩

/-! ### Commands -/

def standardRun : RunArguments := ⟨none, none, none, none⟩

def readWorkers (value : String) (a : RunArguments) : Except ArgumentError RunArguments :=
  match Text.Integer.parse64 value with
  | .ok n => .ok { a with workers := some n }
  | .error _ => .error (.malformedValue "--workers" value)

def readManifests (value : String) (a : RunArguments) : Except ArgumentError RunArguments :=
  if value = "" then .error (.missingValue "--manifests")
  else .ok { a with manifests := some value }

def runGrammar : Grammar RunArguments :=
  commandGrammar "run"
    [text "xds-address" fun v a => { a with xdsAddress := some v },
      text "metrics-address" fun v a => { a with metricsAddress := some v },
      ⟨some "manifests", none, .value readManifests⟩,
      ⟨some "workers", none, .value readWorkers⟩]
    []

/-- The arguments of a creation while its operands are still to come. -/
structure CreateDraft where
  kind : Option Kind
  name : Option String
  space : Option String
  filename : String
  format : Manifest.Format
  versions : VersionChoice

def CreateDraft.empty : CreateDraft := ⟨none, none, none, standardStream, .yaml, ⟨false, false⟩⟩

def CreateDraft.complete (d : CreateDraft) (missing : List String) :
    Except ArgumentError CreateArguments :=
  match d.kind, d.name with
  | some kind, some name => .ok ⟨kind, name, d.space, d.filename, d.format, d.versions⟩
  | _, _ => .error (.missingOperands missing)

def readKind (value : String) (d : CreateDraft) : Except ArgumentError CreateDraft :=
  match Kind.parse? value with
  | some kind => .ok { d with kind := some kind }
  | none => .error (.malformedValue "<KIND>" value)

def readFormat (value : String) (d : CreateDraft) : Except ArgumentError CreateDraft :=
  if value = "yaml" then .ok { d with format := .yaml }
  else if value = "json" then .ok { d with format := .json }
  else .error (.unlistedValue "--output" value)

def createGrammar : Grammar CreateDraft :=
  commandGrammar "create"
    ([shortText "namespace" 'n' fun v d => { d with space := some v },
      shortText "filename" 'f' fun v d => { d with filename := v },
      ⟨some "output", some 'o', .value readFormat⟩]
      ++ versionChoiceRules fun f d => { d with versions := f d.versions })
    [⟨"<KIND>", readKind⟩, ⟨"<NAME>", fun v d => .ok { d with name := some v }⟩]

def standardBootstrap : BootstrapArguments where
  adminAddress := ":8080"
  adminAccessLog := "/dev/null"
  xdsAddress := "/var/run/xds.sock"
  xdsClusterName := "envoy-controller"
  xdsIncremental := false
  nodeId := none
  filename := standardStream
  versions := ⟨false, false⟩

def bootstrapGrammar : Grammar BootstrapArguments :=
  commandGrammar "bootstrap"
    ([text "admin-address" fun v a => { a with adminAddress := v },
      text "admin-accesslog" fun v a => { a with adminAccessLog := v },
      text "xds-address" fun v a => { a with xdsAddress := v },
      text "xds-clustername" fun v a => { a with xdsClusterName := v },
      ⟨some "xds-incremental", none, .flag fun a => { a with xdsIncremental := true }⟩,
      text "node-id" fun v a => { a with nodeId := some v },
      shortText "filename" 'f' fun v a => { a with filename := v }]
      ++ versionChoiceRules fun f a => { a with versions := f a.versions })
    []

/-- The commands by name. Each reads the arguments after its name and says whether debugging is
on. -/
def commands : List (String × (List String → Except ArgumentError (Bool × Order))) :=
  [("run", fun arguments => do
      let s ← Scan.run runGrammar standardRun arguments
      return (s.given.contains "--debug", .run s.collected)),
    ("create", fun arguments => do
      let s ← Scan.run createGrammar .empty arguments
      return (s.given.contains "--debug",
        .create (← s.collected.complete (s.operands.map (·.label))))),
    ("bootstrap", fun arguments => do
      let s ← Scan.run bootstrapGrammar standardBootstrap arguments
      return (s.given.contains "--debug", .bootstrap s.collected))]

/-! ### The program -/

/-- The command that explains the others. -/
def helpCommand : String := "help"

def isCommandName (text : String) : Bool := text == helpCommand || commands.any (·.1 == text)

/-- What is asked for after the help command: the help for one command, or for the program. -/
def helpOn : List String → ArgumentError
  | [] => .help none
  | [name] => if isCommandName name then .help (some name) else .unknownCommand name
  | name :: other :: _ => .unknownCommand (if isCommandName name then other else name)

/-- The grammar of what comes before the name of a command. -/
def programGrammar : Grammar Unit where
  options := [debugRule, helpRule none, versionRule]
  operands := []
  surplus := fun isVerbatim text =>
    if isVerbatim && isCommandName text then .unknownArgument text else .unknownCommand text

/-- Takes up arguments until a command is named, and leaves the rest to it. -/
def parseFrom (s : Scan Unit) : List String → Except ArgumentError Invocation
  | [] => .error (if s.given.isEmpty then .nothing else .missingCommand)
  | text :: rest =>
    if !s.isVerbatim && text = helpCommand then .error (helpOn rest)
    else match commands.find? fun c => !s.isVerbatim && c.1 == text with
    | some command => do
      let (debug, order) ← command.2 rest
      return ⟨debug || s.given.contains "--debug", order⟩
    | none => do parseFrom (← s.step programGrammar text) rest

/-- What the arguments after the program's name say. -/
def parse (arguments : List String) : Except ArgumentError Invocation :=
  parseFrom (Scan.start programGrammar ()) arguments

end Arguments

end ControlPlane.Command
