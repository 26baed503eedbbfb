import ControlPlane.Bytes
import ControlPlane.MessageType
import ControlPlane.Text.Integer

/-!
# Resources

What is distributed to proxies: a payload as it was declared, a resource that passed validation, the
name it is stored under and the version of the object it came from. A resource's name is made from
where the object lives, so an object that replaces another takes over its name.
-/

namespace ControlPlane

/-- An encoded message and the type it claims to have. -/
structure Payload where
  typeUrl : String
  value : Bytes
  deriving DecidableEq, Repr

/-- A payload that passed validation. The bytes are kept and served as they came. -/
structure Resource where
  kind : Kind
  protocol : Protocol
  typeUrl : String
  /-- The name that a proxy knows the resource by. -/
  envoyName : String
  body : Bytes
  deriving DecidableEq, Repr

/-- The payload that a resource is served as. -/
def Resource.payload (r : Resource) : Payload := ⟨r.typeUrl, r.body⟩

/-- The name of a stored resource, in lower case: namespace, kind and name between slashes. -/
structure ResourceName where
  text : String
  deriving DecidableEq, Repr

namespace ResourceName

instance : Ord ResourceName := ⟨fun a b => compare a.text b.text⟩

instance : Std.TransOrd ResourceName where
  eq_swap {a b} := Std.OrientedOrd.eq_swap (a := a.text) (b := b.text)
  isLE_trans {a b c} := Std.TransOrd.isLE_trans (a := a.text) (b := b.text) (c := c.text)

instance : Std.LawfulEqOrd ResourceName where
  compare_self {a} := Std.ReflOrd.compare_self (a := a.text)
  eq_of_compare {a b} h := by
    have h : compare a.text b.text = .eq := h
    cases a; cases b
    exact congrArg _ (Std.LawfulEqCmp.compare_eq_iff_eq.1 h)

def of (namespaceName : String) (kind : Kind) (name : String) : ResourceName :=
  ⟨(namespaceName ++ "/" ++ kind.name ++ "/" ++ name).map Char.toLower⟩

/-- What stands before the first slash, and what follows it. -/
def cutAtSlash (text : List Char) : Option (List Char × List Char) :=
  match text.dropWhile (· != '/') with
  | [] => none
  | _ :: rest => some (text.takeWhile (· != '/'), rest)

/-- The namespace, kind and name that a resource name was made from, in lower case. -/
def parts? (r : ResourceName) : Option (String × Kind × String) := do
  let (space, rest) ← cutAtSlash r.text.toList
  let (kind, name) ← cutAtSlash rest
  let kind ← Kind.parse? (String.ofList kind)
  return (String.ofList space, kind, String.ofList name)

end ResourceName

/-- Which object a resource came from, and in which state. -/
structure ResourceVersion where
  identity : String
  version : String
  deriving DecidableEq, Repr

namespace ResourceVersion

/-- Versions of one object are ordered as integers; any others are not ordered. -/
def isOlderThan (a b : ResourceVersion) : Bool :=
  a.identity == b.identity &&
    match Text.Integer.parse64 a.version, Text.Integer.parse64 b.version with
    | .ok m, .ok n => m < n
    | _, _ => false

def display (v : ResourceVersion) : String := v.identity ++ "@" ++ v.version

end ResourceVersion

end ControlPlane
