import ControlPlane.Resource

/-!
# Object keys

An object is addressed by kind, namespace and name, and keys are ordered in that order. A key is
valid when its namespace and its name are both DNS-1123 subdomains of 1 to 253 characters.
-/

namespace ControlPlane

structure ObjectKey where
  kind : Kind
  /-- The namespace. -/
  space : String
  name : String
  deriving DecidableEq, Repr

namespace ObjectKey

instance : Ord ObjectKey :=
  ⟨fun a b => compareLex (compareOn (·.kind.rank))
    (compareLex (compareOn (·.space)) (compareOn (·.name))) a b⟩

instance : Std.TransOrd ObjectKey :=
  inferInstanceAs (Std.TransCmp (compareLex (compareOn fun k : ObjectKey => k.kind.rank)
    (compareLex (compareOn fun k : ObjectKey => k.space) (compareOn fun k : ObjectKey => k.name))))

instance : Std.LawfulEqOrd ObjectKey where
  compare_self := Std.ReflCmp.compare_self
  eq_of_compare {a b} h := by
    have h : (compare a.kind.rank b.kind.rank).then
        ((compare a.space b.space).then (compare a.name b.name)) = .eq := h
    rw [Ordering.then_eq_eq, Ordering.then_eq_eq] at h
    obtain ⟨hk, hs, hn⟩ := h
    cases a; cases b
    simp only [ObjectKey.mk.injEq]
    exact ⟨Kind.rank_injective (Std.LawfulEqCmp.compare_eq_iff_eq.1 hk),
      Std.LawfulEqCmp.compare_eq_iff_eq.1 hs, Std.LawfulEqCmp.compare_eq_iff_eq.1 hn⟩

def display (k : ObjectKey) : String := k.kind.name ++ " " ++ k.space ++ "/" ++ k.name

/-- The name under which the resource made from the object is stored. -/
def resourceName (k : ObjectKey) : ResourceName := .of k.space k.kind k.name

/-- The key of the object that a stored resource was made from. -/
def ofResourceName? (name : ResourceName) : Option ObjectKey :=
  name.parts?.map fun (space, kind, name) => ⟨kind, space, name⟩

def isLabelEdge (c : Char) : Bool := c.isLower || c.isDigit

/-- Lower-case letters, digits and dashes, with no dash at either end. -/
def isLabel (label : List Char) : Bool :=
  label.all (fun c => isLabelEdge c || c == '-')
    && (label.head?.map isLabelEdge).getD false && (label.getLast?.map isLabelEdge).getD false

/-- The parts of a text between its dots. -/
def labels : List Char → List (List Char)
  | [] => [[]]
  | c :: rest =>
    if c = '.' then [] :: labels rest
    else match labels rest with
      | [] => [[c]]
      | label :: more => (c :: label) :: more

/-- A DNS-1123 subdomain: one label or more between dots. -/
def isSubdomain (text : List Char) : Bool := (labels text).all isLabel

def maxLength : Nat := 253

/-- What is wrong with one part of a key. -/
def partFaults (text : String) : List String :=
  (if 1 ≤ text.length ∧ text.length ≤ maxLength then []
    else ["must be between 1 and 253 characters"])
  ++ (if isSubdomain text.toList then [] else ["must be a lower case DNS-1123 subdomain"])

/-- The faults of the two parts, by the part's name. -/
def faults (k : ObjectKey) : List (String × List String) :=
  [("name", partFaults k.name), ("namespace", partFaults k.space)].filter (!·.2.isEmpty)

def isValid (k : ObjectKey) : Bool := k.faults.isEmpty

/-- What is said of a key that is not valid. -/
def invalidText (k : ObjectKey) : String :=
  "invalid object key " ++ k.display ++ ": Validation error: Validation failed: "
    ++ "; ".intercalate (k.faults.map fun f => f.1 ++ ": " ++ ", ".intercalate f.2)

end ObjectKey

end ControlPlane
