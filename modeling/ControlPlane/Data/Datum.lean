import ControlPlane.Data.Binary64

/-!
# Data of unknown shape

What a configuration text says before it is known to be of any type. Mappings keep the order in
which they were written, and a value may carry a tag.
-/

namespace ControlPlane

inductive Datum where
  | null
  | bool (value : Bool)
  | int (value : Int)
  | float (value : Binary64)
  | text (value : String)
  | list (items : List Datum)
  | dict (entries : List (Datum × Datum))
  | tagged (tag : String) (value : Datum)
  deriving Inhabited

namespace Datum

def isNull : Datum → Bool
  | null => true
  | _ => false

mutual

/-- Whether two data are the same; the order of entries does not count. -/
def same : Datum → Datum → Bool
  | null, null => true
  | bool a, bool b => a == b
  | int a, int b => a == b
  | float a, float b => Binary64.same a b
  | text a, text b => a == b
  | list a, list b => sameItems a b
  | dict a, dict b => a.length == b.length && containsAll a b
  | tagged s a, tagged t b => s == t && same a b
  | _, _ => false

def sameItems : List Datum → List Datum → Bool
  | [], [] => true
  | a :: as, b :: bs => same a b && sameItems as bs
  | _, _ => false

/-- Whether each of the first entries is among the others. -/
def containsAll : List (Datum × Datum) → List (Datum × Datum) → Bool
  | [], _ => true
  | (key, value) :: rest, entries =>
    (entries.any fun (k, v) => same key k && same value v) && containsAll rest entries

end

/-- The value under any tags. -/
def untagged : Datum → Datum
  | tagged _ value => value.untagged
  | value => value

end Datum

end ControlPlane
