/-!
# Faults

What an operation on the object store may fail with, and the errors that the control plane reports.
A fault of the store becomes an error of the same sense; only some errors are worth a retry.
-/

namespace ControlPlane

/-- Why the object store refused an operation. The text names the object or gives the details. -/
inductive StoreError where
  | notFound (key : String)
  | alreadyExists (key : String)
  | conflict (key : String)
  | invalid (message : String)
  | unavailable (message : String)
  deriving DecidableEq, Repr

namespace StoreError

def message : StoreError → String
  | notFound key => key ++ " not found"
  | alreadyExists key => key ++ " already exists"
  | conflict key => "the object " ++ key
      ++ " has been modified; please apply your changes to the latest version and try again"
  | invalid message => "invalid object: " ++ message
  | unavailable message => "object store unavailable: " ++ message

def isNotFound : StoreError → Bool
  | notFound _ => true
  | _ => false

def isConflict : StoreError → Bool
  | conflict _ => true
  | _ => false

end StoreError

/-- An error of the control plane. -/
inductive PlaneError where
  | config (message : String)
  | transport (message : String)
  | inputOutput (message : String)
  | serialization (message : String)
  | validation (message : String)
  | notFound (message : String)
  | conflict (message : String)
  | unavailable (message : String)
  deriving DecidableEq, Repr

namespace PlaneError

def message : PlaneError → String
  | config m => "Configuration error: " ++ m
  | transport m => "Transport error: " ++ m
  | inputOutput m => "I/O error: " ++ m
  | serialization m => "Serialization error: " ++ m
  | validation m => "Validation error: " ++ m
  | notFound m => "Not found: " ++ m
  | conflict m => "Conflict: " ++ m
  | unavailable m => "Object store unavailable: " ++ m

/-- Whether the same operation may succeed later. -/
def isRetryable : PlaneError → Bool
  | conflict _ | unavailable _ | transport _ => true
  | _ => false

def ofStoreError : StoreError → PlaneError
  | .notFound key => notFound key
  | .conflict key => conflict key
  | .alreadyExists key => conflict (key ++ " already exists")
  | .invalid message => validation message
  | .unavailable message => unavailable message

end PlaneError

end ControlPlane
