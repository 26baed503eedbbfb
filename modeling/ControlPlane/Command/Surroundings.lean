import ControlPlane.Bytes
import ControlPlane.Settings.Environment
import ControlPlane.Time.Civil

/-!
# Surroundings

What a command finds around it: variables, standard input, files and a clock. The commands are
written for any monad, so that they run against files on a disk as well as against files in a
value.
-/

namespace ControlPlane.Command

open Time (Timestamp)

/-- Why a file cannot be read or written. -/
inductive FileFault where
  | missing
  | isDirectory
  | notDirectory
  | other (message : String)
  deriving DecidableEq, Repr

def FileFault.message : FileFault → String
  | missing => "No such file or directory (os error 2)"
  | isDirectory => "Is a directory (os error 21)"
  | notDirectory => "Not a directory (os error 20)"
  | other message => message

structure Surroundings (m : Type → Type) where
  environment : Settings.Environment
  /-- The file that names this host, where there is one. -/
  hostFile : m (Option String)
  input : m Bytes
  read : String → m (Except FileFault Bytes)
  write : String → Bytes → m (Except FileFault Unit)
  now : m Timestamp

end ControlPlane.Command
