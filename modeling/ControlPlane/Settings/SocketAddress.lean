import ControlPlane.Settings.Basic
import ControlPlane.Text.Integer

/-!
# Socket addresses

An IP address and a port in text: four octets in decimal, or eight groups in hexadecimal between
brackets, of which one run of zeros may be left out and the last two may be written as octets. There
are no host names. The addresses in the settings are read only when they are needed, and each has
its own wording for one that cannot be read.
-/

namespace ControlPlane

inductive SocketAddress where
  | v4 (octets : List Nat) (port : Nat)
  | v6 (groups : List Nat) (scope port : Nat)
  deriving DecidableEq, Repr

namespace SocketAddress

open Text.Integer (digit?)

abbrev Reader (α : Type) := List Char → Option (α × List Char)

def hexDigit? (c : Char) : Option Nat :=
  match digit? c with
  | some d => some d
  | none =>
    let n := c.toNat
    if 97 ≤ n ∧ n ≤ 102 then some (n - 87)
    else if 65 ≤ n ∧ n ≤ 70 then some (n - 55)
    else none

/-- A number below a bound from all the digits in front. -/
def number (digit : Char → Option Nat) (base bound : Nat) : Reader Nat := fun text =>
  let digits := text.takeWhile fun c => (digit c).isSome
  let value := digits.foldl (fun n c => base * n + (digit c).getD 0) 0
  if digits.isEmpty || bound ≤ value then none else some (value, text.drop digits.length)

def mark (c : Char) : Reader Unit
  | x :: rest => if x = c then some ((), rest) else none
  | [] => none

/-- An octet has no needless zeros in front. -/
def octet : Reader Nat := fun text => do
  let (value, rest) ← number digit? 10 256 text
  let width := text.length - rest.length
  if 3 < width ∨ (text.head? = some '0' ∧ 1 < width) then none
  return (value, rest)

def octets : Reader (List Nat) := fun text => do
  let (a, text) ← octet text
  let ((), text) ← mark '.' text
  let (b, text) ← octet text
  let ((), text) ← mark '.' text
  let (c, text) ← octet text
  let ((), text) ← mark '.' text
  let (d, text) ← octet text
  return ([a, b, c, d], text)

def group : Reader Nat := fun text => do
  let (value, rest) ← number hexDigit? 16 (Nat.pow 2 16) text
  if 4 < text.length - rest.length then none
  return (value, rest)

/-- A colon in front of all but the first group. -/
def separated {α : Type} (isFirst : Bool) (reader : Reader α) : Reader α := fun text =>
  if isFirst then reader text
  else do
    let ((), text) ← mark ':' text
    reader text

/-- At most so many groups, and whether the last two were written as octets. -/
def groups : (left : Nat) → (isFirst : Bool) → List Char → List Nat × Bool × List Char
  | 0, _, text => ([], false, text)
  | left + 1, isFirst, text =>
    match (if left = 0 then none else separated isFirst octets text) with
    | some ([a, b, c, d], rest) => ([256 * a + b, 256 * c + d], true, rest)
    | _ =>
      match separated isFirst group text with
      | none => ([], false, text)
      | some (g, rest) =>
        let (more, withOctets, rest) := groups left false rest
        (g :: more, withOctets, rest)

/-- Eight groups; two colons in a row stand for the zeros that are left out. -/
def address6 : Reader (List Nat) := fun text => do
  let (head, withOctets, text) := groups 8 true text
  if head.length = 8 then return (head, text)
  if withOctets then none
  let ((), text) ← mark ':' text
  let ((), text) ← mark ':' text
  let (tail, _, text) := groups (7 - head.length) true text
  return (head ++ List.replicate (8 - head.length - tail.length) 0 ++ tail, text)

def port : Reader Nat := fun text => do
  let ((), text) ← mark ':' text
  number digit? 10 (Nat.pow 2 16) text

/-- A scope after a percent sign, if there is one. -/
def scope : List Char → Nat × List Char := fun text =>
  ((do
    let ((), rest) ← mark '%' text
    number digit? 10 (Nat.pow 2 32) rest).getD (0, text))

def socket4 : Reader SocketAddress := fun text => do
  let (address, text) ← octets text
  let (port, text) ← port text
  return (v4 address port, text)

def socket6 : Reader SocketAddress := fun text => do
  let ((), text) ← mark '[' text
  let (address, text) ← address6 text
  let (scope, text) := scope text
  let ((), text) ← mark ']' text
  let (port, text) ← port text
  return (v6 address scope port, text)

def parse? (text : String) : Option SocketAddress :=
  match (socket4 text.toList).or (socket6 text.toList) with
  | some (address, []) => some address
  | _ => none

/-- What is said of a text that is no socket address. -/
def invalidText : String := "invalid socket address syntax"

end SocketAddress

namespace Settings

/-- Where metrics are served, if they are. -/
def metricsSocket (s : ObservabilitySettings) : Except PlaneError (Option SocketAddress) :=
  match s.metricsAddress with
  | none => .ok none
  | some text =>
    match SocketAddress.parse? text with
    | some address => .ok (some address)
    | none =>
      .error (.config ("Invalid metrics bind address '" ++ text ++ "': "
        ++ SocketAddress.invalidText))

/-- Where discovery is served. -/
def servingSocket (s : ServingSettings) : Except PlaneError SocketAddress :=
  match SocketAddress.parse? s.address with
  | some address => .ok address
  | none => .error (.config ("Invalid xDS address: " ++ SocketAddress.invalidText))

end Settings

end ControlPlane
