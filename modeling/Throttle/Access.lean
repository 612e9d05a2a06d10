import Std.Data.ExtTreeSet
import Throttle.Text.Lines

/-!
# Access

A registry is a set of texts. Adding to it and removing from it say whether they
changed it. The gate in front of the limiter looks into one for an authorization value,
such as the one that carries a user name and a password. In Base64 three bytes make
four characters of six bits each. A last group of one or two bytes is filled with zero
bits, and a padding character stands for each byte that is missing.
-/

namespace Throttle

abbrev Registry := Std.ExtTreeSet String

namespace Registry

def empty : Registry := ∅

def add (r : Registry) (value : String) : Bool × Registry :=
  (!r.contains value, Std.ExtTreeSet.insert r value)

def remove (r : Registry) (value : String) : Bool × Registry :=
  (r.contains value, Std.ExtTreeSet.erase r value)

theorem mem_add {r : Registry} {value other : String} :
    other ∈ (r.add value).2 ↔ value = other ∨ other ∈ r := by
  simp [add]

theorem mem_remove {r : Registry} {value other : String} :
    other ∈ (r.remove value).2 ↔ value ≠ other ∧ other ∈ r := by
  simp [remove]

end Registry

namespace Text.Base64

def alphabet : List Char :=
  "ABCDEFGHIJKLMNOPQRSTUVWXYZabcdefghijklmnopqrstuvwxyz0123456789+/".toList

def padding : Char := '='

def digit (n : Nat) : Char := alphabet.getD (n % 64) padding

def encode : List UInt8 → List Char
  | [] => []
  | [a] =>
    let n := a.toNat * 16
    [digit (n / 64), digit n, padding, padding]
  | [a, b] =>
    let n := (a.toNat * 256 + b.toNat) * 4
    [digit (n / 4096), digit (n / 64), digit n, padding]
  | a :: b :: c :: rest =>
    let n := (a.toNat * 256 + b.toNat) * 256 + c.toNat
    digit (n / 262144) :: digit (n / 4096) :: digit (n / 64) :: digit n :: encode rest

theorem length_alphabet : alphabet.length = 64 := by decide

theorem encode_nil : encode [] = [] := rfl

end Text.Base64

structure Credentials where
  username : String
  password : String
  deriving DecidableEq, Repr

/-- The value of the basic scheme. A user name with a colon in it is not told apart
from a longer password. -/
def Credentials.basic (c : Credentials) : String :=
  "Basic " ++ String.ofList (Text.Base64.encode (Text.encode (c.username ++ ":" ++ c.password)))

inductive Gate
  | accepted
  | missing
  | invalid
  deriving DecidableEq, Repr

namespace Gate

def isAccepted (g : Gate) : Bool := g = accepted

def status : Gate → Nat
  | accepted => 200
  | missing => 401
  | invalid => 403

def message? : Gate → Option String
  | accepted => none
  | missing => some "Authorization is required for this resource."
  | invalid => some "The supplied authorization is not approved."

end Gate

end Throttle
