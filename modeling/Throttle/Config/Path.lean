import Throttle.Config.Value

/-!
# Paths

A path leads from a table to a value inside it, through keys and through indices of
lists. Setting a value makes the tables and lists on the way, and merges a table into
the one that is there.
-/

namespace Throttle.Config

inductive PathStep
  | child (key : String)
  | item (index : Int)
  deriving DecidableEq, Repr

abbrev Path := List PathStep

namespace Path

def isName (c : Char) : Bool := c.isAlphanum || c == ' ' || c == '_' || c == '-'

def index? (s : List Char) : Option Int :=
  let s := s.dropWhile Yaml.isBlank
  match (s.reverse.dropWhile Yaml.isBlank).reverse with
  | '+' :: _ => none
  | digits => int64Of? 10 digits

def stepsFrom : Nat → List Char → Option Path
  | 0, s => if s = [] then some [] else none
  | n + 1, s =>
    match s with
    | [] => some []
    | '.' :: rest =>
      match rest.takeWhile isName with
      | [] => none
      | name => (stepsFrom n (rest.drop name.length)).map (.child (String.ofList name) :: ·)
    | '[' :: rest =>
      let digits := rest.takeWhile (· != ']')
      match index? digits, rest.drop digits.length with
      | some i, ']' :: rest => (stepsFrom n rest).map (.item i :: ·)
      | _, _ => none
    | _ => none

/-- A name, then names after points and indices in brackets. A key that is written in
another way stands for itself. -/
def parse (key : String) : Path :=
  let s := key.toList
  match s.takeWhile isName with
  | [] => [.child key]
  | name => match stepsFrom s.length (s.drop name.length) with
    | some steps => .child (String.ofList name) :: steps
    | none => [.child key]

end Path

namespace Value

mutual

def setKey (t : Table) (key : String) : Value → Table
  | .table entries => t.put key (setKeys ((t.get? key).getD (.table [])) entries)
  | v => t.put key v

def setKeys (target : Value) : List (String × Value) → Value
  | [] => target
  | (key, v) :: rest => setKeys (.table (setKey target.asTable key v)) rest

end

def setItem (items : List Value) (i : Nat) (v : Value) : List Value :=
  (items ++ List.replicate (i + 1 - items.length) Value.nil).set i v

def longestList : Nat := Nat.pow 2 26

def position? (items : List Value) (i : Int) : Option Nat :=
  if 0 ≤ i then if i < longestList then some i.toNat else none
  else if i.natAbs ≤ items.length then some (items.length - i.natAbs)
  else none

def setPath (new : Value) : Path → Value → Except Error Value
  | [], _ => .ok new
  | [.child key], here => .ok (.table (setKey here.asTable key new))
  | .child key :: rest, here => do
    let below ← setPath new rest ((here.asTable.get? key).getD .nil)
    return .table (here.asTable.put key below)
  | .item i :: rest, here =>
    match position? here.asList i with
    | none => .error .badKey
    | some i => do
      let below ← setPath new rest (here.asList.getD i Value.nil)
      return .list (setItem here.asList i below)

theorem setPath_child (new : Value) (key : String) (here : Value) :
    setPath new [.child key] here = .ok (.table (setKey here.asTable key new)) := rfl

end Value
end Throttle.Config
