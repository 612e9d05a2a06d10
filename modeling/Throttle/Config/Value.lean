import Throttle.Config.Settings
import Throttle.Number.Binary64
import Throttle.Yaml.Document

/-!
# Configuration values

The values that sources of a configuration give, and the values in a YAML document of
the second version. A table has at most one entry for each key.
-/

namespace Throttle.Config

inductive Value
  | nil
  | bool (b : Bool)
  | int (n : Int)
  | float (x : Binary64)
  | text (s : String)
  | list (items : List Value)
  | table (entries : List (String × Value))

abbrev Table := List (String × Value)

namespace Table

def get? (t : Table) (key : String) : Option Value := t.lookup key

def put (t : Table) (key : String) (v : Value) : Table :=
  match t with
  | [] => [(key, v)]
  | (k, w) :: rest => if k = key then (k, v) :: rest else (k, w) :: put rest key v

theorem keys_put (t : Table) (key : String) (v : Value) :
    (t.put key v).map Prod.fst =
      if key ∈ t.map Prod.fst then t.map Prod.fst else t.map Prod.fst ++ [key] := by
  induction t with
  | nil => simp [put]
  | cons e rest ih =>
    obtain ⟨k, w⟩ := e
    by_cases h : k = key
    · simp [put, h]
    · simp only [put, h, ↓reduceIte, List.map_cons, ih, List.mem_cons, Ne.symm h, false_or]
      split <;> simp

theorem nodup_keys_put {t : Table} (h : (t.map Prod.fst).Nodup) (key : String) (v : Value) :
    ((t.put key v).map Prod.fst).Nodup := by
  rw [keys_put]
  split
  · exact h
  · rename_i hk
    rw [List.nodup_append]
    exact ⟨h, by simp, by intro a ha b hb e; simp_all⟩

theorem get?_put_self (t : Table) (key : String) (v : Value) : (t.put key v).get? key = some v := by
  induction t with
  | nil => simp [put, get?]
  | cons e rest ih =>
    obtain ⟨k, w⟩ := e
    by_cases h : k = key
    · simp [put, get?, h]
    · have h' : (key == k) = false := by simp [Ne.symm h]
      simp only [put, h, ↓reduceIte, get?, List.lookup_cons, h'] at ih ⊢
      exact ih

theorem get?_put_of_ne (t : Table) {key other : String} (h : other ≠ key) (v : Value) :
    (t.put key v).get? other = t.get? other := by
  induction t with
  | nil =>
    have h' : (other == key) = false := by simp [h]
    simp [put, get?, List.lookup_cons, h']
  | cons e rest ih =>
    obtain ⟨k, w⟩ := e
    by_cases hk : k = key
    · subst hk
      have h' : (other == k) = false := by simp [h]
      simp [put, get?, List.lookup_cons, h']
    · simp only [put, hk, ↓reduceIte, get?, List.lookup_cons] at ih ⊢
      rw [ih]

end Table

namespace Value

def asTable : Value → Table
  | .table entries => entries
  | _ => []

def asList : Value → List Value
  | .list items => items
  | _ => []

inductive Plain
  | nil
  | bool (b : Bool)
  | int (n : Int)
  | real (s : String)
  | text (s : String)
  deriving DecidableEq

def infinities : List String :=
  [".inf", ".Inf", ".INF", "+.inf", "+.Inf", "+.INF", "-.inf", "-.Inf", "-.INF"]

def isReal (s : String) : Bool :=
  s ∈ infinities || s ∈ [".nan", ".NaN", ".NAN"] ||
    (s.toList.any Char.isDigit && (Binary64.ofText? s.toList).isSome)

def prefixedInt? (s : List Char) : Option Int :=
  match s with
  | '0' :: 'x' :: digits => int64Of? 16 digits
  | '0' :: 'o' :: digits => int64Of? 8 digits
  | '+' :: digits => int64Of? 10 digits
  | _ => none

def Plain.ofText (s : String) : Plain :=
  match prefixedInt? s.toList with
  | some n => .int n
  | none =>
    if s ∈ ["", "~", "null"] then .nil
    else if s = "true" then .bool true
    else if s = "false" then .bool false
    else match int64Of? 10 s.toList with
      | some n => .int n
      | none => if isReal s then .real s else .text s

/-- What a plain scalar with a tag of the core schema means. A text that does not fit
its tag means nothing. -/
def Plain.ofTagged (type : String) (s : String) : Plain :=
  match type with
  | "bool" => if s = "true" then .bool true else if s = "false" then .bool false else .nil
  | "int" => match int64Of? 10 s.toList with
    | some n => .int n
    | none => .nil
  | "float" => if isReal s then .real s else .nil
  | "null" => .nil
  | _ => .text s

def Plain.ofScalar (tag : Option Yaml.Tag) (style : Yaml.Style) (s : String) : Plain :=
  if style ≠ .plain then .text s
  else match tag with
    | none => .ofText s
    | some tag => if tag.lead = Yaml.Tag.core then .ofTagged tag.suffix s else .text s

def ofPlain : Plain → Except Error Value
  | .nil => .ok .nil
  | .bool b => .ok (.bool b)
  | .int n => .ok (.int n)
  | .real s => match Binary64.ofText? s.toList with
    | some x => .ok (.float x)
    | none => .error (.badNumber s)
  | .text s => .ok (.text s)

open Yaml (Node)

def plainKey? : Node → Option Plain
  | .scalar tag style s => some (.ofScalar tag style s)
  | .reference _ (some (.scalar tag style s)) => some (.ofScalar tag style s)
  | _ => none

def hasDuplicate : List Plain → Bool
  | [] => false
  | p :: rest => rest.contains p || hasDuplicate rest

mutual

def keysDiffer : Node → Bool
  | .scalar _ _ _ => true
  | .sequence _ items => itemsDiffer items
  | .mapping _ entries => !hasDuplicate (entries.filterMap (plainKey? ·.1)) && entriesDiffer entries
  | .reference _ _ => true

def itemsDiffer : List Node → Bool
  | [] => true
  | item :: rest => keysDiffer item && itemsDiffer rest

def entriesDiffer : List (Node × Node) → Bool
  | [] => true
  | (key, value) :: rest => keysDiffer key && keysDiffer value && entriesDiffer rest

end

def keyText (n : Node) : Except Error String :=
  match plainKey? n with
  | some (.text s) => .ok s
  | some (.int n) => .ok (toString n)
  | _ => .error .badKey

mutual

/-- The value of a node. An alias for a node that it is a part of has no value. -/
def ofNode : Node → Except Error Value
  | .scalar tag style s => ofPlain (.ofScalar tag style s)
  | .sequence _ items => (ofItems items).map .list
  | .mapping _ entries => (ofEntries [] entries).map .table
  | .reference _ known => ofKnown known

def ofKnown : Option Node → Except Error Value
  | some n => ofNode n
  | none => .ok .nil

def ofItems : List Node → Except Error (List Value)
  | [] => .ok []
  | item :: rest => do
    let v ← ofNode item
    let vs ← ofItems rest
    return v :: vs

def ofEntries (t : Table) : List (Node × Node) → Except Error Table
  | [] => .ok t
  | (key, value) :: rest => do
    let name ← keyText key
    let v ← ofNode value
    ofEntries (Table.put t name v) rest

end

def parse (text : String) : Except Error Value := do
  match ← ofYaml (Yaml.Document.parse .v12 text) with
  | none => return .table []
  | some d => if keysDiffer d.root then ofNode d.root else throw (.notYaml .duplicateKey)

end Value
end Throttle.Config
