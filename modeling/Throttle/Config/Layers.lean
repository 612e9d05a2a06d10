import Throttle.Config.Path
import Throttle.Config.Settings

/-!
# Layered settings

Settings come from a file and from the environment over it, and what neither gives is
left at its default. Loading leaves the reading of the file, the paths and the values to
libraries, which take the entries of a source in an order of their own. The standard ones
take values leniently: a number may be written as a text, a truth value as a number, and
so on.
-/

namespace Throttle.Config

inductive File
  | unnamed
  | missing
  | text (content : String)

def lower (s : String) : String := String.ofList (s.toList.map Char.toLower)

namespace Value

def toInt? : Value → Option Int
  | .int n => some n
  | .bool b => some (if b then 1 else 0)
  | .float x => some x.toInt64
  | .text s => match lower s with
    | "true" | "on" | "yes" => some 1
    | "false" | "off" | "no" => some 0
    | _ => int64Of? 10 s.toList
  | .nil | .list _ | .table _ => none

def toBool? : Value → Option Bool
  | .bool b => some b
  | .int n => some (n != 0)
  | .float x => some (!x.isZero)
  | .text s => match lower s with
    | "1" | "true" | "on" | "yes" => some true
    | "0" | "false" | "off" | "no" => some false
    | _ => none
  | .nil | .list _ | .table _ => none

def toText? : Value → Option String
  | .text s => some s
  | .bool b => some (toString b)
  | .int n => some (toString n)
  | .float x => some x.text
  | .nil | .list _ | .table _ => none

def toFormat? : Value → Option LogFormat
  | .text s => LogFormat.ofName? (lower s)
  | .table [(key, _)] => LogFormat.ofName? (lower key)
  | _ => none

/-- A field of a section. The items of a list are its fields in their order. -/
def field? (v : Value) (name : String) (index : Nat) : Option Value :=
  match v with
  | .table entries => Table.get? entries name
  | .list items => items[index]?
  | _ => none

def read {α : Type} (convert : Value → Option α) (part : Value) (name : String) (index : Nat)
    (default : α) : Except Error α :=
  match part.field? name index with
  | none => .ok default
  | some v => match convert v with
    | some a => .ok a
    | none => .error (.badValue name)

def isSection : Value → Bool
  | .table _ | .list _ => true
  | _ => false

def ofVariable (s : String) : Value :=
  match lower s with
  | "true" => .bool true
  | "false" => .bool false
  | _ => match int64Of? 10 s.toList with
    | some n => .int n
    | none => match Binary64.ofText? s.toList with
      | some x => .float x
      | none => .text s

end Value

def pointed : List Char → List Char
  | '_' :: '_' :: rest => '.' :: pointed rest
  | c :: rest => c :: pointed rest
  | [] => []

def variableStart : List Char := "turnstile__".toList

def variableKey? (name : String) : Option String :=
  let name := (lower name).toList
  if variableStart.isPrefixOf name then
    some (String.ofList (pointed (name.drop variableStart.length)))
  else none

def withoutMark (s : String) : String :=
  match s.toList with
  | '\ufeff' :: rest => String.ofList rest
  | _ => s

def textEntries (content : String) : Except Error Table := do
  match ← Value.parse (withoutMark content) with
  | .table entries => return entries
  | _ => throw .noTable

/-- What loading takes from libraries. A text gives entries, the name of a variable gives a key, and
a key is a path at which a value is set. -/
structure Library where
  textEntries : String → Except Error Table
  variableKey? : String → Option String
  ofVariable : String → Value
  path : String → Path
  setPath : Value → Path → Value → Except Error Value
  toInt? : Value → Option Int
  toBool? : Value → Option Bool
  toText? : Value → Option String
  toFormat? : Value → Option LogFormat

/-- An order in which the entries of a source are taken. -/
structure Order where
  arrange : Table → Table
  perm : ∀ t, (arrange t).Perm t

namespace Order

def asWritten : Order := ⟨id, List.Perm.refl⟩

def reversed : Order := ⟨List.reverse, List.reverse_perm⟩

end Order

namespace Library

def standard : Library where
  textEntries := Config.textEntries
  variableKey? := Config.variableKey?
  ofVariable := Value.ofVariable
  path := Path.parse
  setPath := Value.setPath
  toInt? := Value.toInt?
  toBool? := Value.toBool?
  toText? := Value.toText?
  toFormat? := Value.toFormat?

def fileEntries (lib : Library) : File → Except Error Table
  | .unnamed => .ok []
  | .missing => .error .noFile
  | .text content => lib.textEntries content

def variableEntries (lib : Library) (environment : List (String × String)) : Table :=
  environment.filterMap fun (name, text) =>
    (lib.variableKey? name).map fun key => (key, lib.ofVariable text)

def overlay (lib : Library) (below : Value) (layer : Table) : Except Error Value :=
  layer.foldlM (fun v (key, new) => lib.setPath new (lib.path key) v) below

def toLimits (lib : Library) (v : Value) : Except Error Limits := do
  if !v.isSection then throw .noTable
  let default : Limits := {}
  return {
    requestLimit := ← v.read lib.toInt? "request_limit" 0 default.requestLimit
    windowSeconds := ← v.read lib.toInt? "window_seconds" 1 default.windowSeconds
    keepsHostile := ← v.read lib.toBool? "store_hostile_ips" 2 default.keepsHostile
    byIp := ← v.read lib.toBool? "limit_by_ip" 3 default.byIp
    byUser := ← v.read lib.toBool? "limit_by_user" 4 default.byUser
    byEndpoint := ← v.read lib.toBool? "limit_by_endpoint" 5 default.byEndpoint
    approvedOnly := ← v.read lib.toBool? "approved_users_only" 6 default.approvedOnly }

def toLogging (lib : Library) (v : Value) : Except Error Logging := do
  if !v.isSection then throw .noTable
  let default : Logging := {}
  return {
    level := ← v.read lib.toText? "level" 0 default.level
    format := ← v.read lib.toFormat? "format" 1 default.format }

def toSettings (lib : Library) (v : Value) : Except Error Settings := do
  let limits ← match v.field? "limits" 0 with
    | some part => lib.toLimits part
    | none => pure {}
  let logging ← match v.field? "logging" 1 with
    | some part => lib.toLogging part
    | none => pure {}
  return { limits := limits, logging := logging }

def load (lib : Library) (order : Order) (file : File) (environment : List (String × String)) :
    Except Error Settings := do
  let entries ← lib.fileEntries file
  let below ← lib.overlay (.table []) (order.arrange entries)
  let all ← lib.overlay below (order.arrange (lib.variableEntries environment))
  lib.toSettings all

end Library

def Settings.load : File → List (String × String) → Except Error Settings :=
  Library.standard.load .asWritten

end Throttle.Config
