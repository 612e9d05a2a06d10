import Throttle.Config.Settings
import Throttle.Number.Int64
import Throttle.Yaml.Document

/-!
# Settings in a document

Settings are read strictly from a single document. Sections and fields may be left
out, unknown ones are passed over, and a known one may be given once. Numbers and
truth values are plain scalars in a spelling of their own; any scalar will do for a
text.
-/

namespace Throttle.Config

open Yaml (Node Style Document)

def hasLeadingZero (s : List Char) : Bool :=
  let digits := match s with
    | '-' :: rest | '+' :: rest => rest
    | _ => s
  1 < digits.length && digits.head? == some '0' && digits.all Char.isDigit

def basedNumber? : List Char → Option Nat
  | '0' :: 'x' :: digits => natOf? 16 digits
  | '0' :: 'o' :: digits => natOf? 8 digits
  | '0' :: 'b' :: digits => natOf? 2 digits
  | _ => none

/-- The integer that a plain scalar spells: decimal without a leading zero, or with a
base indicator after the sign. -/
def plainInt? (text : String) : Option Int :=
  let s := text.toList
  let based := match s with
    | '-' :: rest => (basedNumber? rest).map fun n => -(n : Int)
    | '+' :: rest => (basedNumber? rest).map Int.ofNat
    | _ => (basedNumber? s).map Int.ofNat
  match based with
  | some n => int64? n
  | none => if hasLeadingZero s then none else int64Of? 10 s

def plainBool? : String → Option Bool
  | "true" | "True" | "TRUE" => some true
  | "false" | "False" | "FALSE" => some false
  | _ => none

def isNull (text : String) : Bool := text ∈ ["", "~", "null", "Null", "NULL"]

def valueText? (d : Document) (type : String) (n : Node) : Option String :=
  match d.follow n with
  | some (.scalar tag style text) =>
    if style == .plain || (style == .literal && tag.any (·.text == Yaml.Tag.core ++ type)) then
      some text
    else none
  | _ => none

def intOf? (d : Document) (n : Node) : Option Int := (valueText? d "int" n).bind plainInt?

def boolOf? (d : Document) (n : Node) : Option Bool := (valueText? d "bool" n).bind plainBool?

def textOf? (d : Document) (n : Node) : Option String :=
  match d.follow n with
  | some (.scalar _ _ text) => some text
  | _ => none

def formatOf? (d : Document) (n : Node) : Option LogFormat :=
  match d.follow n with
  | some (.scalar tag style text) =>
    match tag.map (·.text.toList) with
    | some ('!' :: name) =>
      if style == .plain && isNull text then LogFormat.ofName? (String.ofList name) else none
    | _ => LogFormat.ofName? text
  | _ => none

def fieldsOf (d : Document) (n : Node) : Except Error (List (String × Node)) :=
  match d.follow n with
  | some (.mapping _ entries) =>
    entries.mapM fun (key, value) =>
      match textOf? d key with
      | some name => .ok (name, value)
      | none => .error .noTable
  | some (.scalar _ .plain "") => .ok []
  | _ => .error .noTable

def checkOnce (known : List String) (fields : List (String × Node)) : Except Error Unit :=
  match known.find? fun name => 1 < fields.countP (·.1 == name) with
  | some name => .error (.duplicateField name)
  | none => .ok ()

def field {α : Type} (fields : List (String × Node)) (read : Node → Option α) (name : String)
    (default : α) : Except Error α :=
  match fields.lookup name with
  | none => .ok default
  | some n => match read n with
    | some a => .ok a
    | none => .error (.badValue name)

def limitsOf (d : Document) (n : Node) : Except Error Limits := do
  let fields ← fieldsOf d n
  checkOnce limitNames fields
  let default : Limits := {}
  return {
    requestLimit := ← field fields (intOf? d) "request_limit" default.requestLimit
    windowSeconds := ← field fields (intOf? d) "window_seconds" default.windowSeconds
    keepsHostile := ← field fields (boolOf? d) "store_hostile_ips" default.keepsHostile
    byIp := ← field fields (boolOf? d) "limit_by_ip" default.byIp
    byUser := ← field fields (boolOf? d) "limit_by_user" default.byUser
    byEndpoint := ← field fields (boolOf? d) "limit_by_endpoint" default.byEndpoint
    approvedOnly := ← field fields (boolOf? d) "approved_users_only" default.approvedOnly }

def loggingOf (d : Document) (n : Node) : Except Error Logging := do
  let fields ← fieldsOf d n
  checkOnce ["level", "format"] fields
  let default : Logging := {}
  return {
    level := ← field fields (textOf? d) "level" default.level
    format := ← field fields (formatOf? d) "format" default.format }

def settingsOf (d : Document) : Except Error Settings := do
  let fields ← fieldsOf d d.root
  checkOnce ["limits", "logging"] fields
  let limits ← match fields.lookup "limits" with
    | some n => limitsOf d n
    | none => pure {}
  let logging ← match fields.lookup "logging" with
    | some n => loggingOf d n
    | none => pure {}
  return { limits := limits, logging := logging }

def Settings.parse (text : String) : Except Error Settings := do
  match ← ofYaml (Document.parse .v11 text) with
  | none => return {}
  | some d => settingsOf d

end Throttle.Config
