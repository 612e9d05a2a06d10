import Throttle.Policy
import Throttle.Yaml.Version

/-!
# Settings

What a configuration says, before anything is made of it, and why none could be read. The two
numbers are signed, so that a negative one is reported as such and not lost while reading;
`Limits.policy` accepts exactly those that a limiter can use.
-/

namespace Throttle

namespace Config

inductive Error
  | noFile
  | notText
  | notYaml (problem : Yaml.Problem)
  | noTable
  | duplicateField (name : String)
  | badValue (field : String)
  | badNumber (text : String)
  | badKey
  deriving DecidableEq, Repr

def ofYaml {α : Type} : Except Yaml.Problem α → Except Error α :=
  Except.mapError .notYaml

structure Limits where
  requestLimit : Int := 100
  windowSeconds : Int := 3600
  keepsHostile : Bool := false
  byIp : Bool := false
  byUser : Bool := true
  byEndpoint : Bool := true
  approvedOnly : Bool := false
  deriving DecidableEq, Repr

def limitNames : List String :=
  ["request_limit", "window_seconds", "store_hostile_ips", "limit_by_ip", "limit_by_user",
    "limit_by_endpoint", "approved_users_only"]

inductive LogFormat
  | text
  | json
  deriving DecidableEq, Repr

def LogFormat.name : LogFormat → String
  | text => "text"
  | json => "json"

def LogFormat.ofName? : String → Option LogFormat
  | "text" => some text
  | "json" => some json
  | _ => none

theorem LogFormat.ofName?_name (f : LogFormat) : ofName? f.name = some f := by
  cases f <;> rfl

structure Logging where
  level : String := "info"
  format : LogFormat := .text
  deriving DecidableEq, Repr

structure Settings where
  limits : Limits := {}
  logging : Logging := {}
  deriving DecidableEq, Repr

def Limits.policy (l : Limits) : Except LimitError Policy :=
  if l.requestLimit < 0 ∨ Policy.greatestLimit < l.requestLimit then
    .error (.requestLimitOutOfRange l.requestLimit)
  else if l.windowSeconds < 0 then .error (.windowNegative l.windowSeconds)
  else
    let p : Policy := {
      requestLimit := l.requestLimit.toNat
      windowSeconds := l.windowSeconds.toNat
      keepsHostile := l.keepsHostile
      byIp := l.byIp
      byUser := l.byUser
      byEndpoint := l.byEndpoint
      approvedOnly := l.approvedOnly }
    p.check.map fun _ => p

def Settings.policy (s : Settings) : Except LimitError Policy := s.limits.policy

theorem policy_default : ({} : Settings).policy = .ok {} := rfl

end Config
end Throttle
