import Throttle.Time.Instant

/-!
# Policies

A policy says how many attempts a window holds and which scopes are counted. Its
window is given in whole seconds; `Policy.window` is the span they make, and
`Policy.Valid` says that the span is exact. Limits that cannot be used are told
apart by their cause.
-/

namespace Throttle

structure Policy where
  requestLimit : Nat := 100
  windowSeconds : Nat := 3600
  keepsHostile : Bool := false
  byIp : Bool := false
  byUser : Bool := true
  byEndpoint : Bool := true
  approvedOnly : Bool := false
  deriving DecidableEq, Repr

inductive LimitError
  | requestLimitOutOfRange (got : Int)
  | windowNegative (got : Int)
  | windowTooLong (got : Nat)
  deriving DecidableEq, Repr

namespace Policy

def greatestLimit : Nat := 4294967295

def longestWindow : Nat := 9223372036854775

def Valid (p : Policy) : Prop := p.windowSeconds ≤ longestWindow

instance (p : Policy) : Decidable p.Valid := inferInstanceAs (Decidable (_ ≤ _))

def check (p : Policy) : Except LimitError Unit :=
  if p.windowSeconds > longestWindow then .error (.windowTooLong p.windowSeconds) else .ok ()

theorem check_eq_ok_iff {p : Policy} : p.check = .ok () ↔ p.Valid := by
  unfold check Valid
  split <;> simp <;> omega

def window (p : Policy) : Span := (Span.ofSeconds? p.windowSeconds).getD .longest

def isScoped (p : Policy) : Bool := p.byIp || p.byUser || p.byEndpoint

end Policy

namespace LimitError

def field : LimitError → String
  | requestLimitOutOfRange _ => "request_limit"
  | windowNegative _ | windowTooLong _ => "window_seconds"

def reason : LimitError → String
  | requestLimitOutOfRange got =>
    "must be between 0 and " ++ toString Policy.greatestLimit ++ ", got " ++ toString got
  | windowNegative got => "must not be negative, got " ++ toString got
  | windowTooLong got =>
    "must be at most " ++ toString Policy.longestWindow ++ ", got " ++ toString got

def message (e : LimitError) : String :=
  "Invalid configuration: " ++ e.field ++ " " ++ e.reason

end LimitError
end Throttle
