import Throttle.Limiter

/-!
# Rulings

What is decided about a request line, by its cause, and the status and the message
that answer it.
-/

namespace Throttle

inductive Ruling
  | malformed (error : RequestError)
  | dropped
  | refused (gate : Gate)
  | unlimited
  | serviced
  | limited (refusal : Refusal)
  deriving DecidableEq

namespace Ruling

def status : Ruling → Nat
  | malformed _ => 400
  | dropped => 444
  | refused gate => gate.status
  | unlimited | serviced => 200
  | limited _ => 429

def message : Ruling → String
  | malformed error => error.message
  | dropped => "Hostile IP, connection dropped"
  | refused gate => gate.message?.getD ""
  | unlimited => "Serviced, not rate limited"
  | serviced => "Serviced"
  | limited refusal => refusal.message

def retryAfter : Ruling → Option Nat
  | limited refusal => refusal.retryAfter
  | _ => none

def isLimited (r : Ruling) : Bool := r.status = 429

end Ruling

/-- The decision about line `line`, counted from one. A malformed line has neither
address nor endpoint. -/
structure Decision where
  line : Nat
  client : String
  path : String
  ruling : Ruling
  deriving DecidableEq

end Throttle
