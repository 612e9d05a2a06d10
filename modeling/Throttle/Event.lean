import Throttle.Identity
import Throttle.Replay.Request
import Throttle.Time.Calendar

/-!
# Events

What becomes of an attempt, and everything else that an operation reports while it
works, by cause. Each event has a level, a message and named fields, all as text.
-/

namespace Throttle

inductive Reason
  | zeroLimit
  | full
  | crowded
  deriving DecidableEq

def Reason.text : Reason → String
  | zeroLimit => "no quota"
  | full => "window full"
  | crowded => "no unique timestamp slot"

inductive Admission
  | recorded (stamp : Instant)
  | refused (reason : Reason)
  deriving DecidableEq

namespace Admission

def stamp? : Admission → Option Instant
  | recorded t => some t
  | refused _ => none

def isRecorded (a : Admission) : Bool := a.stamp?.isSome

end Admission

inductive Level
  | error
  | warn
  | info
  | debug
  deriving DecidableEq, Repr

def Level.name : Level → String
  | error => "ERROR"
  | warn => "WARN"
  | info => "INFO"
  | debug => "DEBUG"

inductive Event
  | limitIsZero
  | noScope
  | limiterCreated (policy : Policy)
  | crowded (key : String)
  | attempt (identity : Identity) (admission : Admission)
  | purged (count : Nat)
  | approvalStored
  | approvalForgotten
  | hostileMarked (ip : String)
  | hostileUnmarked (ip : String)
  | hostileDropped (client : String)
  | lineSkipped (line : Nat) (error : RequestError)
  | replayComplete (requests limited : Nat)
  deriving DecidableEq

namespace Event

def level : Event → Level
  | limitIsZero | noScope | crowded _ | lineSkipped _ _ => .warn
  | approvalStored | approvalForgotten | hostileMarked _ | hostileUnmarked _
  | replayComplete _ _ => .info
  | limiterCreated _ | attempt _ _ | purged _ | hostileDropped _ => .debug

def message : Event → String
  | limitIsZero => "request_limit is 0, every attempt will be rejected"
  | noScope => "No rate limiting scope enabled, no request will be limited"
  | limiterCreated _ => "Creating rate limiter"
  | crowded _ => "No unique timestamp slot for attempt"
  | attempt _ _ => "Attempt evaluated"
  | purged _ => "Purged idle identities"
  | approvalStored => "Approved user authorization stored"
  | approvalForgotten => "Approved user authorization forgotten"
  | hostileMarked _ => "Recorded hostile IP"
  | hostileUnmarked _ => "Forgot hostile IP"
  | hostileDropped _ => "Dropping request from hostile IP"
  | lineSkipped _ _ => "Skipping malformed request line"
  | replayComplete _ _ => "Replay complete"

def fields : Event → List (String × String)
  | limiterCreated p => [
    ("request_limit", toString p.requestLimit), ("window_seconds", toString p.windowSeconds),
    ("by_ip", toString p.byIp), ("by_user", toString p.byUser),
    ("by_endpoint", toString p.byEndpoint)]
  | crowded key => [("key", key)]
  | attempt identity admission => [
    ("kind", identity.kind.name), ("key", identity.key), ("endpoint", identity.path?.getD "")] ++
    match admission with
    | .recorded stamp => [("outcome", "stored"), ("stored_on", stamp.calendarText)]
    | .refused reason => [("outcome", "rejected"), ("reason", reason.text)]
  | purged count => [("purged", toString count)]
  | hostileMarked ip | hostileUnmarked ip => [("ip", ip)]
  | hostileDropped client => [("client_ip", client)]
  | lineSkipped line error => [("line", toString line), ("error", error.message)]
  | replayComplete requests limited => [
    ("requests", toString requests), ("limited", toString limited)]
  | limitIsZero | noScope | approvalStored | approvalForgotten => []

end Event

def Policy.warnings (p : Policy) : List Event :=
  (if p.requestLimit = 0 then [.limitIsZero] else []) ++ (if p.isScoped then [] else [.noScope])

end Throttle
