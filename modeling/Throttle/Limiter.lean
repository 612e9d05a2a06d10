import Throttle.Access
import Throttle.Ledger

/-!
# Limiters

A limiter applies a valid policy to a ledger. It picks the identity of a request,
records its attempts, advises a refused client when to come back, and keeps the
registries behind the gate and the list of hostile addresses.
-/

namespace Throttle

/-- A refused attempt. There is no time to come back when the limit is zero. -/
structure Refusal where
  kind : IdentityKind
  key : String
  path? : Option String
  reason : Reason
  retryAfter : Option Nat
  deriving DecidableEq

def Refusal.message (r : Refusal) : String :=
  "Too many requests for " ++ r.kind.name ++
    (match r.path? with
      | some path => " at endpoint " ++ path
      | none => "") ++
    match r.retryAfter with
    | some 1 => ". Try again in 1 second."
    | some seconds => ". Try again in " ++ toString seconds ++ " seconds."
    | none => "."

structure Limiter where
  policy : Policy
  valid : policy.Valid
  ledger : Ledger

namespace Limiter

def create (p : Policy) : Except LimitError (Limiter × List Event) :=
  if valid : p.Valid then .ok (⟨p, valid, .empty⟩, p.warnings ++ [.limiterCreated p])
  else .error (.windowTooLong p.windowSeconds)

def withLedger (l : Limiter) (s : Ledger) : Limiter := { l with ledger := s }

def limit (l : Limiter) : Nat := l.policy.requestLimit
def window (l : Limiter) : Span := l.policy.window

def identity? (l : Limiter) (client authorization path : String) : Option Identity :=
  l.policy.identity? client authorization path

def retryAfter (l : Limiter) (c : Clock) (identity : Identity) : Outcome Limiter Nat :=
  ((l.ledger.forecast c identity l.limit l.window).lift l.withLedger).andThen c fun c next l =>
    { result := .ok (next.since c.now).wholeSeconds, state := l, samples := 1 }

def refuse (identity : Identity) (reason : Reason) (retryAfter : Option Nat) : Refusal :=
  ⟨identity.kind, identity.key, identity.path?, reason, retryAfter⟩

def attempt (l : Limiter) (c : Clock) (identity : Identity) : Outcome Limiter (Option Refusal) :=
  ((l.ledger.record c identity l.limit l.window).lift l.withLedger).andThen c fun c admission l =>
    match admission with
    | .recorded _ => { result := .ok none, state := l }
    | .refused .zeroLimit => { result := .ok (some (refuse identity .zeroLimit none)), state := l }
    | .refused reason =>
      (l.retryAfter c identity).map fun seconds => some (refuse identity reason (some (max seconds 1)))

def purge (l : Limiter) (c : Clock) : Outcome Limiter Nat :=
  (l.ledger.purge c l.window).lift l.withLedger

def clear (l : Limiter) : Limiter := l.withLedger l.ledger.clear

def approve (l : Limiter) (token : String) : Outcome Limiter Unit :=
  let r := l.ledger.addApproved token
  { result := .ok (), state := l.withLedger r.2, events := if r.1 then [.approvalStored] else [] }

def disapprove (l : Limiter) (token : String) : Outcome Limiter Unit :=
  let r := l.ledger.removeApproved token
  { result := .ok (), state := l.withLedger r.2, events := if r.1 then [.approvalForgotten] else [] }

def approveBasic (l : Limiter) (credentials : Credentials) : Outcome Limiter Unit :=
  l.approve credentials.basic

def disapproveBasic (l : Limiter) (credentials : Credentials) : Outcome Limiter Unit :=
  l.disapprove credentials.basic

/-- Any token will do that is not empty, unless only approved ones are let in. -/
def isValidToken (l : Limiter) (token : String) : Bool :=
  if l.policy.approvedOnly then l.ledger.approved.contains token else token != ""

def gate (l : Limiter) (token : String) : Gate :=
  if l.policy.approvedOnly then
    if token = "" then .missing
    else if l.ledger.approved.contains token then .accepted
    else .invalid
  else .accepted

def isHostile (l : Limiter) (ip : String) : Bool :=
  l.policy.keepsHostile && l.ledger.hostile.contains ip

def markHostile (l : Limiter) (ip : String) : Outcome Limiter Bool :=
  if l.policy.keepsHostile then
    let r := l.ledger.markHostile ip
    { result := .ok r.1, state := l.withLedger r.2,
      events := if r.1 then [.hostileMarked ip] else [] }
  else { result := .ok false, state := l }

def unmarkHostile (l : Limiter) (ip : String) : Outcome Limiter Bool :=
  if l.policy.keepsHostile then
    let r := l.ledger.unmarkHostile ip
    { result := .ok r.1, state := l.withLedger r.2,
      events := if r.1 then [.hostileUnmarked ip] else [] }
  else { result := .ok false, state := l }

@[simp] theorem policy_withLedger (l : Limiter) (s : Ledger) : (l.withLedger s).policy = l.policy := rfl
@[simp] theorem ledger_withLedger (l : Limiter) (s : Ledger) : (l.withLedger s).ledger = s := rfl
@[simp] theorem withLedger_ledger (l : Limiter) : l.withLedger l.ledger = l := rfl

end Limiter
end Throttle
