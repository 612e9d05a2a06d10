import Throttle.Access
import Throttle.Attempt.Log

/-!
# Ledgers

A ledger holds one attempt log for each kind of identity and the two registries, of
hostile addresses and of approved authorizations. Attempts and registries never
touch each other.
-/

namespace Throttle

structure Ledger where
  ips : AttemptLog
  users : AttemptLog
  endpoints : AttemptLog
  hostile : Registry
  approved : Registry

namespace Ledger

def empty : Ledger := ⟨.empty, .empty, .empty, .empty, .empty⟩

def log (s : Ledger) : IdentityKind → AttemptLog
  | .ip => s.ips
  | .user => s.users
  | .endpoint => s.endpoints

def setLog (s : Ledger) (kind : IdentityKind) (log : AttemptLog) : Ledger :=
  match kind with
  | .ip => { s with ips := log }
  | .user => { s with users := log }
  | .endpoint => { s with endpoints := log }

def attempts (s : Ledger) (identity : Identity) : Queue :=
  (s.log identity.kind).attempts identity.logKey

def count (s : Ledger) (identity : Identity) : Nat := (s.attempts identity).length

def tracked (s : Ledger) : Nat := s.ips.size + s.users.size + s.endpoints.size

/-- An endpoint that is new to the log starts its queue at once; every other attempt
is offered to the log. -/
def recordIn (log : AttemptLog) (c : Clock) (identity : Identity) (limit : Nat) (window : Span) :
    Outcome AttemptLog Admission :=
  let key := identity.logKey
  if identity.isEndpoint && !log.contains key then
    if limit = 0 then { result := .ok (.refused .zeroLimit), state := log }
    else
      let created := log.create c key
      created.andThen c fun c stamp? log =>
        match stamp? with
        | some stamp => { result := .ok (.recorded stamp), state := log }
        | none => log.offer c key limit window
  else log.offer c key limit window

def record (s : Ledger) (c : Clock) (identity : Identity) (limit : Nat) (window : Span) :
    Outcome Ledger Admission :=
  ((recordIn (s.log identity.kind) c identity limit window).lift (s.setLog identity.kind)).report
    fun admission => [.attempt identity admission]

def forecast (s : Ledger) (c : Clock) (identity : Identity) (limit : Nat) (window : Span) :
    Outcome Ledger Instant :=
  ((s.log identity.kind).forecast c identity.logKey limit window).lift
    (s.setLog identity.kind)

def purge (s : Ledger) (c : Clock) (window : Span) : Outcome Ledger Nat :=
  ((s.ips.purge c window).lift (s.setLog .ip)).andThen c fun c ips s =>
    ((s.users.purge c window).lift (s.setLog .user)).andThen c fun c users s =>
      (((s.endpoints.purge c window).lift (s.setLog .endpoint)).map (ips + users + ·)).report
        fun purged => if purged = 0 then [] else [.purged purged]

def clear (s : Ledger) : Ledger := { empty with hostile := s.hostile, approved := s.approved }

def markHostile (s : Ledger) (ip : String) : Bool × Ledger :=
  let r := s.hostile.add ip
  (r.1, { s with hostile := r.2 })

def unmarkHostile (s : Ledger) (ip : String) : Bool × Ledger :=
  let r := s.hostile.remove ip
  (r.1, { s with hostile := r.2 })

def addApproved (s : Ledger) (token : String) : Bool × Ledger :=
  let r := s.approved.add token
  (r.1, { s with approved := r.2 })

def removeApproved (s : Ledger) (token : String) : Bool × Ledger :=
  let r := s.approved.remove token
  (r.1, { s with approved := r.2 })

@[simp] theorem log_setLog_self (s : Ledger) (kind : IdentityKind) (log : AttemptLog) :
    (s.setLog kind log).log kind = log := by
  cases kind <;> rfl

@[simp] theorem log_setLog_of_ne (s : Ledger) {kind other : IdentityKind} (h : kind ≠ other)
    (log : AttemptLog) : (s.setLog kind log).log other = s.log other := by
  cases kind <;> cases other <;> first | rfl | exact absurd rfl h

@[simp] theorem setLog_log (s : Ledger) (kind : IdentityKind) : s.setLog kind (s.log kind) = s := by
  cases kind <;> rfl

@[simp] theorem hostile_setLog (s : Ledger) (kind : IdentityKind) (log : AttemptLog) :
    (s.setLog kind log).hostile = s.hostile := by
  cases kind <;> rfl

@[simp] theorem approved_setLog (s : Ledger) (kind : IdentityKind) (log : AttemptLog) :
    (s.setLog kind log).approved = s.approved := by
  cases kind <;> rfl

theorem ext_of_log {s t : Ledger} (logs : ∀ kind, s.log kind = t.log kind)
    (hostile : s.hostile = t.hostile) (approved : s.approved = t.approved) : s = t := by
  have hi := logs .ip
  have hu := logs .user
  have he := logs .endpoint
  cases s; cases t
  simp_all [log]

end Ledger
end Throttle
