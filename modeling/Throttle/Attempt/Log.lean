import Throttle.Attempt.Queue
import Std.Data.ExtTreeMap

/-!
# Attempt logs

A log keeps one queue of attempts for each key. Keys appear with their first
attempt and go when a purge finds nothing left of their queue. Two logs with the
same queue for every key are equal.
-/

namespace Throttle

abbrev AttemptLog := Std.ExtTreeMap String Queue

namespace AttemptLog

def empty : AttemptLog := ∅

def attempts (log : AttemptLog) (key : String) : Queue := log.getD key []

def count (log : AttemptLog) (key : String) : Nat := (log.attempts key).length

def oldest? (log : AttemptLog) (key : String) : Option Instant := (log.attempts key).head?

def takeOldest (log : AttemptLog) (key : String) : Option Instant × AttemptLog :=
  match log[key]? with
  | some (oldest :: rest) => (some oldest, log.insert key rest)
  | _ => (none, log)

def create (log : AttemptLog) (c : Clock) (key : String) : Outcome AttemptLog (Option Instant) :=
  if log.contains key then { result := .ok none, state := log }
  else { result := .ok (some c.now), state := log.insert key [c.now], samples := 1 }

def append (log : AttemptLog) (c : Clock) (key : String) : Outcome AttemptLog (Option Instant) :=
  match log[key]? with
  | none => { result := .ok none, state := log }
  | some q => ((q.append c.now (c.reading 1)).lift (log.insert key)).afterSamples 1

def offer (log : AttemptLog) (c : Clock) (key : String) (limit : Nat) (window : Span) :
    Outcome AttemptLog Admission :=
  if limit = 0 then { result := .ok (.refused .zeroLimit), state := log }
  else match log[key]? with
    | none => { result := .ok (.recorded c.now), state := log.insert key [c.now], samples := 1 }
    | some q =>
      (((q.offer limit window c.now (c.reading 1)).lift (log.insert key)).afterSamples 1).report
        fun a => if a = .refused .crowded then [.crowded key] else []

def forecast (log : AttemptLog) (c : Clock) (key : String) (limit : Nat) (window : Span) :
    Outcome AttemptLog Instant :=
  { result := .ok ((log.attempts key).forecast limit window c.now), state := log, samples := 1 }

/-- Expires old entries of every queue and drops the keys whose queue is left
empty. Queues that someone holds are passed over. -/
def sweep (log : AttemptLog) (now : Instant) (window : Span) (held : String → Bool) : AttemptLog :=
  log.filterMap fun key q =>
    if held key then some q
    else match q.expire now window with
      | [] => none
      | kept => some kept

def purgeExcept (log : AttemptLog) (c : Clock) (window : Span) (held : String → Bool) :
    Outcome AttemptLog Nat :=
  let swept := log.sweep c.now window held
  { result := .ok (log.size - swept.size), state := swept, samples := 1 }

def purge (log : AttemptLog) (c : Clock) (window : Span) : Outcome AttemptLog Nat :=
  log.purgeExcept c window fun _ => false

theorem attempts_empty (key : String) : empty.attempts key = [] := by
  simp [empty, attempts]

theorem attempts_insert_self (log : AttemptLog) (key : String) (q : Queue) :
    AttemptLog.attempts (log.insert key q) key = q := by
  simp [attempts]

theorem attempts_insert_of_ne (log : AttemptLog) {key other : String} (h : key ≠ other)
    (q : Queue) : AttemptLog.attempts (log.insert key q) other = log.attempts other := by
  simp [attempts, Std.ExtTreeMap.getD_insert, h]

theorem getElem?_sweep (log : AttemptLog) (now : Instant) (window : Span) (held : String → Bool)
    (key : String) :
    (log.sweep now window held)[key]? =
      (log[key]?).bind fun q =>
        if held key then some q
        else match q.expire now window with
          | [] => none
          | kept => some kept := by
  simp [sweep]

end AttemptLog
end Throttle
