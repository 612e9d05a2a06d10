import Throttle.Attempt.Log
import Throttle.Proofs.Queue
import Throttle.Proofs.Run

/-!
# What one call does to the queues of a log

A call starts the queue of its key, adds to it, takes from it, or leaves it alone; a
purge expires every queue and drops the keys that are left with nothing, and clearing
drops them all.
-/

namespace Throttle

namespace Queue

theorem offer_nil {limit : Nat} (hl : limit ≠ 0) (window : Span) (now later : Instant) :
    offer [] limit window now later = { result := .ok (.recorded now), state := [now] } := by
  have hn : ¬ limit ≤ 0 := by omega
  simp [offer, expire_nil, append, slot_nil, Outcome.map, Except.map, hn]

end Queue

namespace AttemptLog

theorem attempts_of_some {log : AttemptLog} {key : String} {q : Queue} (h : log[key]? = some q) :
    log.attempts key = q := by
  rw [attempts, Std.ExtTreeMap.getD_eq_getD_getElem?, h, Option.getD_some]

theorem attempts_of_none {log : AttemptLog} {key : String} (h : log[key]? = none) :
    log.attempts key = [] := by
  rw [attempts, Std.ExtTreeMap.getD_eq_getD_getElem?, h, Option.getD_none]

theorem offer_spec (log : AttemptLog) (c : Clock) (key : String) {limit : Nat} (hl : limit ≠ 0)
    (window : Span) :
    let o := log.offer c key limit window
    let r := (log.attempts key).offer limit window c.now (c.reading 1)
    o.result = r.result ∧ o.samples = 1 + r.samples ∧ o.state = log.insert key r.state := by
  cases hk : log[key]? with
  | none => simp [offer, hl, hk, attempts_of_none hk, Queue.offer_nil hl]
  | some q => simp [offer, hl, hk, attempts_of_some hk]

theorem attempts_sweep (log : AttemptLog) (now : Instant) (window : Span) (key : String) :
    AttemptLog.attempts (log.sweep now window fun _ => false) key =
      (log.attempts key).expire now window := by
  simp only [attempts, Std.ExtTreeMap.getD_eq_getD_getElem?, getElem?_sweep]
  cases log[key]? with
  | none => simp [Queue.expire_nil]
  | some q =>
    simp only [Option.bind_some, Option.getD_some]
    cases Queue.expire now window q <;> rfl

inductive Call
  | create (key : String)
  | append (key : String)
  | offer (key : String) (limit : Nat) (window : Span)
  | takeOldest (key : String)
  | purge (window : Span)
  | clear
  deriving DecidableEq

inductive Answer
  | stamp (stamp? : Option Instant)
  | admission (a : Admission)
  | number (n : Nat)
  | done
  deriving DecidableEq

def perform (log : AttemptLog) (c : Clock) : Call → Outcome AttemptLog Answer
  | .create key => (log.create c key).map .stamp
  | .append key => (log.append c key).map .stamp
  | .offer key limit window => (log.offer c key limit window).map .admission
  | .takeOldest key => { result := .ok (.stamp (log.takeOldest key).1), state := (log.takeOldest key).2 }
  | .purge window => (log.purge c window).map .number
  | .clear => { result := .ok .done, state := empty }

/-- The ways in which a call can treat the queue of one key, with the samples that it takes. -/
inductive Treated (c : Clock) (key : String) : Call → Nat → Option Queue → Option Queue → Prop
  | spared (call : Call) (n : Nat) (q? : Option Queue) : Treated c key call n q? q?
  | created : Treated c key (.create key) 1 none (some [c.now])
  | started (limit : Nat) (window : Span) :
      Treated c key (.offer key limit window) 1 none (some [c.now])
  | appended (q : Queue) :
      Treated c key (.append key) (1 + (q.append c.now (c.reading 1)).samples) (some q)
        (some (q.append c.now (c.reading 1)).state)
  | offered (limit : Nat) (window : Span) (q : Queue) :
      Treated c key (.offer key limit window)
        (1 + (q.offer limit window c.now (c.reading 1)).samples) (some q)
        (some (q.offer limit window c.now (c.reading 1)).state)
  | shortened (oldest : Instant) (rest : Queue) :
      Treated c key (.takeOldest key) 0 (some (oldest :: rest)) (some rest)
  | expired (window : Span) (q : Queue) :
      Treated c key (.purge window) 1 (some q) (some (q.expire c.now window))
  | dropped (window : Span) (q : Queue) (nothing : q.expire c.now window = []) :
      Treated c key (.purge window) 1 (some q) none
  | cleared (q? : Option Queue) : Treated c key .clear 0 q? none

theorem perform_treated (log : AttemptLog) (c : Clock) (call : Call) (key : String) :
    Treated c key call (log.perform c call).samples log[key]? (log.perform c call).state[key]? := by
  have hother : ∀ {other : String}, other ≠ key → ∀ (call : Call) (n : Nat) (q : Queue),
      Treated c key call n log[key]? (log.insert other q)[key]? := by
    intro other hne call n q
    rw [Std.ExtTreeMap.getElem?_insert, if_neg (by simpa using hne)]
    exact .spared call n _
  cases call with
  | create other =>
    by_cases hc : log.contains other = true
    · simp only [perform, create, hc, if_true]
      exact .spared _ _ _
    · simp only [perform, create, hc]
      by_cases he : other = key
      · subst other
        have hk := Std.ExtTreeMap.getElem?_eq_none_of_contains_eq_false ((Bool.not_eq_true _).mp hc)
        rw [hk]
        simpa using .created
      · exact hother he _ _ _
  | append other =>
    cases ho : log[other]? with
    | none =>
      simp only [perform, append, ho]
      exact .spared _ _ _
    | some q =>
      simp only [perform, append, ho]
      by_cases he : other = key
      · subst other
        rw [ho]
        simpa using .appended q
      · exact hother he _ _ _
  | offer other limit window =>
    by_cases hl : limit = 0
    · simp only [perform, offer, hl, if_true]
      exact .spared _ _ _
    · cases ho : log[other]? with
      | none =>
        simp only [perform, offer, hl, if_false, ho]
        by_cases he : other = key
        · subst other
          rw [ho]
          simpa using .started limit window
        · exact hother he _ _ _
      | some q =>
        simp only [perform, offer, hl, if_false, ho]
        by_cases he : other = key
        · subst other
          rw [ho]
          simpa using .offered limit window q
        · simpa using hother he _ _ _
  | takeOldest other =>
    simp only [perform, takeOldest]
    split
    · rename_i oldest rest ho
      by_cases he : other = key
      · subst other
        rw [ho]
        simpa using .shortened oldest rest
      · exact hother he _ _ _
    · exact .spared _ _ _
  | purge window =>
    simp only [perform, purge, purgeExcept, Outcome.state_map, Outcome.samples_map, getElem?_sweep]
    cases hk : log[key]? with
    | none => exact .spared _ _ _
    | some q =>
      simp only [Option.bind_some]
      cases hq : q.expire c.now window with
      | nil => exact .dropped window q hq
      | cons first rest =>
        have ht : Treated c key (.purge window) 1 (some q) (some (q.expire c.now window)) :=
          .expired window q
        rw [hq] at ht
        exact ht
  | clear =>
    have hk : (empty : AttemptLog)[key]? = none := by simp [empty]
    simp only [perform, hk]
    exact .cleared _

end AttemptLog
end Throttle
