import Throttle.Ledger
import Throttle.Proofs.Identity
import Throttle.Proofs.Log

/-!
# What one call does to the queues of a ledger

An attempt offers itself to the one queue of its identity, whether the queue was
there or not, and a purge expires every queue at the reading that its log took.
-/

namespace Throttle

def IdentityKind.turn : IdentityKind → Nat
  | ip => 0
  | user => 1
  | endpoint => 2

namespace Ledger

def queue (s : Ledger) (place : IdentityKind × String) : Queue :=
  (s.log place.1).attempts place.2

def queue? (s : Ledger) (place : IdentityKind × String) : Option Queue :=
  (s.log place.1)[place.2]?

theorem queue_eq_getD (s : Ledger) (place : IdentityKind × String) :
    s.queue place = (s.queue? place).getD [] :=
  Std.ExtTreeMap.getD_eq_getD_getElem?

theorem ext_of_queue? {s t : Ledger} (queues : ∀ place, s.queue? place = t.queue? place)
    (hostile : s.hostile = t.hostile) (approved : s.approved = t.approved) : s = t :=
  ext_of_log (fun kind => Std.ExtTreeMap.ext_getElem? fun key => queues (kind, key))
    hostile approved

theorem attempts_eq_queue (s : Ledger) (identity : Identity) :
    s.attempts identity = s.queue identity.place := rfl

theorem queue_empty (place : IdentityKind × String) : empty.queue place = [] := by
  obtain ⟨kind, key⟩ := place
  cases kind <;> exact AttemptLog.attempts_empty key

/-- What becomes of an attempt once the check for its key has said whether it is tracked, on the
log as it is by then. -/
def recordChecked (tracked : Bool) (log : AttemptLog) (c : Clock) (identity : Identity)
    (limit : Nat) (window : Span) : Outcome AttemptLog Admission :=
  let key := identity.logKey
  if identity.isEndpoint && !tracked then
    if limit = 0 then { result := .ok (.refused .zeroLimit), state := log }
    else
      (log.create c key).andThen c fun c stamp? log =>
        match stamp? with
        | some stamp => { result := .ok (.recorded stamp), state := log }
        | none => log.offer c key limit window
  else log.offer c key limit window

theorem recordIn_eq_recordChecked (log : AttemptLog) (c : Clock) (identity : Identity)
    (limit : Nat) (window : Span) :
    recordIn log c identity limit window =
      recordChecked (log.contains identity.logKey) log c identity limit window := rfl

theorem recordChecked_eq_offer (tracked : Bool) (log : AttemptLog) (c : Clock)
    (identity : Identity) (limit : Nat) (window : Span) :
    recordChecked tracked log c identity limit window =
      log.offer c identity.logKey limit window := by
  simp only [recordChecked]
  by_cases h : (identity.isEndpoint && !tracked) = true
  · rw [if_pos h]
    by_cases hl : limit = 0
    · simp [AttemptLog.offer, hl]
    · rw [if_neg hl]
      by_cases hc : log.contains identity.logKey = true
      · -- The queue is there by now, and making it took no sample.
        simp [AttemptLog.create, Outcome.andThen, hc, Clock.skip_zero]
      · have hk := Std.ExtTreeMap.getElem?_eq_none_of_contains_eq_false
          ((Bool.not_eq_true _).mp hc)
        simp [AttemptLog.offer, AttemptLog.create, Outcome.andThen, hl, hk, hc]
  · rw [if_neg h]

theorem recordIn_eq_offer (log : AttemptLog) (c : Clock) (identity : Identity) (limit : Nat)
    (window : Span) :
    recordIn log c identity limit window = log.offer c identity.logKey limit window := by
  rw [recordIn_eq_recordChecked, recordChecked_eq_offer]

theorem queue?_setLog (s : Ledger) (kind : IdentityKind) (log : AttemptLog)
    (place : IdentityKind × String) :
    (s.setLog kind log).queue? place =
      if place.1 = kind then log[place.2]? else s.queue? place := by
  unfold queue?
  split
  · rename_i h
    rw [h, log_setLog_self]
  · rename_i h
    rw [log_setLog_of_ne s (Ne.symm h)]

theorem queue?_record (s : Ledger) (c : Clock) {limit : Nat} (hl : limit ≠ 0) (window : Span)
    (i : Identity) (place : IdentityKind × String) :
    (s.record c i limit window).state.queue? place =
      if place = i.place then
        some ((s.queue i.place).offer limit window c.now (c.reading 1)).state
      else s.queue? place := by
  obtain ⟨-, -, hs⟩ := (s.log i.kind).offer_spec c i.logKey hl window
  rw [record, recordIn_eq_offer, Outcome.state_report, Outcome.state_lift, hs, queue?_setLog]
  obtain ⟨kind, key⟩ := place
  simp only [Identity.place, Prod.mk.injEq]
  by_cases hk : kind = i.kind
  · subst kind
    rw [if_pos rfl, Std.ExtTreeMap.getElem?_insert]
    by_cases he : key = i.logKey
    · subst key
      rw [if_pos (by simp), if_pos ⟨rfl, rfl⟩]
      rfl
    · rw [if_neg (by simpa using Ne.symm he), if_neg (by simp [he])]
      rfl
  · rw [if_neg hk, if_neg (by simp [hk])]

theorem record_spec (s : Ledger) (c : Clock) (identity : Identity) {limit : Nat} (hl : limit ≠ 0)
    (window : Span) :
    let o := s.record c identity limit window
    let r := (s.attempts identity).offer limit window c.now (c.reading 1)
    o.result = r.result ∧ o.samples = 1 + r.samples ∧
      ∀ place, o.state.queue place = if place = identity.place then r.state else s.queue place := by
  intro o r
  obtain ⟨hr, hn, -⟩ := (s.log identity.kind).offer_spec c identity.logKey hl window
  refine ⟨?_, ?_, fun place => ?_⟩
  · simp only [o, record, recordIn_eq_offer, Outcome.result_report]
    exact hr
  · simp only [o, record, recordIn_eq_offer, Outcome.samples_report]
    exact hn
  · rw [queue_eq_getD, s.queue?_record c hl]
    split
    · rfl
    · exact (s.queue_eq_getD place).symm

theorem record_zero (s : Ledger) (c : Clock) (identity : Identity) (window : Span) :
    let o := s.record c identity 0 window
    o.result = .ok (.refused .zeroLimit) ∧ o.samples = 0 ∧ o.state = s := by
  simp [record, recordIn_eq_offer, AttemptLog.offer]

theorem hostile_record (s : Ledger) (c : Clock) (identity : Identity) (limit : Nat)
    (window : Span) : (s.record c identity limit window).state.hostile = s.hostile := by
  rw [record, Outcome.state_report, Outcome.state_lift, hostile_setLog]

theorem approved_record (s : Ledger) (c : Clock) (identity : Identity) (limit : Nat)
    (window : Span) : (s.record c identity limit window).state.approved = s.approved := by
  rw [record, Outcome.state_report, Outcome.state_lift, approved_setLog]

theorem purge_spec (s : Ledger) (c : Clock) (window : Span) :
    let o := s.purge c window
    o.samples = 3 ∧ (∃ n, o.result = .ok n) ∧
      ∀ place, o.state.queue place =
        (s.queue place).expire (c.reading place.1.turn) window := by
  refine ⟨rfl, ⟨_, rfl⟩, ?_⟩
  rintro ⟨kind, key⟩
  cases kind <;> exact AttemptLog.attempts_sweep _ _ _ _

/-! Calls whose attempts share one limit and one window. -/

inductive Call
  | attempt (identity : Identity)
  | purge
  | forecast (identity : Identity) (limit : Nat) (window : Span)
  | count (identity : Identity)
  deriving DecidableEq

inductive Answer
  | admission (a : Admission)
  | number (n : Nat)
  | instant (t : Instant)
  deriving DecidableEq

def perform (limit : Nat) (window : Span) (s : Ledger) (c : Clock) :
    Call → Outcome Ledger Answer
  | .attempt identity => (s.record c identity limit window).map .admission
  | .purge => (s.purge c window).map .number
  | .forecast identity limit window => (s.forecast c identity limit window).map .instant
  | .count identity => { result := .ok (.number (s.count identity)), state := s }

theorem state_forecast (s : Ledger) (c : Clock) (identity : Identity) (limit : Nat)
    (window : Span) : (s.forecast c identity limit window).state = s :=
  s.setLog_log identity.kind

def Call.isAttempt : Call → Bool
  | attempt _ => true
  | purge | forecast _ _ _ | count _ => false

def still (run : List (Call × Instant)) : List (Call × Clock) :=
  run.map fun step => (step.1, .still step.2)

def admission? (step : Run.Step Call Answer) : Option (Except Fault Admission) :=
  match step.call, step.result with
  | .attempt _, .ok (.admission a) => some (.ok a)
  | .attempt _, .error e => some (.error e)
  | _, _ => none

def admissions (history : List (Run.Step Call Answer)) : List (Except Fault Admission) :=
  history.filterMap admission?

theorem admission?_attempt (identity : Identity) (readings : List Instant)
    (r : Except Fault Admission) :
    admission? ⟨.attempt identity, readings, r.map .admission⟩ = some r := by
  cases r <;> rfl

def Answer.stamp? : Answer → Option Instant
  | admission a => a.stamp?
  | number _ => none
  | instant _ => none

def recordedAt? (p : Identity → Prop) [DecidablePred p] (step : Run.Step Call Answer) :
    Option Instant :=
  match step.call with
  | .attempt identity =>
    if p identity then step.result.toOption.bind Answer.stamp? else none
  | _ => none

/-- A call either offers an attempt to a queue, or purges it, or leaves it alone. -/
theorem perform_queue {limit : Nat} (hl : limit ≠ 0) (window : Span) (s : Ledger) (c : Clock)
    (call : Call) (place : IdentityKind × String) :
    let o := perform limit window s c call
    let stamp? := recordedAt? (·.place = place) ⟨call, o.readings c, o.result⟩
    let r := (s.queue place).offer limit window c.now (c.reading 1)
    (call ≠ .purge ∧ c.now ∈ o.readings c ∧ o.state.queue place = r.state ∧
      stamp? = Admission.stampIn? r.result) ∨
    (call = .purge ∧ (∃ now ∈ o.readings c,
      o.state.queue place = (s.queue place).expire now window) ∧ stamp? = none) ∨
    (call ≠ .purge ∧ o.state.queue place = s.queue place ∧ stamp? = none) := by
  cases call with
  | attempt identity =>
    obtain ⟨hr, hn, hq⟩ := s.record_spec c identity hl window
    have hplace := hq place
    by_cases he : identity.place = place
    · subst he
      rw [attempts_eq_queue] at hr hn hplace
      rw [if_pos rfl] at hplace
      refine .inl ⟨by simp, ?_, hplace, ?_⟩
      · refine Outcome.mem_readings.2 ⟨0, ?_, rfl⟩
        simp only [perform, Outcome.samples_map, hn]
        omega
      · simp only [recordedAt?, if_true, perform, Outcome.result_map, hr]
        cases ((s.queue identity.place).offer limit window c.now (c.reading 1)).result <;> rfl
    · rw [if_neg (Ne.symm he)] at hplace
      exact .inr (.inr ⟨by simp, hplace, by simp [recordedAt?, he]⟩)
  | purge =>
    obtain ⟨hn, -, hq⟩ := s.purge_spec c window
    refine .inr (.inl ⟨rfl, ⟨c.reading place.1.turn, ?_, hq place⟩, rfl⟩)
    refine Outcome.mem_readings.2 ⟨place.1.turn, ?_, rfl⟩
    simp only [perform, Outcome.samples_map, hn]
    cases place.1 <;> decide
  | forecast identity n w =>
    refine .inr (.inr ⟨by simp, ?_, rfl⟩)
    simp only [perform, Outcome.state_map, state_forecast]
  | count identity => exact .inr (.inr ⟨by simp, rfl, rfl⟩)

def recorded (p : Identity → Prop) [DecidablePred p] (history : List (Run.Step Call Answer)) :
    List Instant :=
  history.filterMap (recordedAt? p)

theorem recorded_sublist {p r : Identity → Prop} [DecidablePred p] [DecidablePred r]
    (h : ∀ identity, p identity → r identity) (history : List (Run.Step Call Answer)) :
    List.Sublist (recorded p history) (recorded r history) := by
  induction history with
  | nil => exact List.Sublist.refl _
  | cons step rest ih =>
    have hstep : recordedAt? p step = none ∨ recordedAt? p step = recordedAt? r step := by
      unfold recordedAt?
      cases step.call with
      | attempt identity =>
        by_cases hp : p identity
        · exact .inr (by simp [hp, h identity hp])
        · exact .inl (by simp [hp])
      | _ => exact .inl rfl
    unfold recorded at ih ⊢
    cases hr : recordedAt? r step with
    | none =>
      rw [hr] at hstep
      simpa [List.filterMap_cons, hr, hstep.elim id id] using ih
    | some t =>
      rcases hstep with hn | he
      · simpa [List.filterMap_cons, hr, hn] using ih.trans (List.sublist_cons_self _ _)
      · simpa [List.filterMap_cons, hr, he] using ih

end Ledger
end Throttle
