import Throttle.Proofs.Limiter

/-!
# Where time runs out

The only arithmetic that can leave the range of instants is the step past a newest entry
that is the last instant there is. An operation fails exactly where it would take that
step, and what it leaves is the state before it without the entries that it expired.
-/

namespace Throttle
namespace Outcome

variable {σ τ α β : Type}

/-- The operation fails exactly if `p` holds, and then it reports nothing and leaves `s`. -/
structure FailsIff (o : Outcome σ α) (p : Prop) (s : σ) : Prop where
  fails_iff : (∃ fault, o.result = .error fault) ↔ p
  state : p → o.state = s
  events : p → o.events = []

namespace FailsIff

variable {o : Outcome σ α} {p : Prop} {s : σ}

theorem of_ok {a : α} (h : o.result = .ok a) (hp : ¬ p) (s : σ) : o.FailsIff p s :=
  ⟨by simp [h, hp], fun hq => absurd hq hp, fun hq => absurd hq hp⟩

theorem map (h : o.FailsIff p s) (f : α → β) : (o.map f).FailsIff p s := by
  refine ⟨?_, h.state, h.events⟩
  rw [← h.fails_iff, result_map]
  cases o.result <;> simp [Except.map]

theorem lift (h : o.FailsIff p s) (f : σ → τ) : (o.lift f).FailsIff p (f s) :=
  ⟨h.fails_iff, fun hp => congrArg f (h.state hp), h.events⟩

theorem afterSamples (h : o.FailsIff p s) (n : Nat) : (o.afterSamples n).FailsIff p s :=
  ⟨h.fails_iff, h.state, h.events⟩

theorem report (h : o.FailsIff p s) (f : α → List Event) : (o.report f).FailsIff p s := by
  refine ⟨by rw [result_report, h.fails_iff], by rw [state_report]; exact h.state, fun hp => ?_⟩
  obtain ⟨fault, hr⟩ := h.fails_iff.2 hp
  simp only [Outcome.report, hr, h.events hp]

theorem andThen (h : o.FailsIff p s) (c : Clock) {f : Clock → α → σ → Outcome σ β}
    (hf : ∀ c a s, ∃ b, (f c a s).result = .ok b) : (o.andThen c f).FailsIff p s := by
  cases hr : o.result with
  | error fault =>
    rw [andThen_of_error hr]
    exact ⟨by simp [← h.fails_iff, hr], h.state, h.events⟩
  | ok a =>
    have hp : ¬ p := by simp [← h.fails_iff, hr]
    obtain ⟨b, hb⟩ := hf (c.skip o.samples) a o.state
    exact of_ok ((result_andThen_of_ok hr).trans hb) hp s

end FailsIff
end Outcome

namespace Queue

def Exhausted (q : Queue) (now : Instant) : Prop :=
  q.getLast? = some .latest ∧ now.ns ≠ Instant.latest.ns - 1000

def RunsOut (q : Queue) (limit : Nat) (window : Span) (now : Instant) : Prop :=
  (q.expire now window).length < limit ∧ (q.expire now window).Exhausted now

variable {q : Queue} {now later : Instant}

theorem Appended.not_exhausted {o : Outcome Queue (Option Instant)} (h : Appended q now later o)
    {stamp? : Option Instant} (ok : o.result = .ok stamp?) : ¬ q.Exhausted now := by
  rintro ⟨hlast, hedge⟩
  cases h with
  | fresh behind => exact absurd (behind _ hlast) (not_lt.2 (Instant.le_latest now))
  | @moved newest stamp last ahead gap next =>
    -- The stamp would be the instant after the last one.
    rw [hlast] at last
    cases last
    have hu := Instant.le_iff.1 (Instant.le_latest stamp)
    omega
  | reread last edge passed =>
    rw [hlast] at last
    cases last
    omega
  | crowded last edge stuck =>
    rw [hlast] at last
    cases last
    omega
  | fault => cases ok

theorem append_fails_iff (q : Queue) (now later : Instant) :
    (q.append now later).FailsIff (q.Exhausted now) q := by
  have h := append_appended q now later
  generalize q.append now later = o at h
  cases hr : o.result with
  | ok stamp? => exact .of_ok hr (h.not_exhausted hr) q
  | error fault =>
    cases h with
    | fault last gap =>
      have hp : q.Exhausted now := ⟨last, by omega⟩
      exact ⟨iff_of_true ⟨_, rfl⟩ hp, fun _ => rfl, fun _ => rfl⟩
    | _ => cases hr

theorem offer_fails_iff (q : Queue) (limit : Nat) (window : Span) (now later : Instant) :
    (q.offer limit window now later).FailsIff (q.RunsOut limit window now)
      (q.expire now window) := by
  by_cases h : limit ≤ (q.expire now window).length
  · have hp : ¬ q.RunsOut limit window now := fun hr => absurd hr.1 (Nat.not_lt_of_le h)
    rw [offer, if_pos h]
    exact .of_ok rfl hp _
  · have hp : q.RunsOut limit window now ↔ (q.expire now window).Exhausted now := by
      simp [RunsOut, Nat.lt_of_not_le h]
    rw [offer, if_neg h, hp]
    exact ((q.expire now window).append_fails_iff now later).map _

end Queue

namespace AttemptLog

def expireAt (log : AttemptLog) (key : String) (now : Instant) (window : Span) : AttemptLog :=
  log.modify key (Queue.expire now window)

theorem insert_eq_modify {log : AttemptLog} {key : String} {q : Queue} (hk : log[key]? = some q)
    (f : Queue → Queue) : log.insert key (f q) = log.modify key f := by
  refine Std.ExtTreeMap.ext_getElem? fun other => ?_
  rw [Std.ExtTreeMap.getElem?_insert, Std.ExtTreeMap.getElem?_modify, hk, Option.map_some]

theorem append_fails_iff (log : AttemptLog) (c : Clock) (key : String) :
    (log.append c key).FailsIff ((log.attempts key).Exhausted c.now) log := by
  cases hk : log[key]? with
  | none =>
    have hp : ¬ (log.attempts key).Exhausted c.now := by
      simp [attempts_of_none hk, Queue.Exhausted]
    simp only [append, hk]
    exact .of_ok rfl hp log
  | some q =>
    have hself : log.insert key q = log := by
      refine Std.ExtTreeMap.ext_getElem? fun other => ?_
      by_cases he : key = other
      · subst other
        simp [hk]
      · simp [Std.ExtTreeMap.getElem?_insert, he]
    have h := ((q.append_fails_iff c.now (c.reading 1)).lift (log.insert key)).afterSamples 1
    rw [hself] at h
    simpa only [append, hk, attempts_of_some hk] using h

theorem offer_fails_iff (log : AttemptLog) (c : Clock) (key : String) (limit : Nat)
    (window : Span) :
    (log.offer c key limit window).FailsIff ((log.attempts key).RunsOut limit window c.now)
      (log.expireAt key c.now window) := by
  by_cases hl : limit = 0
  · have hp : ¬ (log.attempts key).RunsOut limit window c.now := by simp [Queue.RunsOut, hl]
    rw [offer, if_pos hl]
    exact .of_ok rfl hp _
  · cases hk : log[key]? with
    | none =>
      have hp : ¬ (log.attempts key).RunsOut limit window c.now := by
        simp [attempts_of_none hk, Queue.RunsOut, Queue.expire_nil, Queue.Exhausted]
      simp only [offer, hl, if_false, hk]
      exact .of_ok rfl hp _
    | some q =>
      have h := ((q.offer_fails_iff limit window c.now (c.reading 1)).lift
        (log.insert key)).afterSamples 1
      rw [insert_eq_modify hk] at h
      simp only [offer, hl, if_false, hk, attempts_of_some hk]
      exact h.report _

def Call.Overflows (log : AttemptLog) (now : Instant) : Call → Prop
  | append key => (log.attempts key).Exhausted now
  | offer key limit window => (log.attempts key).RunsOut limit window now
  | create _ | takeOldest _ | purge _ | clear => False

def Call.expired (log : AttemptLog) (now : Instant) : Call → AttemptLog
  | offer key _ window => log.expireAt key now window
  | create _ | append _ | takeOldest _ | purge _ | clear => log

theorem perform_fails_iff (log : AttemptLog) (c : Clock) (call : Call) :
    (log.perform c call).FailsIff (call.Overflows log c.now) (call.expired log c.now) := by
  cases call with
  | create key =>
    simp only [perform, create]
    split <;> exact .of_ok rfl id _
  | append key => exact (log.append_fails_iff c key).map _
  | offer key limit window => exact (log.offer_fails_iff c key limit window).map _
  | takeOldest key => exact .of_ok rfl id _
  | purge window => exact .of_ok rfl id _
  | clear => exact .of_ok rfl id _

end AttemptLog

namespace Ledger

variable {limit : Nat} {window : Span}

theorem record_fails_iff (s : Ledger) (c : Clock) (identity : Identity) (limit : Nat)
    (window : Span) :
    (s.record c identity limit window).FailsIff
      ((s.attempts identity).RunsOut limit window c.now)
      (s.setLog identity.kind
        ((s.log identity.kind).expireAt identity.logKey c.now window)) := by
  have h := (s.log identity.kind).offer_fails_iff c identity.logKey limit window
  rw [record, recordIn_eq_offer]
  exact (h.lift _).report _

def Call.Overflows (limit : Nat) (window : Span) (s : Ledger) (now : Instant) : Call → Prop
  | attempt identity => (s.attempts identity).RunsOut limit window now
  | purge | forecast _ _ _ | count _ => False

def Call.expired (window : Span) (s : Ledger) (now : Instant) : Call → Ledger
  | attempt identity =>
    s.setLog identity.kind ((s.log identity.kind).expireAt identity.logKey now window)
  | purge | forecast _ _ _ | count _ => s

theorem perform_fails_iff (s : Ledger) (c : Clock) (call : Call) :
    (perform limit window s c call).FailsIff (call.Overflows limit window s c.now)
      (call.expired window s c.now) := by
  cases call with
  | attempt identity => exact (s.record_fails_iff c identity limit window).map _
  | purge => exact .of_ok rfl id _
  | forecast identity n w => exact .of_ok rfl id _
  | count identity => exact .of_ok rfl id _

end Ledger

namespace Limiter

theorem attempt_fails_iff (l : Limiter) (c : Clock) (identity : Identity) :
    (l.attempt c identity).FailsIff
      ((l.ledger.attempts identity).RunsOut l.limit l.window c.now)
      (l.withLedger (l.ledger.setLog identity.kind
        ((l.ledger.log identity.kind).expireAt identity.logKey c.now l.window))) := by
  refine ((l.ledger.record_fails_iff c identity l.limit l.window).lift _).andThen c ?_
  intro c admission m
  cases admission with
  | recorded stamp => exact ⟨_, rfl⟩
  | refused reason =>
    cases reason with
    | zeroLimit => exact ⟨_, rfl⟩
    | _ => exact ⟨_, by rw [Outcome.result_map, retryAfter_eq]; rfl⟩

def Call.Overflows (l : Limiter) (now : Instant) : Call → Prop
  | attempt identity => (l.ledger.attempts identity).RunsOut l.limit l.window now
  | judge _ request => ∃ identity, l.counted? request = some identity ∧
      (l.ledger.attempts identity).RunsOut l.limit l.window now
  | _ => False

def Call.expired (l : Limiter) (now : Instant) (call : Call) : Limiter :=
  match call.identity? l.policy with
  | some identity => l.withLedger (l.ledger.setLog identity.kind
      ((l.ledger.log identity.kind).expireAt identity.logKey now l.window))
  | none => l

theorem perform_fails_iff (l : Limiter) (c : Clock) (call : Call) :
    (l.perform c call).FailsIff (call.Overflows l c.now) (call.expired l c.now) := by
  cases call with
  | attempt identity => exact (l.attempt_fails_iff c identity).map _
  | advise identity =>
    have hr := congrArg Outcome.result (l.retryAfter_eq c identity)
    exact (Outcome.FailsIff.of_ok hr id l).map _
  | judge line request =>
    cases hc : l.counted? request with
    | none =>
      have hp : ¬ (Call.judge line request).Overflows l c.now := by simp [Call.Overflows, hc]
      exact (Outcome.FailsIff.of_ok (judge_of_not_counted hc c line).2.2 hp _).map _
    | some identity =>
      have hp : (Call.judge line request).Overflows l c.now ↔
          (l.ledger.attempts identity).RunsOut l.limit l.window c.now := by
        simp [Call.Overflows, hc]
      have hi : (Call.judge line request).identity? l.policy = some identity :=
        identity?_of_counted hc
      simp only [perform, judge_of_counted hc, hp, Call.expired, hi]
      exact ((l.attempt_fails_iff c identity).map _).map _
  | purge => exact .of_ok rfl id _
  | clear => exact .of_ok rfl id _
  | markHostile ip =>
    refine Outcome.FailsIff.map ?_ _
    unfold markHostile
    split <;> exact .of_ok rfl id _
  | unmarkHostile ip =>
    refine Outcome.FailsIff.map ?_ _
    unfold unmarkHostile
    split <;> exact .of_ok rfl id _
  | _ => exact .of_ok rfl id _

end Limiter

/-- Of every log, ledger and limiter, at any reading of the clock and with any limit and any
window: a call fails exactly if it would step past the last instant, and one that fails
leaves all that was there but the expired entries of its key. -/
theorem fails_iff_overflows :
    (∀ (log : AttemptLog) (c : Clock),
      (∀ call, (log.perform c call).FailsIff (call.Overflows log c.now) (call.expired log c.now)) ∧
        ∀ key limit window, (log.forecast c key limit window).FailsIff False log) ∧
    (∀ (s : Ledger) (c : Clock) (limit : Nat) (window : Span) (call : Ledger.Call),
      (Ledger.perform limit window s c call).FailsIff (call.Overflows limit window s c.now)
        (call.expired window s c.now)) ∧
    ∀ (l : Limiter) (c : Clock) (call : Limiter.Call),
      (l.perform c call).FailsIff (call.Overflows l c.now) (call.expired l c.now) := by
  refine ⟨fun log c => ⟨log.perform_fails_iff c, fun key limit window => ?_⟩, ?_, ?_⟩
  · exact .of_ok rfl id log
  · intro s c limit window call
    exact s.perform_fails_iff c call
  · exact Limiter.perform_fails_iff

example : ((AttemptLog.empty.create (.still .latest) "10.0.0.1").state.append (.still .latest)
    "10.0.0.1").result = .error .pastLatest := by decide +kernel

end Throttle
