import Throttle.Proofs.Ledger
import Throttle.Replay.Run

/-!
# What one call does to the queues of a limiter

An attempt is an offer to the queue of its identity, followed by a forecast when it
was refused. Every other call expires a queue, empties it or leaves it alone.
-/

namespace Throttle.Limiter

theorem create_of_valid {p : Policy} (valid : p.Valid) :
    create p = .ok (⟨p, valid, .empty⟩, p.warnings ++ [.limiterCreated p]) := dif_pos valid

theorem create_spec {p : Policy} {first : Limiter} {events : List Event}
    (h : create p = .ok (first, events)) : first.policy = p ∧ first.ledger = .empty := by
  by_cases valid : p.Valid
  · rw [create, dif_pos valid] at h
    cases h
    exact ⟨rfl, rfl⟩
  · rw [create, dif_neg valid] at h
    cases h

theorem window_ns {p : Policy} (valid : p.Valid) : p.window.ns = p.windowSeconds * 1000000000 := by
  have hv : p.windowSeconds ≤ 9223372036854775 := valid
  unfold Policy.window Span.ofSeconds? Span.ofNs?
  rw [dif_pos (by omega)]
  rfl

theorem limit_congr {l m : Limiter} (h : m.policy = l.policy) : m.limit = l.limit := by
  rw [limit, h, limit]

theorem window_congr {l m : Limiter} (h : m.policy = l.policy) : m.window = l.window := by
  rw [window, h, window]

theorem retryAfter_eq (l : Limiter) (c : Clock) (identity : Identity) :
    l.retryAfter c identity = {
      result := .ok (((l.ledger.attempts identity).forecast l.limit l.window c.now).since
        (c.reading 1)).wholeSeconds
      state := l
      samples := 2 } := by
  have hs : l.withLedger (l.ledger.setLog identity.kind (l.ledger.log identity.kind)) = l := by
    rw [Ledger.setLog_log, withLedger_ledger]
  simp only [retryAfter, Ledger.forecast, AttemptLog.forecast, Outcome.andThen, Outcome.lift, hs]
  rfl

theorem state_retryAfter (l : Limiter) (c : Clock) (identity : Identity) :
    (l.retryAfter c identity).state = l := by
  rw [retryAfter_eq]

def advice (l : Limiter) (q : Queue) (asked told : Instant) : Nat :=
  max ((q.forecast l.limit l.window asked).since told).wholeSeconds 1

theorem attempt_spec (l : Limiter) (c : Clock) (identity : Identity) (hl : l.limit ≠ 0) :
    let o := l.attempt c identity
    let r := (l.ledger.attempts identity).offer l.limit l.window c.now (c.reading 1)
    o.state.policy = l.policy ∧ 1 + r.samples ≤ o.samples ∧
      (∀ place, o.state.ledger.queue place =
        if place = identity.place then r.state else l.ledger.queue place) ∧
      o.result = r.result.map fun
        | .recorded _ => none
        | .refused reason =>
          let told := l.advice r.state (c.reading (1 + r.samples)) (c.reading (1 + r.samples + 1))
          some (refuse identity reason (some told)) := by
  obtain ⟨hr, hn, hq⟩ := l.ledger.record_spec c identity hl l.window
  have hz := (Queue.offer_offered (l.ledger.attempts identity) l.limit l.window c.now
    (c.reading 1)).result_ne_zeroLimit
  generalize (l.ledger.attempts identity).offer l.limit l.window c.now (c.reading 1) = r at *
  obtain ⟨result, kept, samples, events⟩ := r
  simp only at hr hn hq hz ⊢
  cases result with
  | error e =>
    simp only [attempt, Outcome.andThen, Outcome.result_lift, hr]
    exact ⟨rfl, hn.ge, hq, rfl⟩
  | ok a =>
    cases a with
    | recorded stamp =>
      simp only [attempt, Outcome.andThen, Outcome.result_lift, hr]
      exact ⟨rfl, hn.ge, hq, rfl⟩
    | refused reason =>
      have hadvice := retryAfter_eq
        (l.withLedger (l.ledger.record c identity l.limit l.window).state)
        (c.skip (1 + samples)) identity
      have hself := hq identity.place
      rw [if_pos rfl] at hself
      simp only [attempt, Outcome.andThen, Outcome.result_lift, Outcome.samples_lift,
        Outcome.state_lift, hr, hn]
      cases reason with
      | zeroLimit => exact absurd rfl hz
      | full =>
        simp only [hadvice]
        refine ⟨rfl, by simp, hq, ?_⟩
        rw [← hself]
        rfl
      | crowded =>
        simp only [hadvice]
        refine ⟨rfl, by simp, hq, ?_⟩
        rw [← hself]
        rfl

theorem attempt_state (l : Limiter) (c : Clock) (identity : Identity) :
    (l.attempt c identity).state =
      l.withLedger (l.ledger.record c identity l.limit l.window).state := by
  simp only [attempt]
  cases hr : (l.ledger.record c identity l.limit l.window).result with
  | error e => rw [Outcome.andThen_of_error (by simpa using hr), Outcome.state_lift]
  | ok a =>
    rw [Outcome.state_andThen_of_ok (by simpa using hr)]
    cases a with
    | recorded stamp => rfl
    | refused reason =>
      cases reason <;> simp only [Outcome.state_map, retryAfter_eq] <;> rfl

theorem attempt_zero {l : Limiter} (hl : l.limit = 0) (c : Clock) (identity : Identity) :
    let o := l.attempt c identity
    o.result = .ok (some (refuse identity .zeroLimit none)) ∧ o.state = l := by
  obtain ⟨hr, -, hs⟩ := l.ledger.record_zero c identity l.window
  refine ⟨?_, by rw [attempt_state, hl, hs, withLedger_ledger]⟩
  rw [attempt, hl, Outcome.result_andThen_of_ok (by rw [Outcome.result_lift, hr])]

theorem policy_attempt (l : Limiter) (c : Clock) (identity : Identity) :
    (l.attempt c identity).state.policy = l.policy := by
  rw [attempt_state, policy_withLedger]

theorem queue?_attempt {l : Limiter} (hl : l.limit ≠ 0) (c : Clock) (identity : Identity)
    (place : IdentityKind × String) :
    (l.attempt c identity).state.ledger.queue? place =
      if place = identity.place then
        some ((l.ledger.queue identity.place).offer l.limit l.window c.now (c.reading 1)).state
      else l.ledger.queue? place := by
  rw [attempt_state, ledger_withLedger, Ledger.queue?_record _ c hl]

theorem attempt_recorded {l : Limiter} {c : Clock} {identity : Identity} (hl : l.limit ≠ 0)
    (ascending : (l.ledger.queue identity.place).Ascending)
    (recorded : (l.attempt c identity).result = .ok none) :
    let kept := (l.ledger.queue identity.place).expire c.now l.window
    ∃ stamp, (l.attempt c identity).state.ledger.queue? identity.place = some (kept ++ [stamp]) ∧
      ∀ t ∈ kept, t < stamp := by
  intro kept
  have hkept : kept.Ascending := ascending.expire c.now l.window
  have ho : Queue.Offered kept _ _ _ _ :=
    (l.ledger.queue identity.place).offer_offered l.limit l.window c.now (c.reading 1)
  obtain ⟨-, -, -, hr⟩ := l.attempt_spec c identity hl
  rw [queue?_attempt hl, if_pos rfl]
  rw [recorded, Ledger.attempts_eq_queue] at hr
  generalize (l.ledger.queue identity.place).offer l.limit l.window c.now (c.reading 1) = o at *
  cases ho with
  | recorded room appended ok state => exact ⟨_, rfl, (appended.stamp_spec hkept ok).2⟩
  | full => cases hr
  | crowded => cases hr
  | fault => cases hr

theorem attempt_refused {l : Limiter} {c : Clock} {identity : Identity} (hl : l.limit ≠ 0)
    {refusal : Refusal} (refused : (l.attempt c identity).result = .ok (some refusal)) :
    let kept := (l.ledger.queue identity.place).expire c.now l.window
    (l.attempt c identity).state.ledger.queue? identity.place = some kept ∧ kept ≠ [] ∧
      (∃ m n, refusal.retryAfter = some (l.advice kept (c.reading m) (c.reading n))) ∧
      (refusal.reason = .full ↔ l.limit ≤ kept.length) := by
  intro kept
  have ho : Queue.Offered kept _ _ _ _ :=
    (l.ledger.queue identity.place).offer_offered l.limit l.window c.now (c.reading 1)
  obtain ⟨-, -, -, hr⟩ := l.attempt_spec c identity hl
  rw [queue?_attempt hl, if_pos rfl]
  rw [refused, Ledger.attempts_eq_queue] at hr
  generalize (l.ledger.queue identity.place).offer l.limit l.window c.now (c.reading 1) = o at *
  cases ho with
  | full hfull =>
    cases hr
    have hpos := Nat.pos_of_ne_zero hl
    exact ⟨rfl, List.ne_nil_of_length_pos (by omega), ⟨_, _, rfl⟩, iff_of_true rfl hfull⟩
  | crowded room last =>
    cases hr
    exact ⟨rfl, List.ne_nil_of_mem (List.mem_of_getLast? last), ⟨_, _, rfl⟩,
      iff_of_false (by simp [refuse]) (Nat.not_le_of_lt room)⟩
  | recorded => cases hr
  | fault => cases hr

/-- The identity that a request is counted against, if it gets past the list of hostile
addresses and the gate. -/
def counted? (l : Limiter) (request : Request) : Option Identity :=
  if l.isHostile request.client then none
  else match l.gate request.authorization with
    | .accepted => l.identity? request.client request.authorization
        (endpointName request.verb request.resource)
    | .missing | .invalid => none

def ruling : Option Refusal → Ruling
  | none => .serviced
  | some refusal => .limited refusal

def decision (line : Nat) (request : Request) (ruling : Ruling) : Decision :=
  ⟨line, request.client, endpointName request.verb request.resource, ruling⟩

theorem counted?_eq_some_iff {l : Limiter} {request : Request} {identity : Identity} :
    l.counted? request = some identity ↔
      l.isHostile request.client = false ∧ l.gate request.authorization = .accepted ∧
        l.identity? request.client request.authorization
          (endpointName request.verb request.resource) = some identity := by
  unfold counted?
  cases l.isHostile request.client with
  | true => simp
  | false => cases l.gate request.authorization <;> simp

theorem identity?_of_counted {l : Limiter} {request : Request} {identity : Identity}
    (h : l.counted? request = some identity) :
    l.identity? request.client request.authorization
      (endpointName request.verb request.resource) = some identity :=
  (counted?_eq_some_iff.1 h).2.2

theorem judge_of_counted {l : Limiter} {request : Request} {identity : Identity}
    (h : l.counted? request = some identity) (c : Clock) (line : Nat) :
    l.judge c line request =
      (l.attempt c identity).map fun refusal? => decision line request (ruling refusal?) := by
  obtain ⟨hh, hg, hi⟩ := counted?_eq_some_iff.1 h
  have hrule : l.rule c request (endpointName request.verb request.resource) =
      (l.attempt c identity).map ruling := by
    simp only [rule, hh, hg, hi, Bool.false_eq_true, if_false]
    rfl
  rw [judge, hrule, Outcome.map_map]
  rfl

def uncounted (l : Limiter) (request : Request) : Ruling :=
  if l.isHostile request.client then .dropped
  else match l.gate request.authorization with
    | .accepted => .unlimited
    | gate => .refused gate

theorem judge_of_not_counted {l : Limiter} {request : Request} (h : l.counted? request = none)
    (c : Clock) (line : Nat) :
    let o := l.judge c line request
    o.state = l ∧ o.samples = 0 ∧
      o.result = .ok (decision line request (l.uncounted request)) := by
  unfold counted? at h
  unfold uncounted
  by_cases hh : l.isHostile request.client = true
  · simp [judge, rule, hh, Except.map, decision]
  · rw [if_neg hh] at h
    cases hg : l.gate request.authorization with
    | accepted =>
      rw [hg] at h
      simp [judge, rule, hh, hg, h, Except.map, decision]
    | missing => simp [judge, rule, hh, hg, Except.map, decision]
    | invalid => simp [judge, rule, hh, hg, Except.map, decision]

theorem judge_returned {l : Limiter} {c : Clock} {line : Nat} {request : Request} {d : Decision}
    (returned : (l.judge c line request).result = .ok d) :
    (l.counted? request = none ∧ (l.judge c line request).state = l ∧
      d = decision line request (l.uncounted request)) ∨
    ∃ identity refusal?, l.counted? request = some identity ∧
      (l.attempt c identity).result = .ok refusal? ∧
      (l.judge c line request).state = (l.attempt c identity).state ∧
      d = decision line request (ruling refusal?) := by
  cases h : l.counted? request with
  | none =>
    obtain ⟨hs, -, hr⟩ := judge_of_not_counted h c line
    rw [returned] at hr
    exact .inl ⟨rfl, hs, Except.ok.inj hr⟩
  | some identity =>
    have ho := judge_of_counted h c line
    rw [ho, Outcome.result_map] at returned
    cases hr : (l.attempt c identity).result with
    | error fault =>
      rw [hr] at returned
      cases returned
    | ok refusal? =>
      rw [hr] at returned
      exact .inr ⟨identity, refusal?, rfl, hr, by rw [ho]; rfl, (Except.ok.inj returned).symm⟩

theorem judge_spec (l : Limiter) (c : Clock) (line : Nat) (request : Request) :
    let o := l.judge c line request
    (o.state = l ∧ o.samples = 0) ∨
      ∃ identity, l.identity? request.client request.authorization
          (endpointName request.verb request.resource) = some identity ∧
        o.state = (l.attempt c identity).state ∧ o.samples = (l.attempt c identity).samples := by
  intro o
  cases h : l.counted? request with
  | none =>
    obtain ⟨hs, hn, -⟩ := judge_of_not_counted h c line
    exact .inl ⟨hs, hn⟩
  | some identity =>
    have ho : o = _ := judge_of_counted h c line
    rw [ho]
    exact .inr ⟨identity, identity?_of_counted h, rfl, rfl⟩

/-! Calls on a limiter. The last four go to the registries of its ledger past the limiter. -/

inductive Call
  | attempt (identity : Identity)
  | advise (identity : Identity)
  | judge (line : Nat) (request : Request)
  | purge
  | clear
  | approve (token : String)
  | disapprove (token : String)
  | approveBasic (credentials : Credentials)
  | disapproveBasic (credentials : Credentials)
  | markHostile (ip : String)
  | unmarkHostile (ip : String)
  | addHostile (ip : String)
  | removeHostile (ip : String)
  | addApproved (token : String)
  | removeApproved (token : String)
  deriving DecidableEq

inductive Answer
  | refusal (refusal? : Option Refusal)
  | seconds (n : Nat)
  | decision (d : Decision)
  | number (n : Nat)
  | changed (b : Bool)
  | done
  deriving DecidableEq

def direct (l : Limiter) (change : Ledger → Bool × Ledger) : Outcome Limiter Answer :=
  { result := .ok (.changed (change l.ledger).1), state := l.withLedger (change l.ledger).2 }

def perform (l : Limiter) (c : Clock) : Call → Outcome Limiter Answer
  | .attempt identity => (l.attempt c identity).map .refusal
  | .advise identity => (l.retryAfter c identity).map .seconds
  | .judge line request => (l.judge c line request).map .decision
  | .purge => (l.purge c).map .number
  | .clear => { result := .ok .done, state := l.clear }
  | .approve token => (l.approve token).map fun _ => .done
  | .disapprove token => (l.disapprove token).map fun _ => .done
  | .approveBasic credentials => (l.approveBasic credentials).map fun _ => .done
  | .disapproveBasic credentials => (l.disapproveBasic credentials).map fun _ => .done
  | .markHostile ip => (l.markHostile ip).map .changed
  | .unmarkHostile ip => (l.unmarkHostile ip).map .changed
  | .addHostile ip => l.direct (·.markHostile ip)
  | .removeHostile ip => l.direct (·.unmarkHostile ip)
  | .addApproved token => l.direct (·.addApproved token)
  | .removeApproved token => l.direct (·.removeApproved token)

def Call.identity? (p : Policy) : Call → Option Identity
  | attempt identity => some identity
  | judge _ request => p.identity? request.client request.authorization
      (endpointName request.verb request.resource)
  | _ => none

theorem policy_perform (l : Limiter) (c : Clock) (call : Call) :
    (l.perform c call).state.policy = l.policy := by
  cases call with
  | attempt identity => exact l.policy_attempt c identity
  | advise identity => simp only [perform, Outcome.state_map, state_retryAfter]
  | judge line request =>
    rcases l.judge_spec c line request with ⟨hs, -⟩ | ⟨identity, -, hs, -⟩
    · simp only [perform, Outcome.state_map, hs]
    · simp only [perform, Outcome.state_map, hs, policy_attempt]
  | markHostile ip =>
    simp only [perform, markHostile, Outcome.state_map]
    split <;> rfl
  | unmarkHostile ip =>
    simp only [perform, unmarkHostile, Outcome.state_map]
    split <;> rfl
  | _ => rfl

/-- A call makes one attempt, purges, clears, or leaves every log alone. -/
theorem perform_cases (l : Limiter) (c : Clock) (call : Call) :
    let o := l.perform c call
    (∃ identity, call.identity? l.policy = some identity ∧
        o.state = (l.attempt c identity).state ∧ o.samples = (l.attempt c identity).samples) ∨
      (call = .purge ∧ o.state = (l.purge c).state ∧ o.samples = 3) ∨
      (call = .clear ∧ o.state = l.clear) ∨
      ∀ kind, o.state.ledger.log kind = l.ledger.log kind := by
  cases call with
  | attempt identity => exact .inl ⟨identity, rfl, rfl, rfl⟩
  | advise identity =>
    refine .inr (.inr (.inr fun kind => ?_))
    simp only [perform, Outcome.state_map, state_retryAfter]
  | judge line request =>
    rcases l.judge_spec c line request with ⟨hs, -⟩ | ⟨identity, hi, hs, hn⟩
    · refine .inr (.inr (.inr fun kind => ?_))
      simp only [perform, Outcome.state_map, hs]
    · exact .inl ⟨identity, hi, hs, hn⟩
  | purge => exact .inr (.inl ⟨rfl, rfl, (l.ledger.purge_spec c l.window).1⟩)
  | clear => exact .inr (.inr (.inl ⟨rfl, rfl⟩))
  | markHostile ip =>
    refine .inr (.inr (.inr fun kind => ?_))
    simp only [perform, markHostile, Outcome.state_map]
    split <;> cases kind <;> rfl
  | unmarkHostile ip =>
    refine .inr (.inr (.inr fun kind => ?_))
    simp only [perform, unmarkHostile, Outcome.state_map]
    split <;> cases kind <;> rfl
  | _ =>
    refine .inr (.inr (.inr fun kind => ?_))
    cases kind <;> rfl

theorem perform_queue (l : Limiter) (c : Clock) (call : Call) (hl : l.limit ≠ 0)
    (place : IdentityKind × String) :
    let o := l.perform c call
    let q := l.ledger.queue place
    o.state.policy = l.policy ∧
      (o.state.ledger.queue place = q ∨
      ((∃ identity, call.identity? l.policy = some identity ∧ identity.place = place) ∧
        let r := q.offer l.limit l.window c.now (c.reading 1)
        1 + r.samples ≤ o.samples ∧ o.state.ledger.queue place = r.state) ∨
      (call = .purge ∧ ∃ now ∈ o.readings c, o.state.ledger.queue place = q.expire now l.window) ∨
      (call = .clear ∧ o.state.ledger.queue place = [])) := by
  refine ⟨l.policy_perform c call, ?_⟩
  rcases l.perform_cases c call with ⟨identity, hi, hs, hn⟩ | ⟨hcall, hs, hn⟩ | ⟨hcall, hs⟩ | hs
  · obtain ⟨-, hr, hq, -⟩ := l.attempt_spec c identity hl
    have hplace := hq place
    rw [hs, hn]
    by_cases he : identity.place = place
    · subst he
      rw [if_pos rfl] at hplace
      exact .inr (.inl ⟨⟨identity, hi, rfl⟩, hr, hplace⟩)
    · rw [if_neg (Ne.symm he)] at hplace
      exact .inl hplace
  · refine .inr (.inr (.inl ⟨hcall, c.reading place.1.turn, ?_, ?_⟩))
    · refine Outcome.mem_readings.2 ⟨place.1.turn, ?_, rfl⟩
      rw [hn]
      cases place.1 <;> decide
    · rw [hs]
      exact (l.ledger.purge_spec c l.window).2.2 place
  · obtain ⟨kind, key⟩ := place
    refine .inr (.inr (.inr ⟨hcall, ?_⟩))
    rw [hs]
    cases kind <;> exact AttemptLog.attempts_empty key
  · exact .inl (congrArg (AttemptLog.attempts · place.2) (hs place.1))

end Throttle.Limiter
