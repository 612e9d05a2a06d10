import Throttle.Proofs.Charging
import Throttle.Proofs.Forecast

/-!
# Scopes that count nothing

A policy with any scope passes for one that limits requests. But an endpoint is counted by its
owner, and only the other two scopes give it one: a policy with the endpoint scope alone finds an
identity for no request, and nobody is told. With an owner some request gets limited: made again
after the clock was set back by the tolerance, it finds the window full or no free instant.
-/

namespace Throttle
namespace Policy

variable {p : Policy}

/-- Some request of a client with an address is counted. -/
def Counts (p : Policy) : Prop :=
  ∃ client authorization path identity,
    client ≠ "" ∧ p.identity? client authorization path = some identity

/-- Some request is limited after some run. -/
def Limits (p : Policy) : Prop :=
  ∃ first events run c line request d, Limiter.create p = .ok (first, events) ∧
    ((Run.final Limiter.perform first run).judge c line request).result = .ok d ∧
    d.ruling.status = 429

/-- A scope is on that can own an endpoint. -/
def HasOwner (p : Policy) : Prop := p.byIp = true ∨ p.byUser = true

instance (p : Policy) : Decidable p.HasOwner := inferInstanceAs (Decidable (_ ∨ _))

def EndpointsAlone (p : Policy) : Prop := p.byEndpoint = true ∧ ¬ p.HasOwner

theorem hasOwner_of_identity {client authorization path : String} {i : Identity}
    (h : p.identity? client authorization path = some i) : p.HasOwner := by
  unfold HasOwner
  by_contra hnone
  rw [not_or, Bool.not_eq_true, Bool.not_eq_true] at hnone
  simp [identity?, hnone.1, hnone.2] at h

theorem exists_identity (h : p.HasOwner) {client authorization : String} (hc : client ≠ "")
    (ha : authorization ≠ "") (path : String) :
    ∃ i, p.identity? client authorization path = some i := by
  cases hu : p.byUser with
  | true => cases he : p.byEndpoint <;> simp [identity?, hu, he, ha]
  | false =>
    have hip : p.byIp = true := h.resolve_right (by simp [hu])
    cases he : p.byEndpoint <;> simp [identity?, hu, hip, he, hc]

theorem counts_iff : p.Counts ↔ p.HasOwner := by
  constructor
  · rintro ⟨client, authorization, path, i, -, hi⟩
    exact hasOwner_of_identity hi
  · intro h
    have hc : "10.0.0.1" ≠ "" := by decide
    have ha : "tok" ≠ "" := by decide
    obtain ⟨i, hi⟩ := exists_identity h hc ha "GET|/"
    exact ⟨"10.0.0.1", "tok", "GET|/", i, hc, hi⟩

theorem isScoped_iff : p.isScoped = true ↔ p.HasOwner ∨ p.byEndpoint = true := by
  rw [isScoped, Bool.or_eq_true, Bool.or_eq_true, HasOwner]

theorem noScope_mem_warnings_iff : .noScope ∈ p.warnings ↔ ¬ p.isScoped = true := by
  unfold warnings
  split <;> split <;> simp_all

end Policy

namespace Queue

variable {q : Queue} {newest now : Instant}

theorem expire_singleton_of_le {window : Span} (hw : 0 ≤ window.ns) (h : now.ns + 1000 ≤ newest.ns) :
    expire now window [newest] = [newest] := by
  rw [expire_cons_eq_self_iff]
  omega

theorem refused_of_edge (limit : Nat) {window : Span}
    (last : (q.expire now window).getLast? = some newest) (edge : newest.ns = now.ns + 1000) :
    ∃ reason, (q.offer limit window now now).result = .ok (.refused reason) := by
  have ho := offer_offered q limit window now now
  generalize q.offer limit window now now = o at ho
  generalize q.expire now window = kept at ho last
  cases ho with
  | full => exact ⟨_, rfl⟩
  | crowded => exact ⟨_, rfl⟩
  | fault room past gap =>
    cases last.symm.trans past
    exact absurd edge gap
  | recorded room appended ok state =>
    -- Every way of appending needs the newest entry elsewhere or a clock that moves on.
    cases appended with
    | crowded => cases ok
    | fault => cases ok
    | fresh behind =>
      have hlt := Instant.lt_iff.1 (behind newest last)
      omega
    | moved moved ahead gap =>
      cases last.symm.trans moved
      exact absurd edge gap
    | reread reread edge passed =>
      have hlt := Instant.lt_iff.1 passed
      omega

end Queue

namespace Limiter

variable {l : Limiter} {i : Identity} {now newest : Instant} {request : Request}

theorem queue_attempt_untracked (hl : l.limit ≠ 0) (untracked : l.ledger.queue i.place = [])
    (c : Clock) : (l.attempt c i).state.ledger.queue i.place = [c.now] := by
  obtain ⟨-, -, hq, -⟩ := l.attempt_spec c i hl
  rw [hq, if_pos rfl, Ledger.attempts_eq_queue, untracked, Queue.offer_nil hl]

theorem refused_of_edge (hl : l.limit ≠ 0) (single : l.ledger.queue i.place = [newest])
    (edge : newest.ns = now.ns + 1000) :
    ∃ refusal, (l.attempt (.still now) i).result = .ok (some refusal) := by
  have hstay : Queue.expire now l.window [newest] = [newest] :=
    Queue.expire_singleton_of_le l.window_nonneg edge.ge
  obtain ⟨reason, hreason⟩ := Queue.refused_of_edge l.limit (congrArg List.getLast? hstay) edge
  obtain ⟨-, -, -, hr⟩ := l.attempt_spec (.still now) i hl
  rw [Ledger.attempts_eq_queue, single] at hr
  exact ⟨_, hr.trans (congrArg _ hreason)⟩

theorem again_refused (untracked : l.ledger.queue i.place = [])
    (edge : newest.ns = now.ns + 1000) :
    ∃ refusal, ((l.attempt (.still newest) i).state.attempt (.still now) i).result =
      .ok (some refusal) := by
  by_cases hl : l.limit = 0
  · rw [(attempt_zero hl _ i).2]
    exact ⟨_, (attempt_zero hl _ i).1⟩
  · have hlimit := limit_congr (l.policy_attempt (.still newest) i)
    exact refused_of_edge (hlimit.trans_ne hl) (queue_attempt_untracked hl untracked _) edge

theorem gate_approve (l : Limiter) {token : String} (h : token ≠ "") :
    (l.approve token).state.gate token = .accepted :=
  gate_eq_accepted_iff.2 fun _ => ⟨h, Registry.mem_add.2 (.inl rfl)⟩

theorem judge_again_limited (hc : l.counted? request = some i)
    (untracked : l.ledger.queue i.place = []) (edge : newest.ns = now.ns + 1000) :
    ∃ refusal, ((after newest l (1, request)).judge (.still now) 2 request).result =
      .ok (decision 2 request (.limited refusal)) := by
  have hagain := counted?_after newest l (1, request) request
  rw [hc] at hagain
  obtain ⟨refusal, hr⟩ := again_refused untracked edge
  refine ⟨refusal, ?_⟩
  rw [judge_of_counted hagain, Outcome.result_map, after_of_counted hc, hr]
  rfl

end Limiter

namespace Policy

variable {p : Policy}

theorem limits_of_hasOwner (valid : p.Valid) (h : p.HasOwner) : p.Limits := by
  let request : Request := ⟨"10.0.0.1", "GET", "/", "tok"⟩
  have hclient : request.client ≠ "" := by decide
  have htoken : request.authorization ≠ "" := by decide
  obtain ⟨i, hi⟩ := exists_identity h hclient htoken (endpointName request.verb request.resource)
  -- The token is approved first, so that the gate accepts it under any policy.
  let l : Limiter := ((⟨p, valid, .empty⟩ : Limiter).approve request.authorization).state
  have hhostile : l.isHostile request.client = false := by
    rw [← Bool.not_eq_true, Limiter.isHostile_iff]
    exact fun hmem => absurd hmem.2 Std.ExtTreeSet.not_mem_empty
  have hc : l.counted? request = some i :=
    Limiter.counted?_eq_some_iff.2 ⟨hhostile, Limiter.gate_approve _ htoken, hi⟩
  have huntracked : l.ledger.queue i.place = [] := Ledger.queue_empty i.place
  have hedge : (Instant.ofNs 1000).ns = (Instant.ofNs 0).ns + 1000 := rfl
  obtain ⟨refusal, hr⟩ := Limiter.judge_again_limited hc huntracked hedge
  exact ⟨_, _, [(.approve "tok", .still (.ofNs 0)), (.judge 1 request, .still (.ofNs 1000))], _, 2,
    request, _, Limiter.create_of_valid valid, hr, rfl⟩

theorem hasOwner_of_limits (h : p.Limits) : p.HasOwner := by
  obtain ⟨first, events, run, c, line, request, d, hcreate, returned, limited⟩ := h
  have ht := Limiter.tidy_of_run hcreate run
  cases hi : request.identity? p with
  | some i => exact hasOwner_of_identity hi
  | none =>
    rw [← ht.policy] at hi
    exact absurd limited (Limiter.judge_of_no_identity returned hi).1

theorem limits_iff (valid : p.Valid) : p.Limits ↔ p.HasOwner :=
  ⟨hasOwner_of_limits, limits_of_hasOwner valid⟩

theorem isScoped_iff_counts : (p.isScoped = true ↔ p.Counts) ↔ ¬ p.EndpointsAlone := by
  rw [isScoped_iff, counts_iff, or_iff_left_iff_imp, EndpointsAlone, not_and_not_right]

theorem noScope_iff_unlimited (valid : p.Valid) :
    (.noScope ∈ p.warnings ↔ ¬ p.Limits) ↔ ¬ p.EndpointsAlone := by
  rw [noScope_mem_warnings_iff, not_iff_not, limits_iff valid, ← counts_iff]
  exact isScoped_iff_counts

/-- A policy has a scope exactly if it counts some request, and a valid one warns exactly if it
limits none, unless the endpoint scope is alone. What counts and limits is an owner. -/
theorem scope_real_iff (p : Policy) :
    (p.Counts ↔ p.HasOwner) ∧ ((p.isScoped = true ↔ p.Counts) ↔ ¬ p.EndpointsAlone) ∧
      (p.Valid → (p.Limits ↔ p.HasOwner) ∧
        ((.noScope ∈ p.warnings ↔ ¬ p.Limits) ↔ ¬ p.EndpointsAlone)) :=
  ⟨counts_iff, isScoped_iff_counts, fun valid => ⟨limits_iff valid, noScope_iff_unlimited valid⟩⟩

/-- By default requests are limited; without any scope they are not, and that is reported. -/
theorem scope_real_iff_of_default :
    let p : Policy := {}
    let off : Policy := { byUser := false, byEndpoint := false }
    p.isScoped = true ∧ p.Counts ∧ p.Limits ∧ .noScope ∈ off.warnings ∧ ¬ off.Limits := by
  intro p off
  have hnone : ¬ off.HasOwner := by decide
  obtain ⟨hcounts, -, hvalid⟩ := scope_real_iff p
  obtain ⟨hlimits, -⟩ := hvalid (by decide)
  obtain ⟨-, -, hoff⟩ := scope_real_iff off
  obtain ⟨hunlimited, -⟩ := hoff (by decide)
  exact ⟨rfl, hcounts.2 (by decide), hlimits.2 (by decide), by decide,
    fun h => hnone (hunlimited.1 h)⟩

/-- With the endpoint scope alone nothing is counted or limited, and nothing is reported. -/
theorem silent_of_endpointsAlone :
    let p : Policy := { byUser := false }
    p.EndpointsAlone ∧ p.isScoped = true ∧ ¬ p.Counts ∧ ¬ p.Limits ∧ .noScope ∉ p.warnings := by
  intro p
  have hnone : ¬ p.HasOwner := by decide
  exact ⟨⟨rfl, hnone⟩, rfl, fun h => hnone (counts_iff.1 h), fun h => hnone (hasOwner_of_limits h),
    by decide⟩

end Policy
end Throttle
