import Throttle.Proofs.Advice
import Throttle.Proofs.ClosedForm
import Throttle.Proofs.Reordering
import Throttle.Proofs.Request
import Throttle.Proofs.Tracking

/-!
# What a request is charged

The hostile addresses and the gate settle whether a request comes to be counted at all, and one
that does not leaves the limiter as it was. One that does changes the queue of its identity and
nothing else: expired entries go, and an entry is added if and only if the request is serviced.
-/

namespace Throttle
namespace Limiter

variable {p : Policy} {l : Limiter} {request : Request} {c : Clock} {i : Identity}

/-! The status. -/

theorem isHostile_iff {ip : String} :
    l.isHostile ip = true ↔ l.policy.keepsHostile = true ∧ ip ∈ l.ledger.hostile := by
  rw [isHostile, Bool.and_eq_true, Std.ExtTreeSet.contains_iff_mem]

theorem gate_eq_accepted_iff {token : String} : l.gate token = .accepted ↔
    (l.policy.approvedOnly = true → token ≠ "" ∧ token ∈ l.ledger.approved) := by
  unfold gate
  split
  · split
    · simp [*]
    · split <;> simp_all
  · simp [*]

theorem gate_eq_missing_iff {token : String} :
    l.gate token = .missing ↔ l.policy.approvedOnly = true ∧ token = "" := by
  unfold gate
  split
  · split
    · simp [*]
    · split <;> simp [*]
  · simp [*]

theorem gate_eq_invalid_iff {token : String} :
    l.gate token = .invalid ↔
      l.policy.approvedOnly = true ∧ token ≠ "" ∧ token ∉ l.ledger.approved := by
  unfold gate
  split
  · split
    · simp [*]
    · split <;> simp_all
  · simp [*]

def screening (l : Limiter) (request : Request) : Nat :=
  if l.isHostile request.client then 444 else (l.gate request.authorization).status

theorem screening_of_counted (h : l.counted? request = some i) : l.screening request = 200 := by
  obtain ⟨hh, hg, -⟩ := counted?_eq_some_iff.1 h
  simp [screening, hh, hg, Gate.status]

theorem counted?_of_screening (h : l.screening request = 200) :
    l.counted? request = request.identity? l.policy := by
  unfold screening at h
  unfold counted?
  cases hh : l.isHostile request.client with
  | true => simp [hh] at h
  | false =>
    cases hg : l.gate request.authorization with
    | accepted => rfl
    | missing => simp [hh, hg, Gate.status] at h
    | invalid => simp [hh, hg, Gate.status] at h

theorem screening_ne_limited (l : Limiter) (request : Request) : l.screening request ≠ 429 := by
  unfold screening
  split
  · decide
  · cases l.gate request.authorization <;> decide

theorem status_uncounted (l : Limiter) (request : Request) :
    (l.uncounted request).status = l.screening request := by
  unfold uncounted screening
  split
  · rfl
  · cases l.gate request.authorization <;> rfl

/-- How the status of a decision depends on the registries and the policy. -/
structure Screened (l : Limiter) (request : Request) (status : Nat) : Prop where
  dropped : status = 444 ↔
    l.policy.keepsHostile = true ∧ request.client ∈ l.ledger.hostile
  missing : status = 401 ↔
    ¬ (l.policy.keepsHostile = true ∧ request.client ∈ l.ledger.hostile) ∧
      l.policy.approvedOnly = true ∧ request.authorization = ""
  unknown : status = 403 ↔
    ¬ (l.policy.keepsHostile = true ∧ request.client ∈ l.ledger.hostile) ∧
      l.policy.approvedOnly = true ∧ request.authorization ≠ "" ∧
        request.authorization ∉ l.ledger.approved
  known : status ∈ [444, 401, 403, 200, 429]

theorem screened_screening (l : Limiter) (request : Request) :
    l.Screened request (l.screening request) := by
  constructor
  · rw [← isHostile_iff, screening]
    cases l.isHostile request.client <;> cases l.gate request.authorization <;> decide
  · rw [← isHostile_iff, ← gate_eq_missing_iff, screening]
    cases l.isHostile request.client <;> cases l.gate request.authorization <;> decide
  · rw [← isHostile_iff, ← gate_eq_invalid_iff, screening]
    cases l.isHostile request.client <;> cases l.gate request.authorization <;> decide
  · rw [screening]
    cases l.isHostile request.client <;> cases l.gate request.authorization <;> decide

theorem Screened.limited (h : l.Screened request 200) : l.Screened request 429 where
  dropped := by simpa using h.dropped
  missing := by simpa using h.missing
  unknown := by simpa using h.unknown
  known := by simp

theorem screened_ruling (h : l.counted? request = some i) (refusal? : Option Refusal) :
    l.Screened request (ruling refusal?).status := by
  have hs := l.screened_screening request
  rw [screening_of_counted h] at hs
  cases refusal? with
  | none => exact hs
  | some refusal => exact hs.limited

/-! The charge. -/

/-- Only the queue of one place has changed, and only by what expired and by the entry of a
request that was serviced. -/
structure Charged (l m : Limiter) (now : Instant) (place : IdentityKind × String)
    (status : Nat) : Prop where
  serviced : status = 200 → ∃ stamp,
    m.ledger.queue? place = some ((l.ledger.queue place).remaining now l.window ++ [stamp]) ∧
      ∀ t ∈ (l.ledger.queue place).remaining now l.window, t < stamp
  refused : status = 429 →
    m.ledger.queue? place = (l.ledger.queue? place).map (Queue.remaining now l.window)
  elsewhere : ∀ other, other ≠ place → m.ledger.queue? other = l.ledger.queue? other
  policy : m.policy = l.policy
  hostile : m.ledger.hostile = l.ledger.hostile
  approved : m.ledger.approved = l.ledger.approved

theorem queue?_of_remaining {place : IdentityKind × String} {now : Instant}
    (some_left : (l.ledger.queue place).remaining now l.window ≠ []) :
    (l.ledger.queue? place).map (Queue.remaining now l.window) =
      some ((l.ledger.queue place).remaining now l.window) := by
  rw [Ledger.queue_eq_getD] at some_left ⊢
  cases hq : l.ledger.queue? place with
  | none =>
    rw [hq] at some_left
    exact absurd (Queue.remaining_nil now l.window) some_left
  | some q => rfl

theorem attempt_charged_zero (hl : l.limit = 0) (untracked : l.ledger.queue? i.place = none) :
    Charged l (l.attempt c i).state c.now i.place 429 := by
  rw [(attempt_zero hl c i).2]
  constructor
  · intro hstatus
    cases hstatus
  · intro
    rw [untracked]
    rfl
  all_goals intros; rfl

theorem attempt_charged (hl : l.limit ≠ 0) (ascending : (l.ledger.queue i.place).Ascending)
    {refusal? : Option Refusal} (returned : (l.attempt c i).result = .ok refusal?) :
    Charged l (l.attempt c i).state c.now i.place (ruling refusal?).status := by
  have hruled := Ruled.attempt l c i
  refine ⟨fun hstatus => ?_, fun hstatus => ?_, fun other hne => ?_, hruled.policy,
    hruled.hostile, hruled.approved⟩
  · cases refusal? with
    | some refusal => cases hstatus
    | none =>
      rw [← ascending.expire_eq_remaining]
      exact attempt_recorded hl ascending returned
  · cases refusal? with
    | none => cases hstatus
    | some refusal =>
      obtain ⟨hq, some_left, -⟩ := attempt_refused hl returned
      rw [ascending.expire_eq_remaining] at hq some_left
      rw [hq, queue?_of_remaining some_left]
  · rw [queue?_attempt hl, if_neg hne]

theorem Tidy.attempt_charged (h : Tidy p l) {refusal? : Option Refusal}
    (returned : (l.attempt c i).result = .ok refusal?) :
    Charged l (l.attempt c i).state c.now i.place (ruling refusal?).status := by
  by_cases hl : l.limit = 0
  · rw [(attempt_zero hl c i).1] at returned
    cases returned
    apply attempt_charged_zero hl
    have ht := h.ledger.logs i.kind
    rw [← h.limit_eq, hl] at ht
    exact ht.untracked i.logKey
  · exact Limiter.attempt_charged hl (h.fits i).ascending returned

/-! The advice. -/

theorem retryAfter_of_attempt {refusal : Refusal}
    (returned : (l.attempt c i).result = .ok (some refusal)) :
    (refusal.retryAfter.isSome ↔ 1 ≤ l.limit) ∧ ∀ seconds ∈ refusal.retryAfter, 1 ≤ seconds := by
  by_cases hl : l.limit = 0
  · rw [(attempt_zero hl c i).1] at returned
    cases returned
    simp [refuse, hl]
  · obtain ⟨-, -, ⟨m, n, hadvice⟩, -⟩ := attempt_refused hl returned
    rw [hadvice]
    refine ⟨iff_of_true rfl (Nat.pos_of_ne_zero hl), ?_⟩
    rintro _ ⟨⟩
    exact l.advice_pos _ _ _

theorem retryAfter_uncounted (l : Limiter) (request : Request) :
    (l.uncounted request).retryAfter = none := by
  unfold uncounted
  split
  · rfl
  · cases l.gate request.authorization <;> rfl

/-! One decision. -/

section

variable {line : Nat} {d : Decision}

theorem screened_of_judge (returned : (l.judge c line request).result = .ok d) :
    l.Screened request d.ruling.status := by
  rcases judge_returned returned with ⟨-, -, rfl⟩ | ⟨i, refusal?, hc, -, -, rfl⟩
  · have hs := l.screened_screening request
    rwa [← status_uncounted] at hs
  · exact screened_ruling hc refusal?

theorem state_of_judge_not_counted (returned : (l.judge c line request).result = .ok d)
    (serviced : d.ruling.status ≠ 200) (limited : d.ruling.status ≠ 429) :
    (l.judge c line request).state = l := by
  rcases judge_returned returned with ⟨-, hs, -⟩ | ⟨i, refusal?, -, -, -, rfl⟩
  · exact hs
  · cases refusal? with
    | none => exact absurd rfl serviced
    | some refusal => exact absurd rfl limited

theorem judge_of_no_identity (returned : (l.judge c line request).result = .ok d)
    (none_applies : request.identity? l.policy = none) :
    d.ruling.status ≠ 429 ∧ (l.judge c line request).state = l := by
  rcases judge_returned returned with ⟨-, hs, rfl⟩ | ⟨i, -, hc, -⟩
  · refine ⟨?_, hs⟩
    change (l.uncounted request).status ≠ 429
    rw [status_uncounted]
    exact l.screening_ne_limited request
  · have hi : request.identity? l.policy = some i := identity?_of_counted hc
    rw [none_applies] at hi
    cases hi

theorem Tidy.judge_charged (h : Tidy p l) (returned : (l.judge c line request).result = .ok d)
    (hi : request.identity? l.policy = some i)
    (counted : d.ruling.status = 200 ∨ d.ruling.status = 429) :
    Charged l (l.judge c line request).state c.now i.place d.ruling.status := by
  rcases judge_returned returned with ⟨hc, -, rfl⟩ | ⟨j, refusal?, hc, hr, hs, rfl⟩
  · -- A request that is serviced without being counted has no identity.
    change (l.uncounted request).status = 200 ∨ (l.uncounted request).status = 429 at counted
    rw [status_uncounted] at counted
    have hscreen := counted.resolve_right (l.screening_ne_limited request)
    rw [counted?_of_screening hscreen, hi] at hc
    cases hc
  · have hj : request.identity? l.policy = some j := identity?_of_counted hc
    rw [hi] at hj
    cases hj
    rw [hs]
    exact h.attempt_charged hr

theorem retryAfter_of_judge (returned : (l.judge c line request).result = .ok d) :
    (d.ruling.retryAfter.isSome ↔ d.ruling.status = 429 ∧ 1 ≤ l.limit) ∧
      ∀ seconds ∈ d.ruling.retryAfter, 1 ≤ seconds := by
  rcases judge_returned returned with ⟨-, -, rfl⟩ | ⟨i, refusal?, -, hr, -, rfl⟩
  · have hnone : (decision line request (l.uncounted request)).ruling.retryAfter = none :=
      l.retryAfter_uncounted request
    have hne : (decision line request (l.uncounted request)).ruling.status ≠ 429 :=
      (l.status_uncounted request).trans_ne (l.screening_ne_limited request)
    simp [hnone, hne]
  · cases refusal? with
    | none => simp [decision, ruling, Ruling.status, Ruling.retryAfter]
    | some refusal =>
      obtain ⟨hsome, hpos⟩ := retryAfter_of_attempt hr
      exact ⟨hsome.trans ⟨fun hl => ⟨rfl, hl⟩, fun hl => hl.2⟩, hpos⟩

end

/-- After any run and under any clock: a decision that is made is screened first. Unless it comes
out as serviced or limited, or if the request has no identity, the limiter stays as it was; and if
not, the queue of the identity is charged once. The limited are told when to come back, if ever. -/
theorem judge_charges_counted {first : Limiter} {events : List Event}
    (h : create p = .ok (first, events)) (run : List (Call × Clock)) (c : Clock) (line : Nat)
    (request : Request) {d : Decision}
    (returned : ((Run.final perform first run).judge c line request).result = .ok d) :
    let l := Run.final perform first run
    let m := (l.judge c line request).state
    let status := d.ruling.status
    l.policy = p ∧ l.Screened request status ∧
      (status ≠ 200 → status ≠ 429 → m = l) ∧
      (request.identity? p = none → status ≠ 429 ∧ m = l) ∧
      (∀ i, request.identity? p = some i → status = 200 ∨ status = 429 →
        Charged l m c.now i.place status) ∧
      (d.ruling.retryAfter.isSome ↔ status = 429 ∧ 1 ≤ p.requestLimit) ∧
      ∀ seconds ∈ d.ruling.retryAfter, 1 ≤ seconds := by
  intro l m status
  have ht : Tidy p l := tidy_of_run h run
  obtain ⟨hsome, hpos⟩ := retryAfter_of_judge returned
  rw [← ht.limit_eq, ← ht.policy]
  exact ⟨rfl, screened_of_judge returned, state_of_judge_not_counted returned,
    judge_of_no_identity returned, fun i hi hcounted => ht.judge_charged returned hi hcounted,
    hsome, hpos⟩

/-- The second request of a client is limited, and a request from a hostile address is dropped. -/
theorem judge_charges_counted_of_two :
    let p : Policy :=
      { requestLimit := 1, windowSeconds := 2, keepsHostile := true, approvedOnly := true }
    let request : Request := ⟨"10.0.0.1", "GET", "/", "tok"⟩
    let run := [(Call.markHostile "6.6.6.6", Clock.still (.ofNs 0)),
      (.approve "tok", .still (.ofNs 0)), (.judge 1 request, .still (.ofNs 0))]
    let l := Run.final perform ⟨p, by decide, .empty⟩ run
    let limited := l.judge (.still (.ofNs 500000000)) 2 request
    let dropped := l.judge (.still (.ofNs 500000000)) 3 { request with client := "6.6.6.6" }
    limited.state.ledger.queue? (Identity.endpoint "tok" "GET|/").place = some [.ofNs 0] ∧
      dropped.state = l := by
  intro p request run l limited dropped
  have hlimited : limited.result =
      .ok (decision 2 request (.limited (refuse (.endpoint "tok" "GET|/") .full (some 2)))) := by
    decide +kernel
  have hdropped : dropped.result =
      .ok (decision 3 { request with client := "6.6.6.6" } .dropped) := by
    decide +kernel
  obtain ⟨-, -, -, -, hcharged, -⟩ := judge_charges_counted (p := p) rfl run _ 2 request hlimited
  obtain ⟨-, -, hsame, -⟩ := judge_charges_counted (p := p) rfl run _ 3 _ hdropped
  refine ⟨?_, hsame (by decide) (by decide)⟩
  have hqueue : l.ledger.queue? (Identity.endpoint "tok" "GET|/").place = some [.ofNs 0] := by
    decide +kernel
  rw [(hcharged _ (by decide +kernel) (.inr rfl)).refused rfl, hqueue]
  decide +kernel

end Limiter
end Throttle
