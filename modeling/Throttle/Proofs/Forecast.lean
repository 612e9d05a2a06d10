import Throttle.Proofs.Advice
import Throttle.Proofs.Tracking

/-!
# Forecasts

A forecast counts entries that an attempt would first let expire. The two agree all the same:
no queue is longer than the limit, so an attempt finds the window full exactly if nothing
expires from a queue at the limit, and that is so exactly if its oldest entry stays in the
window until the tolerance past the clock. The last instant, where the forecast stops, and a
window that reaches back before the first one make no exception.
-/

namespace Throttle
namespace Queue

variable {q : Queue} {limit : Nat} {window : Span} {now : Instant}

theorem forecast_of_lt (h : q.length < limit) : q.forecast limit window now = now := by
  rw [forecast, if_pos h]

theorem forecast_cons {oldest : Instant} {rest : Queue} (h : limit ≤ (oldest :: rest).length) :
    forecast (oldest :: rest) limit window now = oldest.afterOrLatest window := by
  rw [forecast, if_neg (Nat.not_lt_of_le h), List.head?_cons]

theorem state_offer_of_full {later : Instant} (h : limit ≤ (q.expire now window).length) :
    (q.offer limit window now later).state = q.expire now window := by
  simp only [offer, h, if_true]

theorem Fits.full_iff (h : q.Fits limit) : limit ≤ (q.expire now window).length ↔
    limit ≤ q.length ∧ q.expire now window = q := by
  have hs := expire_suffix now window q
  have hle := hs.length_le
  have hshort := h.short
  constructor
  · intro hfull
    exact ⟨hfull.trans hle, hs.eq_of_length (by omega)⟩
  · rintro ⟨hfull, he⟩
    rw [he]
    exact hfull

theorem Fits.full_iff_forecast (h : q.Fits limit) (hl : limit ≠ 0) (hw : 0 ≤ window.ns)
    (room : now.ns + 1000 ≤ Instant.latest.ns)
    (stored : ∀ t ∈ q, Instant.earliest.ns + 1000 ≤ t.ns) :
    limit ≤ (q.expire now window).length ↔ now.ns + 1000 ≤ (q.forecast limit window now).ns := by
  rw [h.full_iff]
  by_cases hlen : q.length < limit
  · rw [forecast_of_lt hlen]
    apply iff_of_false
    · exact fun hfull => absurd hfull.1 (Nat.not_le_of_lt hlen)
    · omega
  · have hfull := Nat.le_of_not_lt hlen
    cases q with
    | nil => exact absurd (Nat.le_zero.1 hfull) hl
    | cons oldest rest =>
      -- Without a cutoff nothing expires; then `hold` keeps the forecast past the clock as well.
      have hold := stored oldest List.mem_cons_self
      rw [forecast_cons hfull, expire_cons_eq_self_iff, Instant.afterOrLatest_ns hw]
      simp only [hfull, true_and]
      omega

end Queue

theorem Ledger.result_forecast (s : Ledger) (c : Clock) (identity : Identity) (limit : Nat)
    (window : Span) : (s.forecast c identity limit window).result =
      .ok ((s.attempts identity).forecast limit window c.now) := rfl

namespace Limiter

variable {p : Policy} {l : Limiter} {c : Clock} {identity : Identity}

theorem window_nonneg (l : Limiter) : 0 ≤ l.window.ns := by
  rw [window, window_ns l.valid]
  omega

def FindsFull (l : Limiter) (c : Clock) (identity : Identity) : Prop :=
  ∃ refusal, (l.attempt c identity).result = .ok (some refusal) ∧ refusal.reason = .full

theorem findsFull_iff (hl : l.limit ≠ 0) : l.FindsFull c identity ↔
    l.limit ≤ ((l.ledger.attempts identity).expire c.now l.window).length := by
  constructor
  · rintro ⟨refusal, hresult, hreason⟩
    obtain ⟨-, -, -, hfull⟩ := attempt_refused hl hresult
    exact hfull.1 hreason
  · intro hfull
    obtain ⟨-, -, -, hr⟩ := l.attempt_spec c identity hl
    have ho := Queue.offer_offered (l.ledger.attempts identity) l.limit l.window c.now (c.reading 1)
    rw [FindsFull, hr]
    generalize (l.ledger.attempts identity).offer l.limit l.window c.now (c.reading 1) = o at ho
    cases ho with
    | full => exact ⟨_, rfl, rfl⟩
    | recorded room => exact absurd hfull (Nat.not_le_of_lt room)
    | crowded room => exact absurd hfull (Nat.not_le_of_lt room)
    | fault room => exact absurd hfull (Nat.not_le_of_lt room)

theorem Tidy.findsFull_iff (h : Tidy p l) (hl : l.limit ≠ 0) : l.FindsFull c identity ↔
    l.limit ≤ (l.ledger.attempts identity).length ∧
      (l.ledger.attempts identity).expire c.now l.window = l.ledger.attempts identity := by
  rw [Limiter.findsFull_iff hl, (h.fits identity).full_iff]

theorem Tidy.attempts_of_findsFull (h : Tidy p l) (hl : l.limit ≠ 0)
    (full : l.FindsFull c identity) :
    (l.attempt c identity).state.ledger.attempts identity = l.ledger.attempts identity := by
  obtain ⟨hlen, he⟩ := (h.findsFull_iff hl).1 full
  obtain ⟨-, -, hq, -⟩ := l.attempt_spec c identity hl
  rw [Ledger.attempts_eq_queue, hq, if_pos rfl, Queue.state_offer_of_full (by rw [he]; exact hlen),
    he]

/-- After any run, whatever its clocks read: an attempt finds the window full exactly if the
forecast just before it lies past the clock by the tolerance or more, and then it leaves that
forecast as it was. -/
theorem findsFull_iff_forecast {first : Limiter} {events : List Event}
    (h : create p = .ok (first, events)) (hl : 1 ≤ p.requestLimit) (run : List (Call × Clock))
    (identity : Identity) {now : Instant} (room : now.ns + 1000 ≤ Instant.latest.ns)
    (stored : ∀ t ∈ (Run.final perform first run).ledger.attempts identity,
      Instant.earliest.ns + 1000 ≤ t.ns) :
    let l := Run.final perform first run
    let asked := l.ledger.forecast (.still now) identity p.requestLimit p.window
    let after := (l.attempt (.still now) identity).state
    asked.state = l.ledger ∧ ∃ next, asked.result = .ok next ∧
      (l.FindsFull (.still now) identity ↔ now.ns + 1000 ≤ next.ns) ∧
      (l.FindsFull (.still now) identity →
        (after.ledger.forecast (.still now) identity p.requestLimit p.window).result = .ok next) := by
  intro l asked after
  have ht : Tidy p l := tidy_of_run h run
  have hne : l.limit ≠ 0 := by rw [ht.limit_eq]; omega
  have hiff := (ht.fits identity).full_iff_forecast hne l.window_nonneg room stored
  have hfull : l.FindsFull (.still now) identity ↔ _ := findsFull_iff hne
  rw [ht.limit_eq, ht.window_eq] at hiff hfull
  refine ⟨l.ledger.state_forecast _ _ _ _, _, l.ledger.result_forecast _ _ _ _, hfull.trans hiff,
    fun full => ?_⟩
  rw [Ledger.result_forecast, ht.attempts_of_findsFull hne full]

/-- At the tolerance before the forecast the window is full, and a nanosecond later it is not. -/
theorem findsFull_iff_forecast_of_edge :
    visited.FindsFull (.still (.ofNs 1999999000)) visitor ∧
      ¬ visited.FindsFull (.still (.ofNs 1999999001)) visitor := by
  have hstored : ∀ t ∈ visited.ledger.attempts visitor, Instant.earliest.ns + 1000 ≤ t.ns := by
    decide +kernel
  have hiff : ∀ now : Instant, now.ns + 1000 ≤ Instant.latest.ns →
      (visited.FindsFull (.still now) visitor ↔ now.ns + 1000 ≤ (Instant.ofNs 2000000000).ns) := by
    intro now room
    obtain ⟨-, next, hnext, hfull, -⟩ := findsFull_iff_forecast (p := sparse) rfl (by decide)
      [(.attempt visitor, .still (.ofNs 0))] visitor room hstored
    have he : next = .ofNs 2000000000 := (Except.ok.inj hnext).symm
    rw [← he]
    exact hfull
  refine ⟨(hiff _ (by decide)).2 (by decide), fun full => ?_⟩
  exact absurd ((hiff _ (by decide)).1 full) (by decide)

end Limiter
end Throttle
