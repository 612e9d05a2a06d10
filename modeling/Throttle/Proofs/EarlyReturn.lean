import Throttle.Proofs.Advice
import Throttle.Proofs.Forecast

/-!
# Coming back early

No client is told to wait longer than it has to. The advice rounds up to seconds what is left
in whole milliseconds, so every second that it counts but the last ends a millisecond or more
before the oldest entry leaves the window, and the tolerance of expiry is a thousandth of that.
Until then the queue stays as it is, whoever reaches it.
-/

namespace Throttle

theorem Span.lt_wholeSeconds_iff {d : Span} {t : Nat} :
    t < d.wholeSeconds ↔ t * 1000000000 + 1000000 ≤ d.ns := by
  unfold wholeSeconds
  split <;> omega

namespace Limiter

variable {p : Policy} {l : Limiter} {q : Queue} {now : Instant} {identity : Identity} {t : Nat}

theorem lt_advice (h : t < l.advice q now now) :
    t = 0 ∨ now.ns + t * 1000000000 + 1000000 ≤ (q.forecast l.limit l.window now).ns := by
  rw [advice, lt_max_iff, Span.lt_wholeSeconds_iff, Instant.since_ns] at h
  omega

theorem exists_later (h : t < l.advice q now now) :
    ∃ later : Instant, later.ns = now.ns + t * 1000000000 := by
  have hlow := now.lower
  have hhigh := now.upper
  have hend := (q.forecast l.limit l.window now).upper
  have ht := lt_advice h
  exact ⟨⟨now.ns + t * 1000000000, by omega, by omega⟩, rfl⟩

theorem expire_before_advice (hlen : l.limit ≤ q.length) (he : q.expire now l.window = q)
    (h : t < l.advice q now now) {r : Instant} (hfirst : now ≤ r)
    (hlast : r.ns ≤ now.ns + t * 1000000000) : q.expire r l.window = q := by
  cases q with
  | nil => exact Queue.expire_nil r l.window
  | cons oldest rest =>
    have ht := lt_advice h
    rw [Queue.forecast_cons hlen, Instant.afterOrLatest_ns l.window_nonneg] at ht
    rw [Queue.expire_cons_eq_self_iff] at he ⊢
    rw [Instant.le_iff] at hfirst
    omega

def Within (p : Policy) (place : IdentityKind × String) (first last : Instant)
    (step : Call × Clock) : Prop :=
  step.1 ≠ .clear ∧
    ((step.1 = .purge ∨ ∃ i, step.1.identity? p = some i ∧ i.place = place) →
      ∀ n, first ≤ step.2.reading n ∧ step.2.reading n ≤ last)

section

variable {place : IdentityKind × String} {first last : Instant}

theorem queue_perform_within (hl : l.limit ≠ 0) (hlen : l.limit ≤ q.length)
    (holds : ∀ r, first ≤ r → r ≤ last → q.expire r l.window = q)
    (hq : l.ledger.queue place = q) {call : Call} {c : Clock}
    (within : Within l.policy place first last (call, c)) :
    (l.perform c call).state.ledger.queue place = q := by
  obtain ⟨hclear, hread⟩ := within
  obtain ⟨-, hcall⟩ := l.perform_queue c call hl place
  rw [hq] at hcall
  rcases hcall with he | ⟨hi, -, he⟩ | ⟨hpurge, r, hr, he⟩ | ⟨hc, -⟩
  · exact he
  · obtain ⟨hfirst, hlast⟩ := hread (.inr hi) 0
    have hsame := holds c.now hfirst hlast
    rw [he, Queue.state_offer_of_full (by rw [hsame]; exact hlen), hsame]
  · obtain ⟨n, -, rfl⟩ := Outcome.mem_readings.1 hr
    obtain ⟨hfirst, hlast⟩ := hread (.inl hpurge) n
    rw [he, holds _ hfirst hlast]
  · exact absurd hc hclear

theorem queue_final_within (hl : l.limit ≠ 0) (hlen : l.limit ≤ q.length)
    (holds : ∀ r, first ≤ r → r ≤ last → q.expire r l.window = q)
    (hq : l.ledger.queue place = q) {run : List (Call × Clock)}
    (within : ∀ step ∈ run, Within l.policy place first last step) :
    let m := Run.final perform l run
    m.policy = l.policy ∧ m.ledger.queue place = q := by
  induction run generalizing l with
  | nil => exact ⟨rfl, hq⟩
  | cons head rest ih =>
    obtain ⟨call, c⟩ := head
    obtain ⟨hcall, hrest⟩ := List.forall_mem_cons.1 within
    have hp := l.policy_perform c call
    have hlimit := limit_congr hp
    have hwindow := window_congr hp
    obtain ⟨hpm, hqm⟩ := ih (by rw [hlimit]; exact hl) (by rw [hlimit]; exact hlen)
      (by rw [hwindow]; exact holds) (queue_perform_within hl hlen holds hq hcall)
      (by rw [hp]; exact hrest)
    exact ⟨hpm.trans hp, hqm⟩

theorem findsFull_final_within (hl : l.limit ≠ 0) (hlen : l.limit ≤ q.length)
    (holds : ∀ r, first ≤ r → r ≤ last → q.expire r l.window = q)
    (hq : l.ledger.queue identity.place = q) {run : List (Call × Clock)}
    (within : ∀ step ∈ run, Within l.policy identity.place first last step) {c : Clock}
    (hfirst : first ≤ c.now) (hlast : c.now ≤ last) :
    (Run.final perform l run).FindsFull c identity := by
  obtain ⟨hp, hqm⟩ := queue_final_within hl hlen holds hq within
  have hlimit := limit_congr hp
  rw [findsFull_iff (by rw [hlimit]; exact hl), Ledger.attempts_eq_queue, hqm, window_congr hp,
    hlimit, holds c.now hfirst hlast]
  exact hlen

end

/-- After any run, whatever its clocks read: a client that finds the window full is told a number
of seconds, and after any smaller number it still does. Others may call in between, and at its own
place too as long as their clocks read no earlier than the refusal and no later than its return. -/
theorem findsFull_before_advice {first : Limiter} {events : List Event}
    (h : create p = .ok (first, events)) (hl : 1 ≤ p.requestLimit) (run : List (Call × Clock))
    {refusal : Refusal} {seconds : Nat}
    (refused : ((Run.final perform first run).attempt (.still now) identity).result =
      .ok (some refusal))
    (full : refusal.reason = .full) (told : refusal.retryAfter = some seconds)
    (early : t < seconds) :
    let m := ((Run.final perform first run).attempt (.still now) identity).state
    ∃ later : Instant, later.ns = now.ns + t * 1000000000 ∧
      ∀ between : List (Call × Clock),
        (∀ step ∈ between, Within p identity.place now later step) →
        ∀ c : Clock, c.now = later → (Run.final perform m between).FindsFull c identity := by
  have ht := tidy_of_run h run
  generalize Run.final perform first run = l at *
  have hne : l.limit ≠ 0 := by rw [ht.limit_eq]; omega
  obtain ⟨hlen, he⟩ := (ht.findsFull_iff hne).1 ⟨refusal, refused, full⟩
  obtain ⟨hpolicy, hq, hadvice, -⟩ := attempt_refused_spec hne refused
  rw [Ledger.attempts_eq_queue] at hlen he
  change Queue.expire now l.window (l.ledger.queue identity.place) = _ at he
  -- The refusal left the queue as it was, and the advice speaks of that queue.
  rw [he] at hq hadvice
  generalize l.ledger.queue identity.place = q at *
  have hadvised : t < l.advice q now now := by
    rw [told] at hadvice
    rwa [← Option.some.inj hadvice]
  obtain ⟨later, hlater⟩ := exists_later hadvised
  refine ⟨later, hlater, fun between within c hc => ?_⟩
  subst hc
  have holds : ∀ r, now ≤ r → r ≤ c.now → q.expire r l.window = q := by
    intro r hfirst hlast
    apply expire_before_advice hlen he hadvised hfirst
    rw [← hlater]
    exact Instant.le_iff.1 hlast
  generalize (l.attempt (.still now) identity).state = m at *
  rw [← ht.policy, ← hpolicy] at within
  rw [← limit_congr hpolicy] at hne hlen
  rw [← window_congr hpolicy] at holds
  apply findsFull_final_within hne hlen holds hq within
  · rw [Instant.le_iff]
    omega
  · exact le_refl _

/-- Two seconds are told, and after one of them a purge and another attempt have changed nothing. -/
theorem findsFull_after_one_of_two :
    let m := (visited.attempt (.still (.ofNs 500000000)) visitor).state
    let between := [(Call.purge, Clock.still (.ofNs 1000000000)),
      (.attempt visitor, .still (.ofNs 1200000000)), (.attempt (.ip "10.0.0.2"), .still (.ofNs 0))]
    (Run.final perform m between).FindsFull (.still (.ofNs 1500000000)) visitor := by
  intro m between
  have hrefused : (visited.attempt (.still (.ofNs 500000000)) visitor).result =
      .ok (some (refuse visitor .full (some 2))) := by decide +kernel
  obtain ⟨later, hlater, hfull⟩ := findsFull_before_advice (p := sparse) rfl (by decide)
    [(.attempt visitor, .still (.ofNs 0))] hrefused rfl rfl (t := 1) (by decide)
  have he : later = .ofNs 1500000000 := Instant.ext hlater
  subst he
  refine hfull between ?_ _ rfl
  have hread : ∀ {r : Instant}, .ofNs 500000000 ≤ r ∧ r ≤ .ofNs 1500000000 →
      ∀ call, call ≠ .clear → Within sparse visitor.place (.ofNs 500000000) (.ofNs 1500000000)
        (call, .still r) :=
    fun hr call hc => ⟨hc, fun _ _ => hr⟩
  have helsewhere : Within sparse visitor.place (.ofNs 500000000) (.ofNs 1500000000)
      (.attempt (.ip "10.0.0.2"), .still (.ofNs 0)) := by
    simp [Within, Call.identity?, visitor, Identity.place, Identity.logKey]
  simp only [between, List.forall_mem_cons]
  exact ⟨hread (by decide) _ (by simp), hread (by decide) _ (by simp), helsewhere, by simp⟩

end Limiter
end Throttle
