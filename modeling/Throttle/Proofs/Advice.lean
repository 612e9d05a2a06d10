import Throttle.Proofs.Limiter

/-!
# Advice to refused clients

A refused client is told whole seconds, and comes back when they have passed under a
clock that never goes back. Whether it is let in then depends on the part of a
millisecond that the advice drops: the tolerance of expiry makes up for less than a
microsecond of it.
-/

namespace Throttle.Limiter

variable {p : Policy} {l : Limiter} {past : List Instant} {now : Instant} {identity : Identity}

/-- What holds between the calls of a run whose clock does not go back. -/
structure Settled (p : Policy) (past : List Instant) (l : Limiter) : Prop where
  policy : l.policy = p
  fits : ∀ place, (l.ledger.queue place).Fits l.limit
  near : ∀ place, Queue.Near past (l.ledger.queue place)

theorem settled_create {first : Limiter} {events : List Event}
    (h : create p = .ok (first, events)) : Settled p [] first := by
  obtain ⟨hp, hs⟩ := create_spec h
  refine ⟨hp, fun place => ?_, fun place => ?_⟩ <;> rw [hs, Ledger.queue_empty]
  · exact Queue.fits_nil _
  · exact Queue.near_nil _

theorem Settled.perform (h : Settled p past l) (hl : p.requestLimit ≠ 0) {c : Clock} {call : Call}
    (forward : (past ++ (l.perform c call).readings c).Pairwise (· ≤ ·)) :
    Settled p (past ++ (l.perform c call).readings c) (l.perform c call).state := by
  have hlimit : l.limit ≠ 0 := by rw [limit, h.policy]; exact hl
  have hq := l.perform_queue c call hlimit
  have hpolicy := (hq (.ip, "")).1
  have hsame := limit_congr hpolicy
  refine ⟨hpolicy.trans h.policy, fun place => ?_, fun place => ?_⟩
  · rw [hsame]
    rcases (hq place).2 with he | ⟨-, -, he⟩ | ⟨-, now, -, he⟩ | ⟨-, he⟩ <;> rw [he]
    · exact h.fits place
    · exact (h.fits place).offer _ _ _
    · exact (h.fits place).expire _ _
    · exact Queue.fits_nil _
  · rcases (hq place).2 with he | ⟨-, hn, he⟩ | ⟨-, now, -, he⟩ | ⟨-, he⟩ <;> rw [he]
    · exact (h.near place).mono
    · have hnow : c.now ∈ (l.perform c call).readings c :=
        Outcome.mem_readings.2 ⟨0, by omega, rfl⟩
      refine (h.near place).offer (fun r hr => ?_) hnow fun hs => ?_
      · exact (List.pairwise_append.1 forward).2.2 r hr c.now hnow
      · exact Outcome.mem_readings.2 ⟨1, by omega, rfl⟩
    · exact ((h.near place).expire _ _).mono
    · exact Queue.near_nil _

def Reached (p : Policy) (now : Instant) (l : Limiter) : Prop :=
  ∃ first events run, create p = .ok (first, events) ∧ l = Run.final perform first run ∧
    (Run.readings perform first run ++ [now]).Pairwise (· ≤ ·)

theorem Reached.settled (h : Reached p now l) (hl : p.requestLimit ≠ 0) :
    ∃ past, Settled p past l ∧ (past ++ [now]).Pairwise (· ≤ ·) := by
  obtain ⟨first, events, run, hc, rfl, forward⟩ := h
  refine ⟨Run.readings Limiter.perform first run, ?_, forward⟩
  have hrun := Run.final_invariant (P := Settled p) (C := fun _ => True)
    (fun past s c call _ hs => hs.perform hl) (fun step _ => trivial)
    (settled_create hc) (List.pairwise_append.1 forward).1
  exact hrun

/-! Between a refusal and the return of its client. -/

def Call.Spares (p : Policy) (place : IdentityKind × String) (call : Call) : Prop :=
  call ≠ .clear ∧ ∀ identity, call.identity? p = some identity → identity.place ≠ place

theorem expire_spared_call {place : IdentityKind × String}
    (ha : (l.ledger.queue place).Ascending) (hl : l.limit ≠ 0) (hw : 1000 ≤ l.window.ns)
    {c : Clock} {call : Call} (spared : call.Spares l.policy place) :
    let o := l.perform c call
    o.state.policy = l.policy ∧ (o.state.ledger.queue place).Ascending ∧
      ∀ t : Instant, (∀ r ∈ o.readings c, r ≤ t) →
        (o.state.ledger.queue place).expire t l.window =
          (l.ledger.queue place).expire t l.window := by
  obtain ⟨hp, hq⟩ := l.perform_queue c call hl place
  refine ⟨hp, ?_⟩
  rcases hq with he | ⟨⟨identity, hi, hplace⟩, -, -⟩ | ⟨-, now, hnow, he⟩ | ⟨hcall, -⟩
  · rw [he]
    exact ⟨ha, fun t _ => rfl⟩
  · exact absurd hplace (spared.2 identity hi)
  · rw [he]
    exact ⟨ha.expire now _, fun t ht => ha.expire_expire hw (ht now hnow)⟩
  · exact absurd hcall spared.1

theorem expire_spared {place : IdentityKind × String}
    (ha : (l.ledger.queue place).Ascending) (hl : l.limit ≠ 0) (hw : 1000 ≤ l.window.ns)
    {run : List (Call × Clock)} (spared : ∀ step ∈ run, step.1.Spares l.policy place) :
    let m := Run.final perform l run
    m.policy = l.policy ∧ ∀ t : Instant, (∀ r ∈ Run.readings perform l run, r ≤ t) →
      (m.ledger.queue place).expire t l.window = (l.ledger.queue place).expire t l.window := by
  induction run generalizing l with
  | nil => exact ⟨rfl, fun t _ => rfl⟩
  | cons head rest ih =>
    obtain ⟨call, c⟩ := head
    obtain ⟨hcall, hrest⟩ := List.forall_mem_cons.1 spared
    obtain ⟨hp, hasc, hq⟩ := expire_spared_call (c := c) ha hl hw hcall
    have hlimit := limit_congr hp
    have hwindow := window_congr hp
    obtain ⟨hpm, hqm⟩ := ih hasc (by rw [hlimit]; exact hl) (by rw [hwindow]; exact hw)
      (by rw [hp]; exact hrest)
    refine ⟨hpm.trans hp, fun t ht => ?_⟩
    rw [Run.readings_cons, List.forall_mem_append] at ht
    rw [hwindow] at hqm
    exact (hqm t ht.2).trans (hq t ht.1)

theorem attempt_refused_spec (hl : l.limit ≠ 0) {refusal : Refusal}
    (refused : (l.attempt (.still now) identity).result = .ok (some refusal)) :
    let kept := (l.ledger.queue identity.place).expire now l.window
    (l.attempt (.still now) identity).state.policy = l.policy ∧
      (l.attempt (.still now) identity).state.ledger.queue identity.place = kept ∧
      refusal.retryAfter = some (l.advice kept now now) ∧
      (refusal.reason = .full ↔ l.limit ≤ kept.length) := by
  intro kept
  obtain ⟨hq, -, ⟨_, _, hadvice⟩, hfull⟩ := attempt_refused hl refused
  refine ⟨l.policy_attempt _ _, ?_, hadvice, hfull⟩
  rw [Ledger.queue_eq_getD, hq]
  rfl

theorem attempt_recorded_iff (hl : l.limit ≠ 0) {c : Clock} {kept : Queue}
    (hk : (l.ledger.queue identity.place).expire c.now l.window = kept)
    (hlt : ∀ t ∈ kept, t < c.now) :
    (l.attempt c identity).result = .ok none ↔ kept.length < l.limit := by
  obtain ⟨-, -, -, hr⟩ := l.attempt_spec c identity hl
  rw [Ledger.attempts_eq_queue] at hr
  subst hk
  rw [hr, Queue.offer_result_of_lt (c.reading 1) hlt]
  by_cases h : (Queue.expire c.now l.window (l.ledger.queue identity.place)).length < l.limit
  · simp [h, Except.map]
  · simp [h, Except.map]

theorem attempt_spared_iff (ha : (l.ledger.queue identity.place).Ascending) (hl : l.limit ≠ 0)
    (hw : 1000 ≤ l.window.ns) {run : List (Call × Clock)}
    (spared : ∀ step ∈ run, step.1.Spares l.policy identity.place) {c : Clock}
    (early : ∀ r ∈ Run.readings perform l run, r ≤ c.now)
    (hlt : ∀ t ∈ l.ledger.queue identity.place, t < c.now) :
    ((Run.final perform l run).attempt c identity).result = .ok none ↔
      ((l.ledger.queue identity.place).expire c.now l.window).length < l.limit := by
  obtain ⟨hp, hq⟩ := expire_spared ha hl hw spared
  have hlimit := limit_congr hp
  have hleft := hq c.now early
  rw [← window_congr hp] at hleft ⊢
  have hlate : ∀ t ∈ (l.ledger.queue identity.place).expire c.now
      (Run.final perform l run).window, t < c.now :=
    fun t ht => hlt t ((Queue.expire_suffix _ _ _).subset ht)
  rw [attempt_recorded_iff (by rw [hlimit]; exact hl) hleft hlate, hlimit]

/-- The part of a millisecond that the advice drops is none, or the advice is up to the
least second anyway, or the tolerance of expiry makes up for it. -/
def Sufficient (oldest : Instant) (rest : Int) : Prop :=
  rest < 1000000000 ∨ 1000000 ≤ rest % 1000000000 ∨
    (rest % 1000000000 < 1000 ∧ Instant.earliest.ns ≤ oldest.ns - rest % 1000000000)

theorem sufficient_iff {oldest : Instant} {d : Span} (hd : 0 < d.ns) {seconds : Nat}
    (hs : seconds = max d.wholeSeconds 1) :
    Sufficient oldest d.ns ↔ d.ns < seconds * 1000000000 + 1000 ∧
      Instant.earliest.ns ≤ oldest.ns - d.ns + seconds * 1000000000 := by
  have hl := Instant.le_iff.1 (Instant.earliest_le oldest)
  have hn : ¬ d.ns ≤ 0 := by omega
  rw [Span.wholeSeconds, if_neg hn] at hs
  unfold Sufficient
  omega

theorem advice_pos (l : Limiter) (q : Queue) (asked told : Instant) :
    1 ≤ l.advice q asked told := Nat.le_max_right _ _

theorem room_after_advice_iff {kept : Queue} (hfull : kept.length = l.limit)
    (hw : 1000 ≤ l.window.ns) {oldest expiry later : Instant} (head : kept.head? = some oldest)
    (inside : now.ns - l.window.ns < oldest.ns) (expires : oldest.after? l.window = some expiry)
    (waited : later.ns = now.ns + l.advice kept now now * 1000000000) :
    (kept.expire later l.window).length < l.limit ↔ Sufficient oldest (expiry.ns - now.ns) := by
  have hns := Instant.after?_eq_some_iff.1 expires
  have hforecast : kept.forecast l.limit l.window now = expiry := by
    rw [Queue.forecast, if_neg (by omega), head]
    simp only [Instant.afterOrLatest, expires, Option.getD_some]
  have hadvice : l.advice kept now now = max (expiry.since now).wholeSeconds 1 := by
    rw [advice, hforecast]
  have hrest := Instant.since_ns expiry now
  have hpos : 0 < (expiry.since now).ns := by omega
  obtain ⟨rest, rfl⟩ := List.head?_eq_some_iff.1 head
  rw [← hfull, Queue.expire_shortens_iff hw, ← hrest, sufficient_iff hpos hadvice]
  omega

/-- A client that is refused and comes back after the seconds that it was told, with
nobody at its place in between, is let in exactly if those seconds were sufficient. -/
theorem attempt_after_advice_iff (hl : 1 ≤ p.requestLimit) (hw : 1 ≤ p.windowSeconds)
    (reached : Reached p now l) {refusal : Refusal} {seconds : Nat} {oldest expiry : Instant}
    (refused : (l.attempt (.still now) identity).result = .ok (some refusal))
    (told : refusal.retryAfter = some seconds)
    (head : ((l.attempt (.still now) identity).state.ledger.attempts identity).head? = some oldest)
    (expires : oldest.after? p.window = some expiry) {between : List (Call × Clock)}
    (spared : ∀ step ∈ between, step.1.Spares p identity.place) {c : Clock}
    (early : ∀ r ∈ Run.readings perform (l.attempt (.still now) identity).state between, r ≤ c.now)
    (waited : c.now.ns = now.ns + seconds * 1000000000) :
    ((Run.final perform (l.attempt (.still now) identity).state between).attempt c identity).result
        = .ok none ↔
      (refusal.reason = .full → Sufficient oldest (expiry.ns - now.ns)) := by
  obtain ⟨past, hs, hpast⟩ := reached.settled (by omega)
  have hp := hs.policy
  have hlimit : l.limit ≠ 0 := by rw [limit, hp]; omega
  have hwindow : 1000 ≤ l.window.ns := by
    rw [window, hp, window_ns (hp ▸ l.valid)]
    omega
  obtain ⟨hpm, hqm, hadvice, hreason⟩ := attempt_refused_spec hlimit refused
  have hfits := (hs.fits identity.place).expire now l.window
  have hnear := (hs.near identity.place).expire now l.window
  have hinside : ∀ t ∈ (l.ledger.queue identity.place).expire now l.window,
      now.ns - l.window.ns < t.ns :=
    fun t ht => (hs.fits identity.place).ascending.lt_of_mem_expire hwindow ht
  have hml := limit_congr hpm
  have hmw := window_congr hpm
  -- from here on only the queue that the refusal left matters
  rw [Ledger.attempts_eq_queue, hqm] at head
  generalize (l.ledger.queue identity.place).expire now l.window = kept at *
  generalize (l.attempt (.still now) identity).state = m at *
  have hseconds : seconds = l.advice kept now now := by
    rw [told] at hadvice
    exact Option.some.inj hadvice
  have hpos := l.advice_pos kept now now
  have hlt : ∀ t ∈ m.ledger.queue identity.place, t < c.now := by
    intro t ht
    rw [hqm] at ht
    have hle := hnear now (fun r hr => (List.pairwise_append.1 hpast).2.2 r hr now (by simp)) t ht
    rw [Instant.lt_iff]
    omega
  rw [attempt_spared_iff (by rw [hqm]; exact hfits.ascending) (by rw [hml]; exact hlimit)
    (by rw [hmw]; exact hwindow) (by rw [hpm, hp]; exact spared) early hlt, hqm, hml, hmw]
  by_cases hfull : refusal.reason = .full
  · have hlen : kept.length = l.limit := le_antisymm hfits.short (hreason.1 hfull)
    have hm : oldest ∈ kept := List.mem_of_head? head
    rw [room_after_advice_iff hlen hwindow head (hinside _ hm) (by rw [window, hp]; exact expires)
      (by rw [waited, hseconds])]
    simp only [hfull, forall_const]
  · have hroom : ¬ l.limit ≤ kept.length := fun h => hfull (hreason.2 h)
    have hle := (Queue.expire_suffix c.now l.window kept).length_le
    exact iff_of_true (by omega) fun h => absurd h hfull

/-! A limiter that allows one attempt in two seconds. -/

def sparse : Policy := { requestLimit := 1, windowSeconds := 2, byIp := true }

def visitor : Identity := .ip "10.0.0.1"

def visited : Limiter :=
  Run.final perform ⟨sparse, by decide, .empty⟩ [(.attempt visitor, .still (.ofNs 0))]

theorem visited_reached {now : Instant} (h : .ofNs 0 ≤ now) : Reached sparse now visited := by
  refine ⟨_, _, [(.attempt visitor, .still (.ofNs 0))], rfl, rfl, ?_⟩
  have hr : Run.readings perform ⟨sparse, by decide, .empty⟩
      [(.attempt visitor, .still (.ofNs 0))] = [.ofNs 0] := by decide +kernel
  rw [hr]
  simpa using h

/-- Half a second later two seconds are told, and they are enough. -/
theorem attempt_after_sufficient_advice :
    let m := (visited.attempt (.still (.ofNs 500000000)) visitor).state
    let between := [(Call.purge, Clock.still (.ofNs 1000000000))]
    ((Run.final perform m between).attempt (.still (.ofNs 2500000000)) visitor).result =
      .ok none := by
  intro m between
  have hrefused : (visited.attempt (.still (.ofNs 500000000)) visitor).result =
      .ok (some (refuse visitor .full (some 2))) := by decide +kernel
  have hhead : (m.ledger.attempts visitor).head? = some (.ofNs 0) := by decide +kernel
  have hexpires : (Instant.ofNs 0).after? sparse.window = some (.ofNs 2000000000) := by
    decide +kernel
  have hspared : ∀ step ∈ between, step.1.Spares sparse visitor.place := by
    simp [between, Call.Spares, Call.identity?]
  have hearly : ∀ r ∈ Run.readings perform m between,
      r ≤ (Clock.still (.ofNs 2500000000)).now := by decide +kernel
  refine (attempt_after_advice_iff (by decide) (by decide) (visited_reached (by decide)) hrefused
    rfl hhead hexpires hspared hearly (by decide)).2 fun _ => ?_
  exact .inr (.inl (by decide))

/-- A little less than a second later one second is told, and it is too short. -/
theorem attempt_after_short_advice :
    let m := (visited.attempt (.still (.ofNs 999500000)) visitor).state
    Reached sparse (.ofNs 999500000) visited ∧
      (visited.attempt (.still (.ofNs 999500000)) visitor).result =
        .ok (some (refuse visitor .full (some 1))) ∧
      (m.ledger.attempts visitor).head? = some (.ofNs 0) ∧
      (Instant.ofNs 0).after? sparse.window = some (.ofNs 2000000000) ∧
      (m.attempt (.still (.ofNs 1999500000)) visitor).result ≠ .ok none := by
  refine ⟨visited_reached (by decide), ?_, ?_, ?_, ?_⟩
  · decide +kernel
  · decide +kernel
  · decide +kernel
  · decide +kernel

end Throttle.Limiter
