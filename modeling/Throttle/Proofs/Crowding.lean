import Throttle.Proofs.Log

/-!
# Crowded queues

An attempt with quota left is refused exactly when the newest entry stands at the far
end of the tolerance. As long as the clock has not read later than now, every instant up
to that entry is taken then, so the queue is crowded. A clock that was set back may come
to stand just there with hardly an entry in the queue.
-/

namespace Throttle
namespace Queue

/-- Every instant within the tolerance is taken. -/
def Crowded (q : Queue) (now : Instant) : Prop :=
  ∀ i ≤ Span.nudgeLimit, ∃ t ∈ q, t.ns = now.ns + i

/-- The newest entry stands at the far end of the tolerance, and a second reading does not
lie past it. -/
def Stuck (q : Queue) (now later : Instant) : Prop :=
  ∃ newest, q.getLast? = some newest ∧ newest.ns = now.ns + 1000 ∧ later ≤ newest

variable {past : List Instant} {q : Queue} {now later : Instant}

theorem append_eq_none_iff : (q.append now later).result = .ok none ↔ q.Stuck now later := by
  have ho := append_appended q now later
  generalize q.append now later = o at ho
  cases ho with
  | fresh behind =>
    refine iff_of_false (by simp) ?_
    rintro ⟨newest, last, edge, -⟩
    have hlt := Instant.lt_iff.1 (behind newest last)
    omega
  | moved last ahead gap next =>
    refine iff_of_false (by simp) ?_
    rintro ⟨other, hl, edge, -⟩
    rw [last] at hl
    cases hl
    exact gap edge
  | reread last edge passed =>
    refine iff_of_false (by simp) ?_
    rintro ⟨other, hl, -, stuck⟩
    rw [last] at hl
    cases hl
    exact absurd passed (not_lt.2 stuck)
  | crowded last edge stuck => exact iff_of_true rfl ⟨_, last, edge, stuck⟩
  | fault last gap =>
    refine iff_of_false (by simp) ?_
    rintro ⟨other, hl, edge, -⟩
    rw [last] at hl
    cases hl
    exact gap edge

theorem offer_eq_crowded_iff {limit : Nat} {window : Span} :
    (q.offer limit window now later).result = .ok (.refused .crowded) ↔
      (q.expire now window).length < limit ∧ (q.expire now window).Stuck now later := by
  rw [offer]
  by_cases h : limit ≤ (q.expire now window).length
  · simp [h, Nat.not_lt.2 h]
  · rw [if_neg h, ← append_eq_none_iff, Outcome.result_map]
    cases ((q.expire now window).append now later).result with
    | error e => simp [Except.map]
    | ok stamp? => cases stamp? <;> simp [Except.map, Nat.lt_of_not_le h]

/-- Whatever the clock reads from now on, unless it goes back behind a reading it had,
every instant from there up to the newest entry is taken. -/
def Dense (past : List Instant) (q : Queue) : Prop :=
  ∀ t : Instant, (∀ r ∈ past, r ≤ t) → ∀ x ∈ q, ∀ n, t.ns ≤ n → n ≤ x.ns → ∃ u ∈ q, u.ns = n

theorem dense_nil (past : List Instant) : Dense past [] := by simp [Dense]

theorem Dense.mono (h : Dense past q) (readings : List Instant) : Dense (past ++ readings) q :=
  fun t ht => h t fun r hr => ht r (List.mem_append_left _ hr)

theorem Dense.expire (h : Dense past q) (hnow : now ∈ past) {window : Span}
    (hw : 1000 ≤ window.ns) : Dense past (q.expire now window) := by
  intro t ht x hx n hn hnx
  obtain ⟨u, hu, hun⟩ := h t ht x ((expire_suffix now window q).subset hx) n hn hnx
  rw [← q.expired_append_expire now window, List.mem_append] at hu
  refine ⟨u, hu.resolve_left fun hgone => ?_, hun⟩
  -- a cutoff lies before the reading that it was taken at, and so before `u`
  obtain ⟨cutoff, hc, hlt⟩ := cutoff_of_mem_expired hgone
  have hns := cutoff?_ns hc
  have hle := Instant.le_iff.1 (ht now hnow)
  rw [Instant.lt_iff] at hlt
  omega

theorem Dense.concat (h : Dense past q) {stamp : Instant}
    (hs : ∀ t : Instant, (∀ r ∈ past, r ≤ t) → ∀ n, t.ns ≤ n → n < stamp.ns → ∃ u ∈ q, u.ns = n) :
    Dense past (q ++ [stamp]) :=
  fun t ht => taken_concat (h t ht) (hs t ht)

theorem Dense.appended {o : Outcome Queue (Option Instant)} (h : Dense past q)
    (ho : Appended q now later o) (hnow : now ∈ past) (hlater : o.samples = 1 → later ∈ past) :
    Dense past o.state := by
  have hread : ∀ r ∈ past, Dense past (q ++ [r]) := by
    intro r hr
    apply h.concat
    intro t ht n hn hlt
    have hle := Instant.le_iff.1 (ht r hr)
    omega
  cases ho with
  | fresh => exact hread now hnow
  | @moved newest stamp last ahead gap next =>
    apply h.concat
    intro t ht n hn hlt
    exact h t ht newest (List.mem_of_getLast? last) n hn (by omega)
  | reread => exact hread later (hlater rfl)
  | crowded => exact h
  | fault => exact h

theorem Dense.append (h : Dense past q) (hnow : now ∈ past)
    (hlater : (q.append now later).samples = 1 → later ∈ past) :
    Dense past (q.append now later).state :=
  h.appended (append_appended q now later) hnow hlater

theorem Dense.offer {limit : Nat} {window : Span} (h : Dense past q) (hnow : now ∈ past)
    (hw : 1000 ≤ window.ns)
    (hlater : (q.offer limit window now later).samples = 1 → later ∈ past) :
    Dense past (q.offer limit window now later).state := by
  have hk := h.expire hnow hw
  have ho := offer_offered q limit window now later
  generalize q.offer limit window now later = o at ho hlater
  cases ho with
  | full => exact hk
  | recorded room appended ok state =>
    have ha := hk.appended appended hnow hlater
    rw [state] at ha
    exact ha
  | crowded => exact hk
  | fault => exact hk

theorem crowded_of_stuck (h : Dense past q) (hp : ∀ r ∈ past, r ≤ now)
    (hs : q.Stuck now later) : q.Crowded now := by
  obtain ⟨newest, last, edge, -⟩ := hs
  intro i hi
  have hle : i ≤ 1000 := hi
  exact h now hp newest (List.mem_of_getLast? last) (now.ns + i) (by omega) (by omega)

end Queue

namespace AttemptLog
open Queue (Dense Stuck Crowded)

/-- A call that takes no entry off by hand, and whose window is at least the tolerance. -/
def Call.Lasting : Call → Prop
  | offer _ _ window | purge window => 1000 ≤ window.ns
  | takeOldest _ => False
  | create _ | append _ | clear => True

instance : DecidablePred Call.Lasting
  | .offer _ _ window | .purge window => inferInstanceAs (Decidable (1000 ≤ window.ns))
  | .takeOldest _ => inferInstanceAs (Decidable False)
  | .create _ | .append _ | .clear => inferInstanceAs (Decidable True)

theorem Treated.dense {c : Clock} {key : String} {call : Call} {n : Nat} {q? r? : Option Queue}
    (ht : Treated c key call n q? r?) (lasting : call.Lasting) {past : List Instant}
    (h : ∀ q ∈ q?, Dense past q) :
    ∀ r ∈ r?, Dense (past ++ (List.range n).map c.reading) r := by
  have hread : ∀ {i n : Nat}, i < n → c.reading i ∈ past ++ (List.range n).map c.reading :=
    fun hi => List.mem_append_right _ (List.mem_map.2 ⟨_, List.mem_range.2 hi, rfl⟩)
  have hfirst : Dense (past ++ (List.range 1).map c.reading) [c.now] := by
    apply (Queue.dense_nil _).concat
    intro t ht n hn hlt
    have hle := Instant.le_iff.1 (ht c.now (hread Nat.one_pos))
    omega
  intro r hr
  cases ht with
  | spared call n q? => exact (h r hr).mono _
  | created =>
    cases hr
    exact hfirst
  | started limit window =>
    cases hr
    exact hfirst
  | appended q =>
    cases hr
    exact ((h q rfl).mono _).append (hread (by omega)) fun hs => hread (by omega)
  | offered limit window q =>
    cases hr
    exact ((h q rfl).mono _).offer (hread (by omega)) lasting fun hs => hread (by omega)
  | shortened oldest rest => cases lasting
  | expired window q =>
    cases hr
    exact ((h q rfl).mono _).expire (hread Nat.one_pos) lasting
  | dropped window q nothing => cases hr
  | cleared q? => cases hr

theorem dense_of_run {run : List (Call × Clock)} (lasting : ∀ step ∈ run, step.1.Lasting)
    (key : String) : ∀ q ∈ (Run.final perform empty run)[key]?,
      Dense (Run.readings perform empty run) q := by
  have hempty : ∀ q ∈ (empty : AttemptLog)[key]?, Dense [] q := by simp [empty]
  have hrun := Run.final_invariant (R := fun _ _ => True)
    (P := fun past (log : AttemptLog) => ∀ q ∈ log[key]?, Dense past q)
    (fun past log c call hl hd _ => (perform_treated log c call key).dense hl hd)
    lasting hempty (List.pairwise_of_forall fun _ _ => trivial)
  simpa using hrun

theorem append_refused {log : AttemptLog} {key : String} {q : Queue} (hk : log[key]? = some q)
    (c : Clock) :
    ((log.append c key).result = .ok none ↔ q.Stuck c.now (c.reading 1)) ∧
      ((log.append c key).result = .ok none → (log.append c key).state.attempts key = q) := by
  have hs := (Queue.append_appended q c.now (c.reading 1)).state_eq
  simp only [append, hk, Outcome.result_afterSamples, Outcome.state_afterSamples,
    Outcome.result_lift, Outcome.state_lift, attempts_insert_self]
  refine ⟨Queue.append_eq_none_iff, fun hr => ?_⟩
  rw [hs, hr]
  simp [Except.toOption]

theorem offer_refused (log : AttemptLog) (c : Clock) (key : String) (limit : Nat) (window : Span) :
    let o := log.offer c key limit window
    let kept := (log.attempts key).expire c.now window
    (o.result = .ok (.refused .crowded) ↔
        kept.length < limit ∧ kept.Stuck c.now (c.reading 1)) ∧
      (o.result = .ok (.refused .crowded) → o.state.attempts key = kept) := by
  by_cases hl : limit = 0
  · simp [offer, hl]
  · obtain ⟨hr, -, hstate⟩ := log.offer_spec c key hl window
    have hs := (Queue.offer_offered (log.attempts key) limit window c.now (c.reading 1)).state_eq
    simp only [hr, hstate, attempts_insert_self]
    refine ⟨Queue.offer_eq_crowded_iff, fun hc => ?_⟩
    rw [hs, hc]
    simp

/-- After any run an append to a tracked key, or an attempt with quota left, is refused
exactly if the newest entry stands at the far end of the tolerance; and if the clock has
not read later than now, the queue is crowded then. -/
theorem refused_iff_stuck {run : List (Call × Clock)} (lasting : ∀ step ∈ run, step.1.Lasting)
    (key : String) (c : Clock) :
    let log := Run.final perform empty run
    let past := Run.readings perform empty run
    (∀ q, log[key]? = some q →
      let o := log.append c key
      (o.result = .ok none ↔ q.Stuck c.now (c.reading 1)) ∧
        (o.result = .ok none → (∀ r ∈ past, r ≤ c.now) →
          (o.state.attempts key).Crowded c.now)) ∧
    ∀ limit window, 1000 ≤ window.ns →
      let o := log.offer c key limit window
      let kept := (log.attempts key).expire c.now window
      (o.result = .ok (.refused .crowded) ↔
          kept.length < limit ∧ kept.Stuck c.now (c.reading 1)) ∧
        (o.result = .ok (.refused .crowded) → (∀ r ∈ past, r ≤ c.now) →
          (o.state.attempts key).Crowded c.now) := by
  intro log past
  have hdense : ∀ q ∈ log[key]?, Dense past q := dense_of_run lasting key
  refine ⟨fun q hk => ?_, fun limit window hw => ?_⟩
  · obtain ⟨hiff, hstate⟩ := append_refused hk c
    refine ⟨hiff, fun hr forward => ?_⟩
    rw [hstate hr]
    exact Queue.crowded_of_stuck (hdense q hk) forward (hiff.1 hr)
  · obtain ⟨hiff, hstate⟩ := log.offer_refused c key limit window
    refine ⟨hiff, fun hr forward => ?_⟩
    rw [hstate hr]
    have hattempts : Dense past (log.attempts key) := by
      cases hk : log[key]? with
      | none =>
        rw [attempts_of_none hk]
        exact Queue.dense_nil _
      | some q =>
        rw [attempts_of_some hk]
        exact hdense q hk
    have hkept : Dense (past ++ [c.now]) ((log.attempts key).expire c.now window) :=
      (hattempts.mono [c.now]).expire (by simp) hw
    apply Queue.crowded_of_stuck hkept _ (hiff.1 hr).2
    simpa [or_imp, forall_and] using forward

/-- Set back by half a microsecond more than the tolerance, the clock refuses nobody. -/
theorem append_after_step_back :
    let log := Run.final perform empty [(.create "10.0.0.1", .still (.ofNs 1500)),
      (.purge .second, .still (.ofNs 1500))]
    (log.append (.still (.ofNs 0)) "10.0.0.1").result = .ok (some (.ofNs 1501)) ∧
      (log.append (.still (.ofNs 0)) "10.0.0.1").result ≠ .ok none := by
  intro log
  have hlasting : ∀ step ∈ [(Call.create "10.0.0.1", Clock.still (.ofNs 1500)),
      (.purge .second, .still (.ofNs 1500))], step.1.Lasting := by
    simp [Call.Lasting]
    decide
  have hk : log["10.0.0.1"]? = some [.ofNs 1500] := by decide +kernel
  refine ⟨by decide +kernel, ?_⟩
  rw [Ne, ((refused_iff_stuck hlasting "10.0.0.1" (.still (.ofNs 0))).1 _ hk).1]
  rintro ⟨newest, last, edge, -⟩
  cases last
  revert edge
  decide +kernel

/-- Set back by the tolerance itself, it refuses a client that has quota left and an append
to a queue of one entry. -/
theorem refused_after_step_back :
    let log := Run.final perform empty [(.create "10.0.0.1", .still (.ofNs 1000))]
    (log.append (.still (.ofNs 0)) "10.0.0.1").result = .ok none ∧
      (log.offer (.still (.ofNs 0)) "10.0.0.1" 5 .second).result = .ok (.refused .crowded) ∧
      log.attempts "10.0.0.1" = [.ofNs 1000] ∧
      ¬ Queue.Crowded [.ofNs 1000] (.ofNs 0) := by
  refine ⟨by decide +kernel, by decide +kernel, by decide +kernel, ?_⟩
  intro h
  obtain ⟨t, ht, hns⟩ := h 0 (Nat.zero_le _)
  rw [List.mem_singleton.1 ht] at hns
  revert hns
  decide +kernel

end AttemptLog
end Throttle
