import Mathlib.Data.List.Forall2
import Throttle.Proofs.FullLog
import Throttle.Proofs.Limiter

/-!
# More generous limiters

Of two limiters that see the same attempts of one identity, the one with the higher
limit and the shorter window never falls behind: its full log is as long, and each of its
entries is no later than the entry of the other log at that place. An entry past the
clock follows the one before it at once, so the shorter log cannot catch up by moving.
-/

namespace Throttle
namespace FullLog

/-- At each place that the second log reaches the first has an entry, which is no later. -/
structure Ahead (early late : List Instant) : Prop where
  length_le : late.length ≤ early.length
  getElem_le : ∀ j (_ : j < late.length) (_ : j < early.length), early[j] ≤ late[j]

variable {limit limit' : Nat} {window window' : Span} {past now stamp : Instant}
variable {early late log : List Instant} {q q' : Queue}

namespace Ahead

theorem nil (early : List Instant) : Ahead early [] :=
  ⟨Nat.zero_le _, fun j h => absurd h (Nat.not_lt_zero j)⟩

theorem append (h : Ahead early late) (more : List Instant) : Ahead (early ++ more) late := by
  constructor
  · rw [List.length_append]
    exact h.length_le.trans (Nat.le_add_right _ _)
  · intro j hj _
    have hje : j < early.length := hj.trans_le h.length_le
    rw [List.getElem_append_left hje]
    exact h.getElem_le j hj hje

theorem exists_le (h : Ahead early late) (hlen : early.length ≤ late.length) {t : Instant}
    (ht : t ∈ early) : ∃ u ∈ late, t ≤ u := by
  obtain ⟨j, hj, rfl⟩ := List.getElem_of_mem ht
  exact ⟨late[j], List.getElem_mem _, h.getElem_le j (hj.trans_le hlen) hj⟩

theorem forall₂ (h : Ahead early late) (hlen : early.length ≤ late.length) :
    List.Forall₂ (· ≤ ·) early late := by
  rw [List.forall₂_iff_get]
  exact ⟨le_antisymm hlen h.length_le, fun j hj hj' => h.getElem_le j hj' hj⟩

theorem countP_le {a b : Int} (hab : b ≤ a) (h : List.Forall₂ (· ≤ ·) early late) :
    early.countP (fun t => a ≤ t.ns) ≤ late.countP (fun t => b ≤ t.ns) := by
  induction h with
  | nil => exact Nat.le_refl _
  | @cons t u early late htu _ ih =>
    rw [Instant.le_iff] at htu
    rw [List.countP_cons, List.countP_cons]
    by_cases ha : a ≤ t.ns
    · have hb : b ≤ u.ns := by omega
      simp only [ha, hb, decide_true, if_true]
      omega
    · simp only [ha]
      exact ih.trans (Nat.le_add_right _ _)

end Ahead

theorem Tracks.getElem_le (h : Tracks window past log q) {j : Nat} (hj : j < log.length)
    (hpast : past ≤ stamp) (hbefore : ∀ i (hi : i < j), log[i] < stamp) : log[j] ≤ stamp := by
  by_contra hlt
  have hns := Instant.lt_iff.1 (not_le.1 hlt)
  rw [Instant.le_iff] at hpast
  -- an entry past the clock comes just after another, which would not lie before `stamp`
  obtain ⟨u, hu, hun⟩ := h.dense log[j] (List.getElem_mem hj) (log[j].ns - 1) (by omega) (by omega)
  obtain ⟨i, hi, rfl⟩ := List.getElem_of_mem hu
  have hij : i < j := by
    by_contra hge
    rcases Nat.eq_or_lt_of_le (Nat.le_of_not_lt hge) with he | hl
    · subst i
      omega
    · have hasc := Instant.lt_iff.1 (List.pairwise_iff_getElem.1 h.ascending _ _ hj hi hl)
      omega
  have hi' := Instant.lt_iff.1 (hbefore i hij)
  omega

theorem Ahead.concat (h : Ahead early late) (ht : Tracks window past early q)
    (hlen : late.length < early.length) (hpast : past ≤ stamp) (hlt : ∀ t ∈ late, t < stamp) :
    Ahead early (late ++ [stamp]) := by
  constructor
  · rw [List.length_append, List.length_singleton]
    exact hlen
  · intro j hj hje
    rw [List.length_append, List.length_singleton] at hj
    rcases Nat.eq_or_lt_of_le (Nat.le_of_lt_succ hj) with he | hjl
    · subst j
      rw [List.getElem_concat_length rfl]
      apply ht.getElem_le hje hpast
      intro i hi
      exact lt_of_le_of_lt (h.getElem_le i hi _) (hlt _ (List.getElem_mem hi))
    · rw [List.getElem_append_left hjl]
      exact h.getElem_le j hjl hje

theorem le_of_judge (ha : Queue.Ascending log)
    (h : judge limit window now log = .ok (.recorded stamp)) : now ≤ stamp := by
  rw [judge] at h
  split_ifs at h with hfull hlt hall
  · cases h
  · cases h
    exact le_refl _
  · cases h
  · obtain ⟨t, ht, hnow⟩ : ∃ t ∈ log, now ≤ t := by simpa using hlt
    cases hn : log.getLast?.bind Instant.next? with
    | none =>
      rw [hn] at h
      cases h
    | some next =>
      rw [hn] at h
      cases h
      obtain ⟨newest, hl, hnext⟩ := Option.bind_eq_some_iff.1 hn
      have hns := Instant.next?_eq_some_iff.1 hnext
      have hle := Instant.le_iff.1 (hnow.trans (ha.le_newest hl t ht))
      rw [Instant.le_iff]
      omega

theorem judge_recorded_of_ahead (h : Ahead early late) (hlen : early.length ≤ late.length)
    (hlimit : limit ≤ limit') (hwindow : window'.ns ≤ window.ns)
    (ht : Tracks window past late q) (hle : past ≤ now)
    (hok : ∃ a, judge limit' window' now early = .ok a)
    (hr : judge limit window now late = .ok (.recorded stamp)) :
    ∃ stamp', judge limit' window' now early = .ok (.recorded stamp') := by
  have hroom : ¬ limit ≤ late.countP (fun t => now.ns - window.ns + 1000 ≤ t.ns) := by
    intro hfull
    rw [judge_full hfull] at hr
    cases hr
  have hcount : early.countP (fun t => now.ns - window'.ns + 1000 ≤ t.ns) ≤
      late.countP (fun t => now.ns - window.ns + 1000 ≤ t.ns) :=
    Ahead.countP_le (by omega) (h.forall₂ hlen)
  have hspare : ¬ ∀ i ∈ List.range 1001, ∃ t ∈ early, t.ns = now.ns + i := by
    intro hall
    obtain ⟨t, hte, htn⟩ := hall 1000 (by simp)
    obtain ⟨u, hu, htu⟩ := h.exists_le hlen hte
    have hns := Instant.le_iff.1 htu
    have hnear := (ht.mono hle).near u hu
    rw [judge_crowded hroom ht hle hu (by omega)] at hr
    cases hr
  obtain ⟨a, ha⟩ := hok
  rw [judge, if_neg (by omega)] at ha ⊢
  split_ifs at ha ⊢ with hlt
  · exact ⟨now, rfl⟩
  · split at ha
    · exact ⟨_, rfl⟩
    · cases ha

theorem Ahead.step (h : Ahead early late) (hlimit : limit ≤ limit')
    (hwindow : window'.ns ≤ window.ns) (ht : Tracks window past late q) (hle : past ≤ now)
    (hok : ∃ a, judge limit' window' now early = .ok a) {r r' : Queue}
    (hlate : Tracks window now (late ++ stamps (judge limit window now late)) r)
    (hearly : Tracks window' now (early ++ stamps (judge limit' window' now early)) r') :
    Ahead (early ++ stamps (judge limit' window' now early))
      (late ++ stamps (judge limit window now late)) := by
  have hmore := h.append (stamps (judge limit' window' now early))
  cases hs : Admission.stampIn? (judge limit window now late) with
  | none =>
    rw [stamps, stamps, hs, Option.toList_none, List.append_nil]
    exact hmore
  | some stamp =>
    have hr := Admission.stampIn?_eq_some_iff.1 hs
    have hlater : stamps (judge limit window now late) = [stamp] := by rw [stamps, hs]; rfl
    rw [hlater] at hlate ⊢
    apply hmore.concat hearly
    · rw [List.length_append]
      by_cases hlen : early.length ≤ late.length
      · obtain ⟨stamp', hr'⟩ := judge_recorded_of_ahead h hlen hlimit hwindow ht hle hok hr
        have hone : (stamps (judge limit' window' now early)).length = 1 := by
          rw [hr']
          rfl
        have hlength := h.length_le
        omega
      · omega
    · exact le_of_judge ht.ascending hr
    · intro t htl
      exact (List.pairwise_append.1 hlate.ascending).2.2 t htl stamp (by simp)

end FullLog

namespace Limiter
open FullLog (Tracks Ahead stamps)

variable {l : Limiter} {identity : Identity} {past now : Instant} {log : List Instant}

def attempts (identity : Identity) (readings : List Instant) : List (Call × Clock) :=
  readings.map fun now => (.attempt identity, .still now)

def admitted (l : Limiter) (identity : Identity) (readings : List Instant) : Nat :=
  (Run.history perform l (attempts identity readings)).countP (·.result = .ok (.refusal none))

def recordedAt (l : Limiter) (identity : Identity) : List Instant → List Instant
  | [] => []
  | now :: rest =>
    stamps (l.ledger.record (.still now) identity l.limit l.window).result ++
      recordedAt (l.attempt (.still now) identity).state identity rest

theorem attempt_tracks (hl : l.limit ≠ 0) (hw : 1000 ≤ l.window.ns)
    (ht : Tracks l.window past log (l.ledger.queue identity.place)) (hle : past ≤ now)
    (hlow : Instant.earliest.ns + 2000 < now.ns) (hhigh : now.ns + 2000 < Instant.latest.ns) :
    let result := (l.ledger.record (.still now) identity l.limit l.window).result
    result = FullLog.judge l.limit l.window now log ∧ (∃ a, result = .ok a) ∧
      Tracks l.window now (log ++ stamps result)
        ((l.attempt (.still now) identity).state.ledger.queue identity.place) := by
  obtain ⟨hr, -, hq⟩ := l.ledger.record_spec (.still now) identity hl l.window
  rw [attempt_state, ledger_withLedger, hq, if_pos rfl, hr]
  exact ht.offer hle hw hlow hhigh

theorem admitted_cons (l : Limiter) (identity : Identity) (now : Instant) (rest : List Instant) :
    l.admitted identity (now :: rest) =
      (l.attempt (.still now) identity).state.admitted identity rest +
        if (l.attempt (.still now) identity).result = .ok none then 1 else 0 := by
  have hanswer : (perform l (.still now) (.attempt identity)).result = .ok (.refusal none) ↔
      (l.attempt (.still now) identity).result = .ok none := by
    rw [perform, Outcome.result_map]
    cases (l.attempt (.still now) identity).result <;> simp [Except.map]
  unfold admitted attempts
  rw [List.map_cons, Run.history, List.countP_cons]
  simp only [decide_eq_true_eq, hanswer]
  rfl

theorem length_recordedAt (l : Limiter) (identity : Identity) (hl : l.limit ≠ 0)
    (readings : List Instant) :
    (l.recordedAt identity readings).length = l.admitted identity readings := by
  induction readings generalizing l with
  | nil => rfl
  | cons now rest ih =>
    obtain ⟨hp, -, -, hr⟩ := l.attempt_spec (.still now) identity hl
    obtain ⟨hrecord, -, -⟩ := l.ledger.record_spec (.still now) identity hl l.window
    have hfirst : (stamps (l.ledger.record (.still now) identity l.limit l.window).result).length =
        if (l.attempt (.still now) identity).result = .ok none then 1 else 0 := by
      rw [hrecord, hr]
      cases ((l.ledger.attempts identity).offer l.limit l.window (Clock.still now).now
        ((Clock.still now).reading 1)).result with
      | error e => rfl
      | ok a => cases a <;> rfl
    have hrest := ih (l.attempt (.still now) identity).state (by rw [limit_congr hp]; exact hl)
    rw [recordedAt, List.length_append, hrest, hfirst, admitted_cons, Nat.add_comm]

structure Looser (strict generous : Policy) : Prop where
  limit_pos : 1 ≤ strict.requestLimit
  limit_le : strict.requestLimit ≤ generous.requestLimit
  tolerance_le : 1000 ≤ generous.window.ns
  window_le : generous.window.ns ≤ strict.window.ns

/-- The limiters after the same attempts of one identity, of which the last was made at `past`. -/
structure Paired (identity : Identity) (past : Instant) (early late : List Instant)
    (g s : Limiter) : Prop where
  strict : Tracks s.window past late (s.ledger.queue identity.place)
  generous : Tracks g.window past early (g.ledger.queue identity.place)
  ahead : Ahead early late

variable {s g : Limiter} {early late : List Instant}

theorem Paired.attempt (h : Paired identity past early late g s) (hp : Looser s.policy g.policy)
    (hle : past ≤ now) (hlow : Instant.earliest.ns + 2000 < now.ns)
    (hhigh : now.ns + 2000 < Instant.latest.ns) :
    Paired identity now
      (early ++ stamps (g.ledger.record (.still now) identity g.limit g.window).result)
      (late ++ stamps (s.ledger.record (.still now) identity s.limit s.window).result)
      (g.attempt (.still now) identity).state (s.attempt (.still now) identity).state := by
  have hwindow : 1000 ≤ s.window.ns := Int.le_trans hp.tolerance_le hp.window_le
  have hspos : s.limit ≠ 0 := Nat.ne_of_gt hp.limit_pos
  have hgpos : g.limit ≠ 0 := Nat.ne_of_gt (hp.limit_pos.trans hp.limit_le)
  obtain ⟨hs, -, hst⟩ := attempt_tracks hspos hwindow h.strict hle hlow hhigh
  obtain ⟨hg, hok, hgt⟩ := attempt_tracks hgpos hp.tolerance_le h.generous hle hlow hhigh
  refine ⟨?_, ?_, ?_⟩
  · rw [window_congr (s.policy_attempt (.still now) identity)]
    exact hst
  · rw [window_congr (g.policy_attempt (.still now) identity)]
    exact hgt
  · rw [hs] at hst ⊢
    rw [hg] at hok hgt ⊢
    exact h.ahead.step hp.limit_le hp.window_le h.strict hle hok hst hgt

theorem Paired.run (h : Paired identity past early late g s) (hp : Looser s.policy g.policy)
    {readings : List Instant} (forward : (past :: readings).Pairwise (· ≤ ·))
    (inside : ∀ now ∈ readings,
      Instant.earliest.ns + 2000 < now.ns ∧ now.ns + 2000 < Instant.latest.ns) :
    Ahead (early ++ g.recordedAt identity readings) (late ++ s.recordedAt identity readings) := by
  induction readings generalizing past early late g s with
  | nil =>
    rw [recordedAt, recordedAt, List.append_nil, List.append_nil]
    exact h.ahead
  | cons now rest ih =>
    obtain ⟨hpast, hrest⟩ := List.pairwise_cons.1 forward
    obtain ⟨⟨hlow, hhigh⟩, hin⟩ := List.forall_mem_cons.1 inside
    have hnext := h.attempt hp (hpast now List.mem_cons_self) hlow hhigh
    have hall := ih hnext (by rw [policy_attempt, policy_attempt]; exact hp) hrest hin
    rw [List.append_assoc, List.append_assoc] at hall
    exact hall

/-- After each of the same attempts the more generous limiter has admitted at least as
many, and its j-th recorded instant is no later than that of the stricter one. -/
theorem generous_never_behind {strict generous : Policy} {s g : Limiter} {es eg : List Event}
    (hs : create strict = .ok (s, es)) (hg : create generous = .ok (g, eg))
    (hl : 1 ≤ strict.requestLimit) (hlimit : strict.requestLimit ≤ generous.requestLimit)
    (hw : 1 ≤ generous.windowSeconds) (hwindow : generous.windowSeconds ≤ strict.windowSeconds)
    (identity : Identity) {readings : List Instant} (forward : readings.Pairwise (· ≤ ·))
    (inside : ∀ now ∈ readings,
      Instant.earliest.ns + 2000 < now.ns ∧ now.ns + 2000 < Instant.latest.ns) :
    ∀ done, done <+: readings →
      s.admitted identity done = (s.recordedAt identity done).length ∧
      g.admitted identity done = (g.recordedAt identity done).length ∧
      s.admitted identity done ≤ g.admitted identity done ∧
      ∀ j (_ : j < (s.recordedAt identity done).length)
        (_ : j < (g.recordedAt identity done).length),
        (g.recordedAt identity done)[j] ≤ (s.recordedAt identity done)[j] := by
  obtain ⟨hsp, hsl⟩ := create_spec hs
  obtain ⟨hgp, hgl⟩ := create_spec hg
  have hswindow := window_ns s.valid
  have hgwindow := window_ns g.valid
  rw [hsp] at hswindow
  rw [hgp] at hgwindow
  have hp : Looser s.policy g.policy := by
    rw [hsp, hgp]
    exact ⟨hl, hlimit, by omega, by omega⟩
  have hempty : Paired identity .earliest [] [] g s := by
    refine ⟨?_, ?_, .nil []⟩
    · rw [hsl, Ledger.queue_empty]
      exact FullLog.tracks_nil _ _
    · rw [hgl, Ledger.queue_empty]
      exact FullLog.tracks_nil _ _
  intro done hdone
  have hforward : (Instant.earliest :: done).Pairwise (· ≤ ·) :=
    List.pairwise_cons.2 ⟨fun t _ => Instant.earliest_le t, forward.sublist hdone.sublist⟩
  have hahead := hempty.run hp hforward fun now hn => inside now (hdone.subset hn)
  have hscount := s.length_recordedAt identity (Nat.ne_of_gt hp.limit_pos) done
  have hgcount := g.length_recordedAt identity
    (Nat.ne_of_gt (hp.limit_pos.trans hp.limit_le)) done
  rw [List.nil_append, List.nil_append] at hahead
  refine ⟨hscount.symm, hgcount.symm, ?_, hahead.getElem_le⟩
  rw [← hscount, ← hgcount]
  exact hahead.length_le

/-- Of four attempts one limiter admits the first and the last, the other all but the third. -/
theorem generous_never_behind_of_four :
    let strict : Policy := { requestLimit := 1, windowSeconds := 2 }
    let generous : Policy := { requestLimit := 2, windowSeconds := 1 }
    let s : Limiter := ⟨strict, by decide, .empty⟩
    let g : Limiter := ⟨generous, by decide, .empty⟩
    let visitor := Identity.ip "10.0.0.1"
    let readings := [Instant.ofNs 0, .ofNs 0, .ofNs 500000000, .ofNs 2000000000]
    s.recordedAt visitor readings = [.ofNs 0, .ofNs 2000000000] ∧
      g.recordedAt visitor readings = [.ofNs 0, .ofNs 1, .ofNs 2000000000] ∧
      s.admitted visitor readings ≤ g.admitted visitor readings := by
  intro strict generous s g visitor readings
  have hs : create strict = .ok (s, strict.warnings ++ [.limiterCreated strict]) := rfl
  have hg : create generous = .ok (g, generous.warnings ++ [.limiterCreated generous]) := rfl
  have hall := generous_never_behind hs hg (by decide) (by decide) (by decide) (by decide) visitor
    (show readings.Pairwise (· ≤ ·) by decide +kernel) (by decide +kernel) readings
    List.prefix_rfl
  exact ⟨by decide +kernel, by decide +kernel, hall.2.2.1⟩

end Limiter
end Throttle
