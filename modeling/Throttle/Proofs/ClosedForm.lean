import Throttle.Proofs.Log

/-!
# Attempts in closed form

What an attempt on a tracked key comes to, without a loop. Expiry from the front keeps the
entries from the cutoff on, since a queue ascends, and the search for a free instant is settled
by the distance of the newest entry from the clock. Only at a distance of just the tolerance is
the clock read again.
-/

namespace Throttle

def Instant.InRange (n : Int) : Prop := earliest.ns ≤ n ∧ n ≤ latest.ns

instance (n : Int) : Decidable (Instant.InRange n) := inferInstanceAs (Decidable (_ ∧ _))

namespace Queue

variable {q kept : Queue} {limit : Nat} {now again : Instant}

/-- The entries from the cutoff on, if the start of the window and its cutoff are instants. -/
def remaining (now : Instant) (window : Span) (q : Queue) : Queue :=
  let start := now.ns - window.ns
  if Instant.InRange start ∧ Instant.InRange (start + 1000) then
    q.filter fun t => start + 1000 ≤ t.ns
  else q

def answer (kept : Queue) (limit : Nat) (now again : Instant) : Except Fault Admission × Nat :=
  if limit ≤ kept.length then (.ok (.refused .full), 1)
  else match kept.getLast? with
    | none => (.ok (.recorded now), 1)
    | some newest =>
      if newest < now then (.ok (.recorded now), 1)
      else if newest.ns - now.ns = 1000 then
        if newest < again then (.ok (.recorded again), 2) else (.ok (.refused .crowded), 2)
      else match newest.next? with
        | some stamp => (.ok (.recorded stamp), 1)
        | none => (.error .pastLatest, 1)

theorem remaining_nil (now : Instant) (window : Span) : remaining now window [] = [] := by
  simp [remaining]

theorem Ascending.expire_eq_remaining (h : q.Ascending) (now : Instant) (window : Span) :
    q.expire now window = q.remaining now window := by
  simp only [remaining]
  split
  · rename_i hrange
    have hc := cutoff?_of_range hrange.1.1 hrange.2.2
    exact h.expire_eq_filter hc
  · rename_i hrange
    have hc : cutoff? now window = none := by
      rw [Option.eq_none_iff_forall_ne_some]
      intro cutoff hc
      obtain ⟨hns, hstart⟩ := cutoff?_eq_some_iff.1 hc
      have hl := Instant.le_iff.1 (Instant.earliest_le cutoff)
      have hu := Instant.le_iff.1 (Instant.le_latest cutoff)
      apply hrange
      unfold Instant.InRange
      omega
    exact expire_of_cutoff?_none hc q

theorem answer_of_behind (room : kept.length < limit)
    (behind : ∀ newest, kept.getLast? = some newest → newest < now) :
    kept.answer limit now again = (.ok (.recorded now), 1) := by
  rw [answer, if_neg (Nat.not_le_of_lt room)]
  cases hl : kept.getLast? with
  | none => rfl
  | some newest => exact if_pos (behind newest hl)

theorem answer_of_ahead (room : kept.length < limit) {newest : Instant}
    (last : kept.getLast? = some newest) (ahead : now ≤ newest)
    (gap : newest.ns ≠ now.ns + 1000) : kept.answer limit now again =
      match newest.next? with
      | some stamp => (.ok (.recorded stamp), 1)
      | none => (.error .pastLatest, 1) := by
  have hgap : ¬ newest.ns - now.ns = 1000 := by omega
  rw [answer, if_neg (Nat.not_le_of_lt room), last]
  simp only [if_neg (not_lt.2 ahead), if_neg hgap]

theorem answer_of_edge (room : kept.length < limit) {newest : Instant}
    (last : kept.getLast? = some newest) (edge : newest.ns = now.ns + 1000) :
    kept.answer limit now again =
      if newest < again then (.ok (.recorded again), 2) else (.ok (.refused .crowded), 2) := by
  have hedge : newest.ns - now.ns = 1000 := by omega
  have hahead : ¬ newest < now := by
    rw [Instant.lt_iff]
    omega
  rw [answer, if_neg (Nat.not_le_of_lt room), last]
  simp only [if_neg hahead, if_pos hedge]

theorem Offered.answer_eq {o : Outcome Queue Admission} (h : Offered kept limit now again o) :
    (o.result, 1 + o.samples) = kept.answer limit now again := by
  cases h with
  | full hfull => exact (if_pos hfull).symm
  | recorded room appended ok state =>
    cases appended with
    | fresh behind =>
      cases ok
      exact (answer_of_behind room behind).symm
    | moved last ahead gap next =>
      cases ok
      rw [answer_of_ahead room last ahead gap, Instant.next?_eq_some_iff.2 next]
      rfl
    | reread last edge passed =>
      cases ok
      rw [answer_of_edge room last edge, if_pos passed]
      rfl
    | crowded => cases ok
    | fault => cases ok
  | crowded room last edge stuck =>
    rw [answer_of_edge room last edge, if_neg (not_lt.2 stuck)]
    rfl
  | fault room last gap =>
    rw [answer_of_ahead room last (Instant.le_latest now) gap, Instant.next?_eq_none_iff.2 rfl]
    rfl

end Queue

namespace AttemptLog

/-- On a tracked key whose queue ascends, at any readings and with any window: an attempt leaves
what remains of the queue followed by the instant that it recorded, and no other key changes. -/
theorem offer_closed_form {log : AttemptLog} {key : String} {q : Queue}
    (hk : log[key]? = some q) (ascending : q.Ascending) {limit : Nat} (hl : 1 ≤ limit)
    (window : Span) (c : Clock) :
    let kept := q.remaining c.now window
    let o := log.offer c key limit window
    (o.result, o.samples) = kept.answer limit c.now (c.reading 1) ∧
      o.state[key]? = some (kept ++ (Admission.stampIn? o.result).toList) ∧
      ∀ other, other ≠ key → o.state[other]? = log[other]? := by
  intro kept o
  obtain ⟨hr, hn, hs⟩ := log.offer_spec c key (Nat.ne_of_gt hl) window
  have ho := Queue.offer_offered q limit window c.now (c.reading 1)
  rw [ascending.expire_eq_remaining] at ho
  rw [attempts_of_some hk] at hr hn hs
  refine ⟨?_, ?_, fun other hne => ?_⟩
  · rw [hr, hn]
    exact ho.answer_eq
  · rw [hs, hr, Std.ExtTreeMap.getElem?_insert_self, ho.state_eq]
  · rw [hs, Std.ExtTreeMap.getElem?_insert, if_neg (by simpa using Ne.symm hne)]

/-- The first entry expires, the last one stands at the end of the tolerance, and a second
reading lies just past it. -/
theorem offer_closed_form_of_edge :
    let q : Queue := [.ofNs 0, .ofNs 2000000500, .ofNs 2000001000]
    let log : AttemptLog := empty.insert "10.0.0.1" q
    let c : Clock := ⟨fun n => if n = 0 then .ofNs 2000000000 else .ofNs 2000001001⟩
    let o := log.offer c "10.0.0.1" 3 .second
    (o.result, o.samples) = (.ok (.recorded (.ofNs 2000001001)), 2) ∧
      o.state["10.0.0.1"]? = some [.ofNs 2000000500, .ofNs 2000001000, .ofNs 2000001001] := by
  intro q log c o
  have hk : log["10.0.0.1"]? = some q := by simp [log]
  have hascending : q.Ascending := by decide +kernel
  obtain ⟨hanswer, hstate, -⟩ := offer_closed_form hk hascending (show 1 ≤ 3 by decide) .second c
  have hedge : (q.remaining c.now .second).answer 3 c.now (c.reading 1) =
      (.ok (.recorded (.ofNs 2000001001)), 2) := by decide +kernel
  rw [hedge] at hanswer
  refine ⟨hanswer, ?_⟩
  rw [hstate, (Prod.mk.inj hanswer).1]
  decide +kernel

end AttemptLog
end Throttle
