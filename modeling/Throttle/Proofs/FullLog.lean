import Throttle.Proofs.Ledger

/-!
# The full log

A ledger that forgets answers attempts like one that keeps every instant it ever
recorded, as long as its clock never goes back and stays clear of both ends of time.
Nothing that a queue has lost counts any more, and from the clock up to the newest
entry every instant is taken.
-/

namespace Throttle
namespace FullLog

/-- The verdict on an attempt, given every instant recorded for its identity. -/
def judge (limit : Nat) (window : Span) (now : Instant) (log : List Instant) :
    Except Fault Admission :=
  if limit ≤ log.countP (fun t => now.ns - window.ns + 1000 ≤ t.ns) then .ok (.refused .full)
  else if ∀ t ∈ log, t < now then .ok (.recorded now)
  else if ∀ i ∈ List.range 1001, ∃ t ∈ log, t.ns = now.ns + i then .ok (.refused .crowded)
  else match log.getLast?.bind Instant.next? with
    | some stamp => .ok (.recorded stamp)
    | none => .error .pastLatest

def stamps (verdict : Except Fault Admission) : List Instant :=
  (Admission.stampIn? verdict).toList

def verdicts (limit : Nat) (window : Span) (logs : Identity → List Instant) :
    List (Ledger.Call × Instant) → List (Except Fault Admission)
  | [] => []
  | (.attempt identity, now) :: rest =>
    let verdict := judge limit window now (logs identity)
    let log := logs identity ++ stamps verdict
    verdict :: verdicts limit window (Function.update logs identity log) rest
  | _ :: rest => verdicts limit window logs rest

/-- What a queue and the full log of its identity have in common once the clock has
read `past`. -/
structure Tracks (window : Span) (past : Instant) (log : List Instant) (q : Queue) : Prop where
  ascending : Queue.Ascending log
  kept : ∃ gone, log = gone ++ q ∧ ∀ t ∈ gone, t.ns < past.ns - window.ns + 1000
  near : ∀ t ∈ log, t.ns ≤ past.ns + 1000
  dense : ∀ t ∈ log, ∀ n, past.ns ≤ n → n ≤ t.ns → ∃ u ∈ log, u.ns = n
  inside : ∀ t ∈ log, Instant.earliest.ns + 2000 < t.ns

variable {limit : Nat} {window : Span} {past now : Instant} {log : List Instant} {q : Queue}

theorem tracks_nil (window : Span) (past : Instant) : Tracks window past [] [] :=
  ⟨.nil, ⟨[], rfl, by simp⟩, by simp, by simp, by simp⟩

namespace Tracks

theorem mono (h : Tracks window past log q) (hle : past ≤ now) : Tracks window now log q := by
  rw [Instant.le_iff] at hle
  obtain ⟨gone, hlog, hgone⟩ := h.kept
  refine ⟨h.ascending, ⟨gone, hlog, fun t ht => ?_⟩, fun t ht => ?_, fun t ht n hn => ?_, h.inside⟩
  · have := hgone t ht
    omega
  · have := h.near t ht
    omega
  · exact h.dense t ht n (by omega)

theorem expire (h : Tracks window past log q) (hle : past ≤ now) :
    Tracks window now log (q.expire now window) := by
  have hm := h.mono hle
  obtain ⟨gone, hlog, hgone⟩ := hm.kept
  obtain ⟨expired, hq, hx⟩ := Queue.expire_split now window q
  refine ⟨hm.ascending, ⟨gone ++ expired, ?_, fun t ht => ?_⟩, hm.near, hm.dense, hm.inside⟩
  · rw [List.append_assoc, ← hq, hlog]
  · rcases List.mem_append.1 ht with ht | ht
    · exact hgone t ht
    · obtain ⟨cutoff, hc, hlt⟩ := hx t ht
      have hns := Queue.cutoff?_ns hc
      rw [Instant.lt_iff] at hlt
      omega

theorem expire_eq_filter (h : Tracks window past log q) (hle : past ≤ now)
    (hw : 1000 ≤ window.ns) :
    q.expire now window = log.filter fun t => now.ns - window.ns + 1000 ≤ t.ns := by
  obtain ⟨gone, hlog, hgone⟩ := (h.mono hle).kept
  have hasc := h.ascending
  have hinside := h.inside
  subst hlog
  cases hc : Queue.cutoff? now window with
  | none =>
    -- the window starts before the first instant, so nothing can have expired yet
    have hlow := (Queue.cutoff?_eq_none_iff hw).1 hc
    have hnil : gone = [] := by
      refine List.eq_nil_iff_forall_not_mem.2 fun t ht => ?_
      have hg := hgone t ht
      have hi := hinside t (List.mem_append_left _ ht)
      omega
    rw [Queue.expire_of_cutoff?_none hc, hnil, List.nil_append, eq_comm, List.filter_eq_self]
    intro t ht
    have hi := hinside t (List.mem_append_right _ ht)
    simp only [decide_eq_true_eq]
    omega
  | some cutoff =>
    have hns := Queue.cutoff?_ns hc
    have hq : Queue.Ascending q := (List.pairwise_append.1 hasc).2.1
    have hdrop : gone.filter (fun t => now.ns - window.ns + 1000 ≤ t.ns) = [] := by
      refine List.filter_eq_nil_iff.2 fun t ht => ?_
      have hg := hgone t ht
      simp only [decide_eq_true_eq]
      omega
    rw [hq.expire_eq_filter hc, List.filter_append, hdrop, List.nil_append]
    refine List.filter_congr fun t _ => ?_
    simp only [Instant.le_iff, hns]

theorem concat (h : Tracks window now log q) {stamp : Instant}
    (hlt : ∀ t ∈ log, t < stamp) (hnear : stamp.ns ≤ now.ns + 1000)
    (hdense : ∀ n, now.ns ≤ n → n < stamp.ns → ∃ u ∈ log, u.ns = n)
    (hinside : Instant.earliest.ns + 2000 < stamp.ns) :
    Tracks window now (log ++ [stamp]) (q ++ [stamp]) := by
  obtain ⟨gone, hlog, hgone⟩ := h.kept
  refine ⟨h.ascending.concat hlt, ⟨gone, by rw [hlog, List.append_assoc], hgone⟩, ?_,
    Queue.taken_concat h.dense hdense, ?_⟩
  · simpa [or_imp, forall_and] using And.intro h.near hnear
  · simpa [or_imp, forall_and] using And.intro h.inside hinside

variable {newest : Instant}

theorem getLast? (h : Tracks window past log q) (hl : q.getLast? = some newest) :
    log.getLast? = some newest := by
  obtain ⟨gone, rfl, -⟩ := h.kept
  rw [List.getLast?_append, hl, Option.some_or]

theorem lt_of_behind (h : Tracks window past log q) (hle : past ≤ now) (hw : 1000 ≤ window.ns)
    (behind : ∀ newest, (q.expire now window).getLast? = some newest → newest < now) :
    ∀ t ∈ log, t < now := by
  intro t ht
  by_cases hin : now.ns - window.ns + 1000 ≤ t.ns
  · have hmem : t ∈ q.expire now window := by
      rw [h.expire_eq_filter hle hw, List.mem_filter]
      exact ⟨ht, by simpa using hin⟩
    have hl := List.getLast?_eq_some_getLast (List.ne_nil_of_mem hmem)
    exact lt_of_le_of_lt (h.ascending.le_newest ((h.expire hle).getLast? hl) t ht) (behind _ hl)
  · rw [Instant.lt_iff]
    omega

theorem concat_fresh (h : Tracks window now log q) (hlt : ∀ t ∈ log, t < now)
    (hlow : Instant.earliest.ns + 2000 < now.ns) :
    Tracks window now (log ++ [now]) (q ++ [now]) := by
  refine h.concat hlt (by omega) (fun n hn hns => ?_) hlow
  omega

theorem concat_moved (h : Tracks window now log q) (hl : q.getLast? = some newest)
    (hahead : now ≤ newest) (hgap : newest.ns ≠ now.ns + 1000) {stamp : Instant}
    (hnext : stamp.ns = newest.ns + 1) (hlow : Instant.earliest.ns + 2000 < now.ns) :
    Tracks window now (log ++ [stamp]) (q ++ [stamp]) := by
  have hlast := h.getLast? hl
  have hm := List.mem_of_getLast? hlast
  have hns := Instant.le_iff.1 hahead
  have hnear := h.near newest hm
  have hlt : ∀ t ∈ log, t < stamp := by
    intro t ht
    have hle := Instant.le_iff.1 (h.ascending.le_newest hlast t ht)
    rw [Instant.lt_iff]
    omega
  exact h.concat hlt (by omega) (fun n hn hns => h.dense newest hm n hn (by omega)) (by omega)

end Tracks

variable {newest : Instant}

theorem judge_full (h : limit ≤ log.countP (fun t => now.ns - window.ns + 1000 ≤ t.ns)) :
    judge limit window now log = .ok (.refused .full) := by
  rw [judge, if_pos h]

theorem judge_fresh (h : ¬ limit ≤ log.countP (fun t => now.ns - window.ns + 1000 ≤ t.ns))
    (hlt : ∀ t ∈ log, t < now) : judge limit window now log = .ok (.recorded now) := by
  rw [judge, if_neg h, if_pos hlt]

theorem judge_crowded (h : ¬ limit ≤ log.countP (fun t => now.ns - window.ns + 1000 ≤ t.ns))
    (ht : Tracks window past log q) (hle : past ≤ now) (hm : newest ∈ log)
    (hedge : newest.ns = now.ns + 1000) :
    judge limit window now log = .ok (.refused .crowded) := by
  rw [Instant.le_iff] at hle
  have hnot : ¬ ∀ t ∈ log, t < now := by
    intro hlt
    have := Instant.lt_iff.1 (hlt newest hm)
    omega
  rw [judge, if_neg h, if_neg hnot, if_pos]
  intro i hi
  rw [List.mem_range] at hi
  exact ht.dense newest hm (now.ns + i) (by omega) (by omega)

theorem judge_moved (h : ¬ limit ≤ log.countP (fun t => now.ns - window.ns + 1000 ≤ t.ns))
    (ht : Tracks window past log q) (hle : past ≤ now) (hl : log.getLast? = some newest)
    (hahead : now ≤ newest) (hgap : newest.ns ≠ now.ns + 1000) {stamp : Instant}
    (hnext : stamp.ns = newest.ns + 1) :
    judge limit window now log = .ok (.recorded stamp) := by
  rw [Instant.le_iff] at hle
  have hm := List.mem_of_getLast? hl
  have hnear := ht.near newest hm
  have hnot : ¬ ∀ t ∈ log, t < now := fun hlt => absurd hahead (not_le.2 (hlt newest hm))
  have hspare : ¬ ∀ i ∈ List.range 1001, ∃ t ∈ log, t.ns = now.ns + i := by
    intro hall
    obtain ⟨t, htm, htn⟩ := hall 1000 (by simp)
    have hlast := Instant.le_iff.1 (ht.ascending.le_newest hl t htm)
    omega
  rw [judge, if_neg h, if_neg hnot, if_neg hspare, hl, Option.bind_some,
    Instant.next?_eq_some_iff.2 hnext]

theorem Tracks.offer (h : Tracks window past log q) (hle : past ≤ now) (hw : 1000 ≤ window.ns)
    (hlow : Instant.earliest.ns + 2000 < now.ns) (hhigh : now.ns + 2000 < Instant.latest.ns) :
    let o := q.offer limit window now now
    o.result = judge limit window now log ∧ (∃ a, o.result = .ok a) ∧
      Tracks window now (log ++ stamps o.result) o.state := by
  have ho := Queue.offer_offered q limit window now now
  have ht := h.expire hle
  have hbehind := h.lt_of_behind hle hw
  have hcount : log.countP (fun t => now.ns - window.ns + 1000 ≤ t.ns) =
      (q.expire now window).length := by
    rw [h.expire_eq_filter hle hw, List.countP_eq_length_filter]
  generalize q.offer limit window now now = o at ho
  generalize q.expire now window = kept at ho ht hbehind hcount
  cases ho with
  | full hfull =>
    rw [judge_full (by omega)]
    exact ⟨rfl, ⟨_, rfl⟩, by simpa [stamps] using ht⟩
  | crowded room last edge stuck =>
    rw [judge_crowded (by omega) ht (le_refl _) (List.mem_of_getLast? (ht.getLast? last)) edge]
    exact ⟨rfl, ⟨_, rfl⟩, by simpa [stamps] using ht⟩
  | fault room last gap =>
    have hnear := ht.near _ (List.mem_of_getLast? (ht.getLast? last))
    omega
  | recorded room appended ok state =>
    cases appended with
    | fresh behind =>
      cases ok
      have hlt := hbehind behind
      rw [judge_fresh (by omega) hlt]
      exact ⟨rfl, ⟨_, rfl⟩, ht.concat_fresh hlt hlow⟩
    | moved last ahead gap next =>
      cases ok
      rw [judge_moved (by omega) ht (le_refl _) (ht.getLast? last) ahead gap next]
      exact ⟨rfl, ⟨_, rfl⟩, ht.concat_moved last ahead gap next hlow⟩
    | reread last edge passed =>
      rw [Instant.lt_iff] at passed
      omega
    | crowded => cases ok
    | fault => cases ok

theorem verdicts_filter (logs : Identity → List Instant) (run : List (Ledger.Call × Instant)) :
    verdicts limit window logs (run.filter (·.1.isAttempt)) = verdicts limit window logs run := by
  induction run generalizing logs with
  | nil => rfl
  | cons step rest ih =>
    obtain ⟨call, now⟩ := step
    cases call with
    | attempt identity =>
      rw [List.filter_cons_of_pos rfl]
      simp only [verdicts, ih]
    | purge => exact ih logs
    | forecast identity n w => exact ih logs
    | count identity => exact ih logs

end FullLog

namespace Ledger
open FullLog (Tracks verdicts)

variable {limit : Nat} {window : Span}

/-- The steps of a run stand in order and clear of both ends of time, and their
identities are told apart by their places. -/
structure Steady (run : List (Call × Instant)) : Prop where
  forward : run.Pairwise fun before after => before.2 ≤ after.2
  inside : ∀ step ∈ run,
    Instant.earliest.ns + 2000 < step.2.ns ∧ step.2.ns + 2000 < Instant.latest.ns
  plain : ∀ step ∈ run, ∀ identity, step.1 = .attempt identity → identity.Plain

theorem Steady.filter {run : List (Call × Instant)} (h : Steady run)
    (p : Call × Instant → Bool) : Steady (run.filter p) where
  forward := h.forward.filter p
  inside step hs := h.inside step (List.mem_filter.1 hs).1
  plain step hs := h.plain step (List.mem_filter.1 hs).1

theorem admissions_from (hl : limit ≠ 0) (hw : 1000 ≤ window.ns) {run : List (Call × Instant)}
    {s : Ledger} {logs : Identity → List Instant} {past : Instant}
    (h : ∀ i : Identity, i.Plain → Tracks window past (logs i) (s.queue i.place))
    (hrun : Steady run) (hpast : ∀ step ∈ run, past ≤ step.2) :
    admissions (Run.history (perform limit window) s (still run)) =
        verdicts limit window logs run ∧
      ∀ v ∈ verdicts limit window logs run, ∃ a, v = .ok a := by
  induction run generalizing s logs past with
  | nil => exact ⟨rfl, by simp [verdicts]⟩
  | cons step rest ih =>
    obtain ⟨call, now⟩ := step
    obtain ⟨hnow, hrest⟩ := List.pairwise_cons.1 hrun.forward
    have hpn : past ≤ now := hpast (call, now) List.mem_cons_self
    obtain ⟨hlow, hhigh⟩ := hrun.inside _ List.mem_cons_self
    have hin : Steady rest := ⟨hrest, fun step hs => hrun.inside step (List.mem_cons_of_mem _ hs),
      fun step hs => hrun.plain step (List.mem_cons_of_mem _ hs)⟩
    cases call with
    | attempt identity =>
      have hp := hrun.plain _ List.mem_cons_self identity rfl
      obtain ⟨hr, -, hq⟩ := s.record_spec (.still now) identity hl window
      obtain ⟨hj, ⟨a, ha⟩, ht⟩ := (h identity hp).offer hpn hw hlow hhigh
      have hresult : (s.record (.still now) identity limit window).result =
          FullLog.judge limit window now (logs identity) := hr.trans hj
      have hnext : ∀ i : Identity, i.Plain → Tracks window now
          (Function.update logs identity (logs identity ++
            FullLog.stamps (FullLog.judge limit window now (logs identity))) i)
          ((s.record (.still now) identity limit window).state.queue i.place) := by
        intro i hi
        by_cases he : i = identity
        · subst i
          rw [hq, if_pos rfl, Function.update_self, ← hj]
          exact ht
        -- no other plain identity shares the queue
        · have hne : i.place ≠ identity.place := fun hpl => he (Identity.place_injective hi hp hpl)
          rw [hq, if_neg hne, Function.update_of_ne he]
          exact (h i hi).mono hpn
      obtain ⟨heq, hok⟩ := ih hnext hin hnow
      refine ⟨?_, ?_⟩
      · simp only [still, List.map_cons, Run.history, verdicts, admissions, List.filterMap_cons]
        rw [perform, Outcome.result_map, admission?_attempt, hresult]
        exact congrArg _ heq
      · simp only [verdicts, List.forall_mem_cons]
        exact ⟨⟨a, hj ▸ ha⟩, hok⟩
    | purge =>
      obtain ⟨-, -, hq⟩ := s.purge_spec (.still now) window
      refine ih (fun i hi => ?_) hin hnow
      have hstate : (perform limit window s (.still now) .purge).state.queue i.place =
          (s.queue i.place).expire now window := hq i.place
      rw [hstate]
      exact (h i hi).expire hpn
    | forecast identity n w =>
      refine ih (fun i hi => ?_) hin hnow
      have hstate : (perform limit window s (.still now) (.forecast identity n w)).state = s :=
        state_forecast s _ identity n w
      rw [hstate]
      exact (h i hi).mono hpn
    | count identity => exact ih (fun i hi => (h i hi).mono hpn) hin hnow

/-- From the empty ledger every attempt is answered as the full log says. No attempt
fails, and the calls between attempts change no answer. -/
theorem admissions_eq_verdicts (hl : 1 ≤ limit) (hw : 1000000000 ≤ window.ns)
    {run : List (Call × Instant)} (hrun : Steady run) :
    let answers := admissions (Run.history (perform limit window) empty (still run))
    answers = verdicts limit window (fun _ => []) run ∧
      (∀ answer ∈ answers, ∃ a, answer = .ok a) ∧
      answers = admissions (Run.history (perform limit window) empty
        (still (run.filter (·.1.isAttempt)))) := by
  intro answers
  have hempty : ∀ i : Identity, i.Plain →
      Tracks window .earliest [] (empty.queue i.place) := by
    intro i _
    rw [queue_empty]
    exact FullLog.tracks_nil window .earliest
  have hall := fun {run : List (Call × Instant)} (hrun : Steady run) =>
    admissions_from (by omega : limit ≠ 0) (by omega) hempty hrun
      (fun step _ => Instant.earliest_le step.2)
  obtain ⟨hanswers, hok⟩ := hall hrun
  obtain ⟨hfilter, -⟩ := hall (hrun.filter (·.1.isAttempt))
  rw [FullLog.verdicts_filter] at hfilter
  refine ⟨hanswers, fun answer ha => hok answer ?_, hanswers.trans hfilter.symm⟩
  rw [← hanswers]
  exact ha

/-- A purge and two attempts at one instant of which the second moves. -/
theorem admissions_eq_verdicts_of_purge :
    let visitor := Identity.ip "10.0.0.1"
    let run := [(Call.attempt visitor, Instant.ofNs 0), (.attempt visitor, .ofNs 0),
      (.count visitor, .ofNs 0), (.attempt visitor, .ofNs 500000000), (.purge, .ofNs 2000000000),
      (.attempt visitor, .ofNs 2000000000)]
    Steady run ∧ admissions (Run.history (perform 2 .second) empty (still run)) =
      [.ok (.recorded (.ofNs 0)), .ok (.recorded (.ofNs 1)), .ok (.refused .full),
        .ok (.recorded (.ofNs 2000000000))] := by
  intro visitor run
  have hplain : ∀ step ∈ run, ∀ identity, step.1 = .attempt identity → identity.Plain := by
    simp [run, visitor, Identity.Plain]
  have hsteady : Steady run := ⟨by decide +kernel, by decide +kernel, hplain⟩
  refine ⟨hsteady, ?_⟩
  rw [(admissions_eq_verdicts (by decide) (by decide) hsteady).1]
  decide +kernel

end Ledger
end Throttle
