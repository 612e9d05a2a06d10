import Mathlib.Data.List.Induction
import Throttle.Proofs.Log

/-!
# Conservation of recorded attempts

What a key has recorded is what it has lost, to expiry, to a caller that took it or to a
clearing of the log, followed by its queue. A queue that was just created holds one entry,
so since then each queue is the tail of what was recorded, in strictly ascending order.
-/

namespace Throttle
namespace AttemptLog

/-! What is recorded and what is lost. -/

def Call.RecordsFor (key : String) : Call → Prop
  | create other | append other | offer other _ _ => other = key
  | takeOldest _ | purge _ | clear => False

instance (key : String) : DecidablePred (Call.RecordsFor key)
  | .create other | .append other | .offer other _ _ => inferInstanceAs (Decidable (other = key))
  | .takeOldest _ | .purge _ | .clear => inferInstanceAs (Decidable False)

def Answer.stamp? : Answer → Option Instant
  | stamp t? => t?
  | admission a => a.stamp?
  | number _ | done => none

def recordedAt? (key : String) (step : Run.Step Call Answer) : Option Instant :=
  if step.call.RecordsFor key then step.result.toOption.bind Answer.stamp? else none

def recorded (key : String) (history : List (Run.Step Call Answer)) : List Instant :=
  history.filterMap (recordedAt? key)

def lost (key : String) (log : AttemptLog) (c : Clock) : Call → List Instant
  | .takeOldest other => if other = key then (log.attempts key).take 1 else []
  | .offer other limit window =>
    if other = key ∧ limit ≠ 0 then (log.attempts key).expired c.now window else []
  | .purge window => (log.attempts key).expired c.now window
  | .clear => log.attempts key
  | .create _ | .append _ => []

def losses (key : String) : AttemptLog → List (Call × Clock) → List Instant
  | _, [] => []
  | log, (call, c) :: rest => lost key log c call ++ losses key (log.perform c call).state rest

/-! One call. -/

theorem attempts_insert (log : AttemptLog) (key other : String) (q : Queue) :
    AttemptLog.attempts (log.insert key q) other =
      if other = key then q else log.attempts other := by
  split
  · subst other
    exact attempts_insert_self log key q
  · exact attempts_insert_of_ne log (Ne.symm ‹_›) q

theorem attempts_create (log : AttemptLog) (c : Clock) (key other : String) :
    let o := log.create c key
    o.state.attempts other =
      log.attempts other ++ if key = other then o.result.toOption.join.toList else [] := by
  by_cases hc : log.contains key = true
  · simp [create, hc, Except.toOption]
  · have hk := Std.ExtTreeMap.getElem?_eq_none_of_contains_eq_false ((Bool.not_eq_true _).mp hc)
    rw [create, if_neg hc]
    simp only [attempts_insert]
    by_cases he : key = other
    · subst other
      simp [attempts_of_none hk, Except.toOption]
    · simp [he, Ne.symm he]

theorem attempts_append (log : AttemptLog) (c : Clock) (key other : String) :
    let o := log.append c key
    o.state.attempts other =
      log.attempts other ++ if key = other then o.result.toOption.join.toList else [] := by
  cases hk : log[key]? with
  | none => simp [append, hk, Except.toOption]
  | some q =>
    have hs := (Queue.append_appended q c.now (c.reading 1)).state_eq
    simp only [append, hk, Outcome.state_afterSamples, Outcome.state_lift, attempts_insert]
    by_cases he : key = other
    · subst other
      simp [attempts_of_some hk, hs]
    · simp [he, Ne.symm he]

theorem attempts_offer (log : AttemptLog) (c : Clock) (key other : String) (limit : Nat)
    (window : Span) :
    let o := log.offer c key limit window
    (if key = other ∧ limit ≠ 0 then (log.attempts other).expired c.now window else []) ++
        o.state.attempts other =
      log.attempts other ++ if key = other then (Admission.stampIn? o.result).toList else [] := by
  by_cases hl : limit = 0
  · simp [offer, hl]
  · obtain ⟨hr, -, hstate⟩ := log.offer_spec c key hl window
    simp only [hr, hstate, attempts_insert]
    by_cases he : key = other
    · subst other
      have hs := (Queue.offer_offered (log.attempts key) limit window c.now
        (c.reading 1)).state_eq
      have hsplit := (log.attempts key).expired_append_expire c.now window
      rw [if_pos ⟨rfl, hl⟩, if_pos rfl, if_pos rfl, hs, ← List.append_assoc, hsplit]
    · simp [he, Ne.symm he]

theorem attempts_takeOldest (log : AttemptLog) (key other : String) :
    (if key = other then (log.attempts other).take 1 else []) ++
        (log.takeOldest key).2.attempts other = log.attempts other := by
  by_cases he : key = other
  · subst other
    cases hk : log[key]? with
    | none => simp [takeOldest, hk, attempts_of_none hk]
    | some q =>
      cases q with
      | nil => simp [takeOldest, hk, attempts_of_some hk]
      | cons oldest rest => simp [takeOldest, hk, attempts_of_some hk, attempts_insert]
  · rw [if_neg he, List.nil_append]
    unfold takeOldest
    split
    · rw [attempts_insert, if_neg (Ne.symm he)]
    · rfl

theorem toOption_map_stamp (r : Except Fault (Option Instant)) :
    (r.map Answer.stamp).toOption.bind Answer.stamp? = r.toOption.join := by
  cases r <;> rfl

theorem toOption_map_admission (r : Except Fault Admission) :
    (r.map Answer.admission).toOption.bind Answer.stamp? = Admission.stampIn? r := by
  cases r <;> rfl

/-- A call takes entries off the front of a queue and puts what it records at its end. -/
theorem perform_conserves (log : AttemptLog) (c : Clock) (call : Call) (key : String) :
    let o := log.perform c call
    lost key log c call ++ o.state.attempts key =
      log.attempts key ++ (recordedAt? key ⟨call, o.readings c, o.result⟩).toList := by
  cases call with
  | create other =>
    have ha := log.attempts_create c other key
    simp only [lost, recordedAt?, Call.RecordsFor, perform, Outcome.result_map,
      Outcome.state_map, toOption_map_stamp]
    by_cases he : other = key <;> simpa [he] using ha
  | append other =>
    have ha := log.attempts_append c other key
    simp only [lost, recordedAt?, Call.RecordsFor, perform, Outcome.result_map,
      Outcome.state_map, toOption_map_stamp]
    by_cases he : other = key <;> simpa [he] using ha
  | offer other limit window =>
    have ha := log.attempts_offer c other key limit window
    simp only [lost, recordedAt?, Call.RecordsFor, perform, Outcome.result_map,
      Outcome.state_map, toOption_map_admission]
    by_cases he : other = key <;> simpa [he] using ha
  | takeOldest other =>
    have ha := log.attempts_takeOldest other key
    simpa [lost, recordedAt?, Call.RecordsFor, perform] using ha
  | purge window =>
    have hs := (log.attempts key).expired_append_expire c.now window
    simpa [lost, recordedAt?, Call.RecordsFor, perform, purge, purgeExcept, attempts_sweep] using hs
  | clear => simp [lost, recordedAt?, Call.RecordsFor, perform, attempts_empty]

theorem Treated.ascending {c : Clock} {key : String} {call : Call} {n : Nat} {q? r? : Option Queue}
    (ht : Treated c key call n q? r?) (h : ∀ q ∈ q?, q.Ascending) : ∀ r ∈ r?, r.Ascending := by
  have hsingle : Queue.Ascending [c.now] := List.pairwise_singleton _ _
  intro r hr
  cases ht with
  | spared => exact h r hr
  | created =>
    cases hr
    exact hsingle
  | started =>
    cases hr
    exact hsingle
  | appended q =>
    cases hr
    exact (Queue.append_appended q _ _).ascending (h q rfl)
  | offered limit window q =>
    cases hr
    exact (Queue.offer_offered q _ _ _ _).ascending ((h q rfl).expire _ _)
  | shortened oldest rest =>
    cases hr
    exact (List.pairwise_cons.1 (h _ rfl)).2
  | expired window q =>
    cases hr
    exact (h q rfl).expire _ _
  | dropped => cases hr
  | cleared => cases hr

/-! Whole runs. -/

theorem ascending_of_run {log : AttemptLog} {key : String} (h : ∀ q ∈ log[key]?, q.Ascending)
    (run : List (Call × Clock)) : ∀ q ∈ (Run.final perform log run)[key]?, q.Ascending :=
  Run.final_keeps (P := fun log : AttemptLog => ∀ q ∈ log[key]?, q.Ascending)
    (fun log c call hq => (perform_treated log c call key).ascending hq) h run

theorem run_conserves (log : AttemptLog) (run : List (Call × Clock)) (key : String) :
    losses key log run ++ (Run.final perform log run).attempts key =
      log.attempts key ++ recorded key (Run.history perform log run) := by
  induction run generalizing log with
  | nil => simp [losses, recorded, Run.final, Run.history]
  | cons step rest ih =>
    obtain ⟨call, c⟩ := step
    have hcall := log.perform_conserves c call key
    simp only [losses, Run.final, Run.history, recorded]
    rw [List.append_assoc, ih, ← List.append_assoc, hcall, List.append_assoc]
    cases hs : recordedAt? key ⟨call, (log.perform c call).readings c, (log.perform c call).result⟩ <;>
      simp [hs, recorded]

/-- The queue of a key was last created by the first call of `since`: it was not there
before, and it was there ever after. -/
structure CreatedLast (key : String) (before since : List (Call × Clock)) : Prop where
  untracked : key ∉ Run.final perform empty before
  tracked : ∀ done, done <+: since → done ≠ [] → key ∈ Run.final perform empty (before ++ done)

theorem exists_createdLast {run : List (Call × Clock)} {key : String}
    (h : key ∈ Run.final perform empty run) :
    ∃ before since, run = before ++ since ∧ CreatedLast key before since := by
  induction run using List.reverseRecOn with
  | nil => simp [Run.final, empty] at h
  | append_singleton run step ih =>
    -- Either the queue was there before the last call, or that call created it.
    by_cases hk : key ∈ Run.final perform empty run
    · obtain ⟨before, since, rfl, hc⟩ := ih hk
      refine ⟨before, since ++ [step], by simp, hc.untracked, fun done hd hne => ?_⟩
      rcases List.prefix_concat_iff.1 hd with rfl | hd
      · simpa using h
      · exact hc.tracked done hd hne
    · refine ⟨run, [step], rfl, hk, fun done hd hne => ?_⟩
      have hstep : done <+: [] ++ [step] := hd
      rcases List.prefix_concat_iff.1 hstep with rfl | hd
      · exact h
      · exact absurd (List.prefix_nil.1 hd) hne

def draining (key : String) (c : Clock) (n : Nat) : List (Call × Clock) :=
  List.replicate n (.takeOldest key, c)

theorem drained {log : AttemptLog} {key : String} {q : Queue} (hk : log[key]? = some q)
    (c : Clock) :
    (Run.history perform log (draining key c (q.length + 1))).map Run.Step.result =
      q.map (fun t => .ok (.stamp (some t))) ++ [.ok (.stamp none)] := by
  induction q generalizing log with
  | nil => simp [draining, Run.history, perform, takeOldest, hk]
  | cons oldest rest ih =>
    have hrest : (log.takeOldest key).2[key]? = some rest := by simp [takeOldest, hk]
    rw [List.length_cons, draining, List.replicate_succ]
    simp only [Run.history, List.map_cons, List.map_cons, List.cons_append]
    have hresult : (log.perform c (.takeOldest key)).result = .ok (.stamp (some oldest)) := by
      simp [perform, takeOldest, hk]
    rw [hresult]
    exact congrArg _ (ih hrest)

/-- After any run a queue ascends strictly. It is the tail of what its key has recorded
since the queue was last created, with what it has lost since then before it, and that is
what callers get who take it entry by entry. -/
theorem queue_suffix_recorded (run : List (Call × Clock)) {key : String} {q : Queue}
    (hk : (Run.final perform empty run)[key]? = some q) :
    q.Ascending ∧
      (∃ before since, run = before ++ since ∧ CreatedLast key before since ∧
        let past := Run.final perform empty before
        let times := recorded key (Run.history perform past since)
        q <:+ times ∧ losses key past since ++ q = times) ∧
      ∀ c, (Run.history perform (Run.final perform empty run)
          (draining key c (q.length + 1))).map Run.Step.result =
        q.map (fun t => .ok (.stamp (some t))) ++ [.ok (.stamp none)] := by
  have hempty : ∀ r ∈ (empty : AttemptLog)[key]?, r.Ascending := by simp [empty]
  refine ⟨ascending_of_run hempty run q hk, ?_, drained hk⟩
  have hmem : key ∈ Run.final perform empty run := by
    rw [Std.ExtTreeMap.mem_iff_isSome_getElem?, hk]
    rfl
  obtain ⟨before, since, rfl, hc⟩ := exists_createdLast hmem
  have hrun := run_conserves (Run.final perform empty before) since key
  have hnone := Std.ExtTreeMap.getElem?_eq_none hc.untracked
  rw [Run.final_append] at hk
  rw [attempts_of_some hk, attempts_of_none hnone, List.nil_append] at hrun
  exact ⟨before, since, rfl, hc, ⟨_, hrun⟩, hrun⟩

/-- The queue is dropped and created anew. Of its entries the second is moved off the first,
the third is a second reading after the clock was set back, and the first is taken. -/
theorem queue_suffix_of_recreation :
    let run := [(Call.create "10.0.0.1", Clock.still (.ofNs 0)),
      (.purge .second, .still (.ofNs 3000000000)),
      (.offer "10.0.0.1" 2 .second, .still (.ofNs 3000000000)),
      (.append "10.0.0.1", .still (.ofNs 3000000000)),
      (.append "10.0.0.1", ⟨fun n => if n = 0 then .ofNs 2999999001 else .ofNs 3000000002⟩),
      (.takeOldest "10.0.0.1", .still (.ofNs 0))]
    let log := Run.final perform empty run
    log["10.0.0.1"]? = some [.ofNs 3000000001, .ofNs 3000000002] ∧
      (Run.history perform log (draining "10.0.0.1" (.still (.ofNs 0)) 3)).map Run.Step.result =
        [.ok (.stamp (some (.ofNs 3000000001))), .ok (.stamp (some (.ofNs 3000000002))),
          .ok (.stamp none)] := by
  intro run log
  have hk : log["10.0.0.1"]? = some [.ofNs 3000000001, .ofNs 3000000002] := by decide +kernel
  exact ⟨hk, (queue_suffix_recorded run hk).2.2 (.still (.ofNs 0))⟩

end AttemptLog
end Throttle
