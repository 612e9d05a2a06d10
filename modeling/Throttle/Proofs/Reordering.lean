import Mathlib.Data.List.Perm.Basic
import Throttle.Proofs.Independence
import Throttle.Proofs.Overflow

/-!
# Requests in another order

While the clock stands still the order in which requests are decided does not matter.
Attempts at different places change different queues, attempts at one place cannot be told
apart, and every other request is ruled on by the policy and the registries, which no
decision changes.
-/

namespace Throttle

def Ruling.isCounted : Ruling → Bool
  | serviced | limited _ => true
  | malformed _ | dropped | refused _ | unlimited => false

namespace Ledger

variable {i j : Identity}

theorem record_comm (s : Ledger) (h : i.place ≠ j.place) (c : Clock) (limit : Nat)
    (window : Span) :
    ((s.record c i limit window).state.record c j limit window).state =
      ((s.record c j limit window).state.record c i limit window).state := by
  by_cases hl : limit = 0
  · subst limit
    simp only [record_zero]
  · refine ext_of_queue? (fun place => ?_) ?_ ?_
    · have hi := queue_record_of_ne s c h limit window
      have hj := queue_record_of_ne s c h.symm limit window
      simp only [queue?_record _ c hl, hi, hj]
      by_cases hpi : place = i.place
      · subst place
        simp [h]
      · simp [hpi]
    · simp only [hostile_record]
    · simp only [approved_record]

theorem record_at_place (s : Ledger) (h : i.place = j.place) (c : Clock) (limit : Nat)
    (window : Span) :
    let o := s.record c i limit window
    let r := s.record c j limit window
    o.Agrees r ∧ o.state = r.state := by
  obtain ⟨hk, hl⟩ := Prod.mk.inj h
  simp only [record, recordIn_eq_offer, hk, hl]
  exact ⟨⟨by simp, by simp⟩, by simp⟩

end Ledger

namespace Limiter

variable {l m : Limiter} {i j : Identity}

theorem attempt_comm (l : Limiter) (h : i.place ≠ j.place) (c : Clock) :
    ((l.attempt c i).state.attempt c j).state = ((l.attempt c j).state.attempt c i).state := by
  simp only [attempt_state]
  exact congrArg l.withLedger (l.ledger.record_comm h c l.limit l.window)

def reply (refusal? : Option Refusal) : Nat × Option Nat :=
  ((ruling refusal?).status, (ruling refusal?).retryAfter)

theorem attempt_at_place (l : Limiter) (h : i.place = j.place) (c : Clock) :
    (l.attempt c i).state = (l.attempt c j).state ∧
      (l.attempt c i).result.map reply = (l.attempt c j).result.map reply := by
  obtain ⟨-, hs⟩ := l.ledger.record_at_place h c l.limit l.window
  refine ⟨by rw [attempt_state, attempt_state, hs], ?_⟩
  by_cases hl : l.limit = 0
  · rw [(attempt_zero hl c i).1, (attempt_zero hl c j).1]
    rfl
  · obtain ⟨-, -, -, hi⟩ := l.attempt_spec c i hl
    obtain ⟨-, -, -, hj⟩ := l.attempt_spec c j hl
    rw [hi, hj, Ledger.attempts_eq_queue, Ledger.attempts_eq_queue, h]
    cases ((l.ledger.queue j.place).offer l.limit l.window c.now (c.reading 1)).result with
    | error e => rfl
    | ok a => cases a <;> rfl

/-! One request. -/

/-- Two limiters that let the same requests through to the limiter and rule alike on all
the others. -/
structure Ruled (l m : Limiter) : Prop where
  policy : l.policy = m.policy
  hostile : l.ledger.hostile = m.ledger.hostile
  approved : l.ledger.approved = m.ledger.approved

namespace Ruled

theorem isHostile_eq (h : Ruled l m) (ip : String) : l.isHostile ip = m.isHostile ip := by
  rw [isHostile, isHostile, h.policy, h.hostile]

theorem gate_eq (h : Ruled l m) (token : String) : l.gate token = m.gate token := by
  rw [gate, gate, h.policy, h.approved]

theorem counted?_eq (h : Ruled l m) (request : Request) :
    l.counted? request = m.counted? request := by
  have hi : l.identity? = m.identity? := by
    funext client authorization path
    rw [Limiter.identity?, Limiter.identity?, h.policy]
  rw [counted?, counted?, h.isHostile_eq, h.gate_eq, hi]

theorem uncounted_eq (h : Ruled l m) (request : Request) :
    l.uncounted request = m.uncounted request := by
  rw [uncounted, uncounted, h.isHostile_eq, h.gate_eq]

theorem attempt (l : Limiter) (c : Clock) (i : Identity) : Ruled (l.attempt c i).state l := by
  rw [attempt_state]
  exact ⟨rfl, l.ledger.hostile_record c i _ _, l.ledger.approved_record c i _ _⟩

end Ruled

variable {now : Instant} {first second : Nat × Request} {place : IdentityKind × String}

def after (now : Instant) (l : Limiter) (asked : Nat × Request) : Limiter :=
  (l.perform (.still now) (.judge asked.1 asked.2)).state

theorem after_of_not_counted (h : l.counted? first.2 = none) : after now l first = l :=
  (judge_of_not_counted h (.still now) first.1).1

theorem after_of_counted (h : l.counted? first.2 = some i) :
    after now l first = (l.attempt (.still now) i).state := by
  rw [after, perform, judge_of_counted h]
  rfl

theorem ruled_after (now : Instant) (l : Limiter) (asked : Nat × Request) :
    Ruled (after now l asked) l := by
  cases h : l.counted? asked.2 with
  | none =>
    rw [after_of_not_counted h]
    exact ⟨rfl, rfl, rfl⟩
  | some i =>
    rw [after_of_counted h]
    exact .attempt l _ i

theorem counted?_after (now : Instant) (l : Limiter) (asked : Nat × Request) (request : Request) :
    (after now l asked).counted? request = l.counted? request :=
  (ruled_after now l asked).counted?_eq request

theorem after_comm (l : Limiter) (first second : Nat × Request) :
    after now (after now l first) second = after now (after now l second) first := by
  have hfirst := counted?_after now l second first.2
  have hsecond := counted?_after now l first second.2
  cases hi : l.counted? first.2 with
  | none => rw [after_of_not_counted hi, after_of_not_counted (hfirst.trans hi)]
  | some i =>
    cases hj : l.counted? second.2 with
    | none => rw [after_of_not_counted hj, after_of_not_counted (hsecond.trans hj)]
    | some j =>
      rw [after_of_counted (hsecond.trans hj), after_of_counted (hfirst.trans hi),
        after_of_counted hi, after_of_counted hj]
      by_cases hp : i.place = j.place
      · rw [(l.attempt_at_place hp _).1, (attempt_at_place _ hp _).1]
      · exact l.attempt_comm hp _

/-! What clients are told whose requests are counted at one place. -/

def CountedAt (l : Limiter) (place : IdentityKind × String) (request : Request) : Prop :=
  ∃ i, l.counted? request = some i ∧ i.place = place

theorem countedAt_after (place : IdentityKind × String) (now : Instant) (l : Limiter)
    (asked : Nat × Request) (request : Request) :
    (after now l asked).CountedAt place request ↔ l.CountedAt place request := by
  rw [CountedAt, counted?_after, CountedAt]

def told (place : IdentityKind × String) (now : Instant) (l : Limiter) (asked : Nat × Request) :
    List (Nat × Option Nat) :=
  match l.counted? asked.2 with
  | some i => if i.place = place then
      ((l.attempt (.still now) i).result.map reply).toOption.toList else []
  | none => []

theorem told_of_elsewhere (h : ¬ l.CountedAt place first.2) : told place now l first = [] := by
  unfold told
  cases hi : l.counted? first.2 with
  | none => rfl
  | some i => exact if_neg fun hp => h ⟨i, hi, hp⟩

theorem told_after_elsewhere (h : ¬ l.CountedAt place first.2) :
    told place now (after now l first) second = told place now l second := by
  cases hi : l.counted? first.2 with
  | none => rw [after_of_not_counted hi]
  | some i =>
    have hne : i.place ≠ place := fun hp => h ⟨i, hi, hp⟩
    rw [told, counted?_after, told, after_of_counted hi]
    cases l.counted? second.2 with
    | none => rfl
    | some j =>
      by_cases hp : j.place = place
      · subst hp
        have ha := (Alike.attempt_elsewhere l (.still now) hne).attempt_here (.still now)
        simp only [if_true, ha.1.result]
      · simp only [hp, if_false]

theorem told_at_place (now : Instant) (hf : l.CountedAt place first.2)
    (hs : l.CountedAt place second.2) :
    told place now l first = told place now l second ∧ after now l first = after now l second := by
  obtain ⟨i, hi, rfl⟩ := hf
  obtain ⟨j, hj, hp⟩ := hs
  obtain ⟨hstate, hreply⟩ := l.attempt_at_place hp (.still now)
  rw [after_of_counted hi, after_of_counted hj]
  simp only [told, hi, hj, hp, if_true, hstate, hreply, and_self]

theorem told_comm (l : Limiter) (first second : Nat × Request) :
    told place now l first ++ told place now (after now l first) second =
      told place now l second ++ told place now (after now l second) first := by
  have hfirst := countedAt_after place now l second first.2
  have hsecond := countedAt_after place now l first second.2
  by_cases hf : l.CountedAt place first.2
  · by_cases hs : l.CountedAt place second.2
    · obtain ⟨htold, hafter⟩ := told_at_place now hf hs
      rw [hafter] at hsecond
      rw [htold, hafter, (told_at_place now (hsecond.2 hs) (hfirst.2 hf)).1]
    · rw [told_of_elsewhere hs, told_after_elsewhere hs, told_of_elsewhere (hsecond.not.2 hs),
        List.nil_append, List.append_nil]
  · rw [told_of_elsewhere hf, told_after_elsewhere hf, told_of_elsewhere (hfirst.not.2 hf),
      List.nil_append, List.append_nil]

def allTold (place : IdentityKind × String) (now : Instant) :
    Limiter → List (Nat × Request) → List (Nat × Option Nat)
  | _, [] => []
  | l, asked :: rest => told place now l asked ++ allTold place now (after now l asked) rest

theorem allTold_perm {order requests : List (Nat × Request)} (h : order.Perm requests)
    (l : Limiter) : allTold place now l order = allTold place now l requests := by
  induction h generalizing l with
  | nil => rfl
  | cons asked _ ih => rw [allTold, allTold, ih]
  | swap first second rest =>
    -- Two neighbours are told the same between them and leave the same behind.
    simp only [allTold]
    rw [← List.append_assoc, ← List.append_assoc, told_comm, after_comm]
  | trans _ _ ihs iht => exact (ihs l).trans (iht l)

/-! Headroom below the last instant. -/

/-- The clock and every entry lie `n` nanoseconds or more before the last instant. -/
structure Spare (now : Instant) (n : Nat) (l : Limiter) : Prop where
  clock : now.ns + n ≤ Instant.latest.ns
  entries : ∀ place, ∀ t ∈ l.ledger.queue place, t.ns + n ≤ Instant.latest.ns

theorem queue_attempt (l : Limiter) (i : Identity) (place : IdentityKind × String) :
    (l.attempt (.still now) i).state.ledger.queue place = l.ledger.queue place ∨
      (l.attempt (.still now) i).state.ledger.queue place =
        ((l.ledger.queue place).offer l.limit l.window now now).state := by
  by_cases hl : l.limit = 0
  · rw [(attempt_zero hl _ i).2]
    exact .inl rfl
  · obtain ⟨-, -, hq, -⟩ := l.attempt_spec (.still now) i hl
    rw [hq]
    split
    · rename_i hp
      rw [hp]
      exact .inr rfl
    · exact .inl rfl

namespace Spare

variable {n : Nat}

theorem attempt (h : Spare now (n + 1) l) (i : Identity) :
    (∃ r, (l.attempt (.still now) i).result = .ok r) ∧
      Spare now n (l.attempt (.still now) i).state := by
  have hclock := h.clock
  refine ⟨?_, by omega, fun place t ht => ?_⟩
  · have hp : ¬ (l.ledger.attempts i).RunsOut l.limit l.window now := by
      rintro ⟨-, hlast, -⟩
      have hm := (Queue.expire_suffix now l.window _).subset (List.mem_of_getLast? hlast)
      have ht := h.entries i.place _ hm
      omega
    cases hr : (l.attempt (.still now) i).result with
    | error fault => exact absurd ((l.attempt_fails_iff (.still now) i).fails_iff.1 ⟨fault, hr⟩) hp
    | ok r => exact ⟨r, rfl⟩
  · rcases l.queue_attempt i place with hq | hq
    · rw [hq] at ht
      have := h.entries place t ht
      omega
    · rw [hq] at ht
      rcases Queue.mem_offer ht with ht | rfl | ⟨u, hu, hns⟩
      · have := h.entries place t ht
        omega
      · omega
      · have := h.entries place u hu
        omega

theorem after (h : Spare now (n + 1) l) (asked : Nat × Request) :
    (∃ d, (l.judge (.still now) asked.1 asked.2).result = .ok d) ∧
      Spare now n (after now l asked) := by
  cases hi : l.counted? asked.2 with
  | none =>
    have hclock := h.clock
    rw [after_of_not_counted hi, (judge_of_not_counted hi _ _).2.2]
    refine ⟨⟨_, rfl⟩, by omega, fun place t ht => ?_⟩
    have := h.entries place t ht
    omega
  | some i =>
    obtain ⟨⟨r, hr⟩, hs⟩ := h.attempt i
    rw [after_of_counted hi, judge_of_counted hi, Outcome.result_map, hr]
    exact ⟨⟨_, rfl⟩, hs⟩

end Spare

/-! Whole runs. -/

def judging (now : Instant) (requests : List (Nat × Request)) : List (Call × Clock) :=
  requests.map fun asked => (.judge asked.1 asked.2, .still now)

theorem final_judging (l : Limiter) (requests : List (Nat × Request)) :
    Run.final perform l (judging now requests) = requests.foldl (after now) l := by
  induction requests generalizing l with
  | nil => rfl
  | cons asked rest ih => exact ih (after now l asked)

def decided? (step : Run.Step Call Answer) : Option Decision :=
  match step.result with
  | .ok (.decision d) => some d
  | _ => none

def repliedAt? (p : Policy) (place : IdentityKind × String) (step : Run.Step Call Answer) :
    Option (Nat × Option Nat) :=
  match decided? step with
  | some d =>
    if d.ruling.isCounted ∧ (step.call.identity? p).map Identity.place = some place then
      some (d.ruling.status, d.ruling.retryAfter)
    else none
  | none => none

def isRuledOut (step : Run.Step Call Answer) : Bool :=
  (decided? step).any fun d => !d.ruling.isCounted

theorem isCounted_uncounted (l : Limiter) (request : Request) :
    (l.uncounted request).isCounted = false := by
  unfold uncounted
  split
  · rfl
  · split <;> rfl

theorem isCounted_ruling (refusal? : Option Refusal) : (ruling refusal?).isCounted = true := by
  cases refusal? <;> rfl

def step (now : Instant) (l : Limiter) (asked : Nat × Request) : Run.Step Call Answer :=
  let o := l.perform (.still now) (.judge asked.1 asked.2)
  ⟨.judge asked.1 asked.2, o.readings (.still now), o.result⟩

theorem history_judging (l : Limiter) (asked : Nat × Request) (rest : List (Nat × Request)) :
    Run.history perform l (judging now (asked :: rest)) =
      step now l asked :: Run.history perform (after now l asked) (judging now rest) := rfl

theorem step_of_not_counted (h : l.counted? first.2 = none) :
    step now l first = ⟨.judge first.1 first.2, [],
      .ok (.decision (decision first.1 first.2 (l.uncounted first.2)))⟩ := by
  obtain ⟨-, hn, hr⟩ := judge_of_not_counted h (.still now) first.1
  simp only [step, perform, Outcome.readings, Outcome.samples_map, Outcome.result_map, hn, hr]
  rfl

theorem repliedAt?_step (place : IdentityKind × String) (now : Instant) (l : Limiter)
    (asked : Nat × Request) :
    (repliedAt? l.policy place (step now l asked)).toList = told place now l asked := by
  cases hi : l.counted? asked.2 with
  | none =>
    rw [step_of_not_counted hi]
    simp [repliedAt?, decided?, told, hi, decision, isCounted_uncounted]
  | some i =>
    have hc : (Call.judge asked.1 asked.2).identity? l.policy = some i := identity?_of_counted hi
    simp only [step, repliedAt?, perform, judge_of_counted hi, Outcome.result_map, hc, told, hi]
    cases (l.attempt (.still now) i).result with
    | error fault => simp [Except.map, decided?, Except.toOption]
    | ok r =>
      by_cases hp : i.place = place <;>
        simp [Except.map, decided?, decision, isCounted_ruling, hp, reply, Except.toOption]

theorem filterMap_repliedAt? (p : Policy) (hp : l.policy = p) (requests : List (Nat × Request)) :
    (Run.history perform l (judging now requests)).filterMap (repliedAt? p place) =
      allTold place now l requests := by
  induction requests generalizing l with
  | nil => rfl
  | cons asked rest ih =>
    have hnext := ih ((ruled_after now l asked).policy.trans hp)
    have hstep := repliedAt?_step place now l asked
    rw [hp] at hstep
    rw [history_judging, List.filterMap_cons, allTold, ← hnext, ← hstep]
    cases repliedAt? p place (step now l asked) <;> rfl

theorem isRuledOut_of_counted (now : Instant) (h : l.counted? first.2 = some i) :
    isRuledOut (step now l first) = false := by
  simp only [step, perform, judge_of_counted h, Outcome.result_map, isRuledOut]
  cases (l.attempt (.still now) i).result with
  | error fault => rfl
  | ok r => simp [Except.map, decided?, decision, isCounted_ruling]

theorem filter_isRuledOut (l : Limiter) (requests : List (Nat × Request)) :
    (Run.history perform l (judging now requests)).filter isRuledOut =
      (requests.filter fun asked => l.counted? asked.2 = none).map fun asked =>
        ⟨.judge asked.1 asked.2, [],
          .ok (.decision (decision asked.1 asked.2 (l.uncounted asked.2)))⟩ := by
  induction requests generalizing l with
  | nil => rfl
  | cons asked rest ih =>
    have hnext := ih (after now l asked)
    simp only [counted?_after, (ruled_after now l asked).uncounted_eq] at hnext
    rw [history_judging]
    cases hi : l.counted? asked.2 with
    | none =>
      have hout : isRuledOut (step now l asked) = true := by
        rw [step_of_not_counted hi]
        simp [isRuledOut, decided?, decision, isCounted_uncounted]
      rw [List.filter_cons_of_pos hout, List.filter_cons_of_pos (by simpa using hi),
        List.map_cons, hnext, step_of_not_counted hi]
    | some i =>
      have hout := isRuledOut_of_counted now hi
      rw [List.filter_cons_of_neg (by simp [hout]), List.filter_cons_of_neg (by simp [hi]), hnext]

theorem decided_of_spare {requests : List (Nat × Request)} (h : Spare now requests.length l) :
    ∀ step ∈ Run.history perform l (judging now requests), ∃ d, decided? step = some d := by
  induction requests generalizing l with
  | nil => simp [judging, Run.history]
  | cons asked rest ih =>
    -- A decision moves a queue by a nanosecond at most, so each takes one of the headroom.
    obtain ⟨⟨d, hd⟩, hs⟩ := h.after asked
    rw [history_judging, List.forall_mem_cons]
    refine ⟨⟨d, ?_⟩, ih hs⟩
    simp only [step, perform, Outcome.result_map, hd]
    rfl

/-- While the clock stands still and keeps its distance from the last instant, requests may
be decided in any order: no decision fails, the limiter is left the same, what is ruled on
before the attempt limiter is ruled on alike, and at each place the attempt limiter gives
the same replies. -/
theorem judging_perm {l : Limiter} {now : Instant} {requests order : List (Nat × Request)}
    (h : order.Perm requests) (spare : Spare now requests.length l) :
    let asked := Run.history perform l (judging now requests)
    let reordered := Run.history perform l (judging now order)
    (∀ step ∈ reordered, ∃ d, decided? step = some d) ∧
      Run.final perform l (judging now order) = Run.final perform l (judging now requests) ∧
      (reordered.filter isRuledOut).Perm (asked.filter isRuledOut) ∧
      ∀ place, reordered.filterMap (repliedAt? l.policy place) =
        asked.filterMap (repliedAt? l.policy place) := by
  intro asked reordered
  refine ⟨?_, ?_, ?_, fun place => ?_⟩
  · rw [← h.length_eq] at spare
    exact decided_of_spare spare
  · have hcomm : RightCommutative (after now) := ⟨after_comm⟩
    rw [final_judging, final_judging]
    exact h.foldl_eq l
  · simp only [asked, reordered, filter_isRuledOut]
    exact (h.filter _).map _
  · simp only [asked, reordered, filterMap_repliedAt? l.policy rfl]
    exact allTold_perm h l

/-- Three visits at a place that allows two, with a hostile client among them. -/
theorem judging_perm_of_visits :
    let p : Policy := { requestLimit := 2, windowSeconds := 60, byIp := true, keepsHostile := true }
    let l : Limiter := ⟨p, by decide, .empty⟩
    let m := (l.markHostile "10.0.0.9").state
    let visit := fun line client => ((line, ⟨client, "GET", "/", ""⟩) : Nat × Request)
    let requests := [visit 1 "10.0.0.1", visit 2 "10.0.0.9", visit 3 "10.0.0.1",
      visit 4 "10.0.0.2", visit 5 "10.0.0.1"]
    Spare (.ofNs 0) 5 m ∧
      (Run.history perform m (judging (.ofNs 0) requests.reverse)).filterMap
          (repliedAt? p (.endpoint, "10.0.0.1\x1fGET|/")) =
        [(200, none), (200, none), (429, some 60)] := by
  intro p l m visit requests
  have hempty : ∀ place, m.ledger.queue place = [] := by
    intro place
    rw [← Ledger.queue_empty place]
    obtain ⟨kind, key⟩ := place
    cases kind <;> rfl
  have hspare : Spare (.ofNs 0) requests.length m := ⟨by decide +kernel, by simp [hempty]⟩
  have hreplies := (judging_perm (List.reverse_perm requests) hspare).2.2.2
    (.endpoint, "10.0.0.1\x1fGET|/")
  refine ⟨hspare, hreplies.trans ?_⟩
  decide +kernel

end Limiter
end Throttle
