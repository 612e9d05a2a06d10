import Throttle.Proofs.Charging

/-!
# Approved tokens

A token is approved after a run exactly if the last call that speaks of it approves of it, and
nothing but those calls touches the registry. Where only approved tokens are let in, a token is
valid if it is approved. The gate accepts it then as well, unless it is empty: an empty token
passes for a missing one, whether approved or not.
-/

namespace Throttle
namespace Registry

def write (r : Registry) (value : String) (present : Bool) : Registry :=
  if present then (r.add value).2 else (r.remove value).2

theorem mem_write {r : Registry} {value other : String} {present : Bool} :
    other ∈ r.write value present ↔ if value = other then present = true else other ∈ r := by
  cases present with
  | true =>
    rw [write, if_pos rfl, mem_add]
    split <;> simp_all
  | false =>
    rw [write, if_neg Bool.false_ne_true, mem_remove]
    split <;> simp_all

end Registry

namespace Limiter

def Call.approval? : Call → Option (String × Bool)
  | approve token | addApproved token => some (token, true)
  | disapprove token | removeApproved token => some (token, false)
  | approveBasic credentials => some (credentials.basic, true)
  | disapproveBasic credentials => some (credentials.basic, false)
  | attempt _ | advise _ | judge _ _ | purge | clear | markHostile _ | unmarkHostile _
  | addHostile _ | removeHostile _ => none

def Call.isAboutAttempts : Call → Bool
  | attempt _ | advise _ | judge _ _ | purge | clear => true
  | approve _ | disapprove _ | approveBasic _ | disapproveBasic _ | markHostile _ | unmarkHostile _
  | addHostile _ | removeHostile _ | addApproved _ | removeApproved _ => false

def Call.approves? (token : String) (call : Call) : Option Bool :=
  call.approval?.bind fun (spoken, present) => if spoken = token then some present else none

/-- What the last call of a run that speaks of a token makes of it. -/
def lastApproval? (token : String) : List (Call × Clock) → Option Bool
  | [] => none
  | (call, _) :: rest => (lastApproval? token rest).or (call.approves? token)

variable {l first : Limiter} {p : Policy} {events : List Event} {token : String}

/-! The registry. -/

theorem Ruled.perform (c : Clock) {call : Call} (h : call.isAboutAttempts = true) :
    Ruled (l.perform c call).state l := by
  have same : Ruled l l := ⟨rfl, rfl, rfl⟩
  cases call with
  | attempt identity => exact .attempt l c identity
  | advise identity =>
    rw [Limiter.perform, Outcome.state_map, state_retryAfter]
    exact same
  | judge line request =>
    rw [Limiter.perform, Outcome.state_map]
    rcases l.judge_spec c line request with ⟨hs, -⟩ | ⟨identity, -, hs, -⟩
    · rw [hs]
      exact same
    · rw [hs]
      exact .attempt l c identity
  | purge => exact ⟨rfl, rfl, rfl⟩
  | clear => exact ⟨rfl, rfl, rfl⟩
  | _ => cases h

theorem approved_perform (l : Limiter) (c : Clock) (call : Call) :
    (l.perform c call).state.ledger.approved =
      call.approval?.elim l.ledger.approved fun (token, present) =>
        l.ledger.approved.write token present := by
  cases call with
  | attempt identity => exact (Ruled.perform c rfl).approved
  | advise identity => exact (Ruled.perform c rfl).approved
  | judge line request => exact (Ruled.perform c rfl).approved
  | markHostile ip =>
    simp only [perform, markHostile, Outcome.state_map]
    split <;> rfl
  | unmarkHostile ip =>
    simp only [perform, unmarkHostile, Outcome.state_map]
    split <;> rfl
  | _ => rfl

theorem mem_approved_perform (l : Limiter) (c : Clock) (call : Call) :
    token ∈ (l.perform c call).state.ledger.approved ↔
      (call.approves? token).elim (token ∈ l.ledger.approved) (· = true) := by
  rw [approved_perform, Call.approves?]
  cases call.approval? with
  | none => rfl
  | some write =>
    simp only [Option.elim_some, Option.bind_some, Registry.mem_write]
    split <;> rfl

theorem mem_approved_final (l : Limiter) (run : List (Call × Clock)) :
    token ∈ (Run.final perform l run).ledger.approved ↔
      (lastApproval? token run).elim (token ∈ l.ledger.approved) (· = true) := by
  induction run generalizing l with
  | nil => rfl
  | cons step rest ih =>
    obtain ⟨call, c⟩ := step
    rw [Run.final, ih, mem_approved_perform, lastApproval?]
    cases lastApproval? token rest with
    | none => rw [Option.none_or, Option.elim_none]
    | some present => rfl

theorem mem_approved_of_created (created : create p = .ok (first, events))
    (run : List (Call × Clock)) :
    token ∈ (Run.final perform first run).ledger.approved ↔ lastApproval? token run = some true := by
  rw [mem_approved_final, (create_spec created).2]
  cases lastApproval? token run with
  | none => exact iff_of_false Std.ExtTreeSet.not_mem_empty (by simp)
  | some present => exact (Option.some_inj).symm

/-! The two checks. -/

theorem policy_final (l : Limiter) (run : List (Call × Clock)) :
    (Run.final perform l run).policy = l.policy :=
  Run.final_keeps (P := fun m : Limiter => m.policy = l.policy)
    (fun m c call h => (m.policy_perform c call).trans h) rfl run

theorem isValidToken_iff (only : l.policy.approvedOnly = true) :
    l.isValidToken token = true ↔ token ∈ l.ledger.approved := by
  rw [isValidToken, if_pos only, Std.ExtTreeSet.contains_iff_mem]

/-- Where only approved tokens are let in, a token is valid if the last call that speaks of it
approves of it, and the gate accepts it if it is not empty as well. So the two differ exactly on
the empty token, and only while that is approved. -/
theorem checks_agree_iff (created : create p = .ok (first, events)) (only : p.approvedOnly = true)
    (run : List (Call × Clock)) (token : String) :
    let l := Run.final perform first run
    (l.isValidToken token = true ↔ lastApproval? token run = some true) ∧
      (l.gate token = .accepted ↔ token ≠ "" ∧ lastApproval? token run = some true) ∧
      ((l.isValidToken token = true ↔ l.gate token = .accepted) ↔
        ¬ (token = "" ∧ lastApproval? "" run = some true)) := by
  intro l
  rw [← (create_spec created).1, ← policy_final first run] at only
  have hmem : token ∈ l.ledger.approved ↔ lastApproval? token run = some true :=
    mem_approved_of_created created run
  have hvalid := (isValidToken_iff only).trans hmem
  have hgate : l.gate token = .accepted ↔ token ≠ "" ∧ lastApproval? token run = some true := by
    rw [gate_eq_accepted_iff, ← hmem]
    exact ⟨fun h => h only, fun h _ => h⟩
  refine ⟨hvalid, hgate, ?_⟩
  rw [hvalid, hgate]
  by_cases hempty : token = ""
  · simp [hempty]
  · simp [hempty]

/-- A token that was approved and forgotten, and one approved after that. -/
theorem checks_agree_of_forgotten :
    ∃ first events, create { approvedOnly := true } = .ok (first, events) ∧
      let c := Clock.still (.ofNs 0)
      let l := Run.final perform first [(.approve "a", c), (.disapprove "a", c), (.approve "b", c)]
      l.isValidToken "a" = false ∧ l.gate "a" ≠ .accepted ∧
        l.isValidToken "b" = true ∧ l.gate "b" = .accepted := by
  let p : Policy := { approvedOnly := true }
  have created := create_of_valid (p := p) (by decide)
  refine ⟨_, _, created, ?_⟩
  intro c l
  obtain ⟨hvalidA, hgateA, -⟩ := checks_agree_iff created rfl
    [(.approve "a", c), (.disapprove "a", c), (.approve "b", c)] "a"
  obtain ⟨hvalidB, hgateB, -⟩ := checks_agree_iff created rfl
    [(.approve "a", c), (.disapprove "a", c), (.approve "b", c)] "b"
  refine ⟨?_, fun h => ?_, hvalidB.2 (by decide), hgateB.2 (by decide)⟩
  · rw [← Bool.not_eq_true, hvalidA]
    decide
  · exact absurd (hgateA.1 h).2 (by decide)

/-- Once the empty token is approved it is valid, while the gate takes it for a missing one. -/
theorem checks_differ_on_empty :
    ∃ first events, create { approvedOnly := true } = .ok (first, events) ∧
      let l := Run.final perform first [(.approve "", .still (.ofNs 0))]
      l.isValidToken "" = true ∧ l.gate "" = .missing := by
  refine ⟨_, _, create_of_valid (by decide), ?_⟩
  exact ⟨(isValidToken_iff rfl).2 (Registry.mem_add.2 (.inl rfl)), gate_eq_missing_iff.2 ⟨rfl, rfl⟩⟩

end Limiter
end Throttle
