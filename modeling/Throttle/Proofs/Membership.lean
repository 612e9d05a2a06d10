import Mathlib.Data.Set.Card
import Throttle.Proofs.Approval

/-!
# Members of the registries

Whether a text is in a registry after a run is decided by the last call that writes it there.
Through the limiter a hostile address is written only under a policy that keeps such addresses,
and past the limiter always. Calls that are about attempts write nowhere.
-/

namespace Throttle
namespace Registry

theorem nodup_toList (r : Registry) : r.toList.Nodup :=
  Std.ExtTreeSet.distinct_toList.imp fun hdistinct heq =>
    hdistinct (Std.LawfulEqCmp.compare_eq_iff_eq.2 heq)

theorem size_eq_encard (r : Registry) : (r.size : ℕ∞) = {value | value ∈ r}.encard := by
  have hmembers : {value | value ∈ r} = ↑r.toList.toFinset := by
    ext value
    rw [Set.mem_ofPred_eq, Finset.mem_coe, List.mem_toFinset, Std.ExtTreeSet.mem_toList]
  rw [hmembers, Set.encard_coe_eq_coe_finsetCard,
    List.toFinset_card_of_nodup r.nodup_toList, Std.ExtTreeSet.length_toList]

end Registry

namespace Limiter

variable {p : Policy} {l first : Limiter} {events : List Event} {call : Call} {c : Clock}
  {run : List (Call × Clock)} {value : String}

def Call.marking? (p : Policy) : Call → Option (String × Bool)
  | markHostile ip => if p.keepsHostile then some (ip, true) else none
  | unmarkHostile ip => if p.keepsHostile then some (ip, false) else none
  | addHostile ip => some (ip, true)
  | removeHostile ip => some (ip, false)
  | attempt _ | advise _ | judge _ _ | purge | clear | approve _ | disapprove _ | approveBasic _
  | disapproveBasic _ | addApproved _ | removeApproved _ => none

/-- Some call of the run writes the value, and the last one that does adds it. -/
def LastAdds (write? : Call → Option (String × Bool)) (value : String)
    (run : List (Call × Clock)) : Prop :=
  ∃ before call c since, run = before ++ (call, c) :: since ∧ write? call = some (value, true) ∧
    ∀ step ∈ since, ∀ present, write? step.1 ≠ some (value, present)

/-! Runs that write to one registry. -/

section

variable {write? : Call → Option (String × Bool)}

theorem not_lastAdds_nil : ¬ LastAdds write? value [] := by
  rintro ⟨before, call, c, since, hrun, -⟩
  simp at hrun

theorem lastAdds_concat_of_write {present : Bool} (h : write? call = some (value, present)) :
    LastAdds write? value (run ++ [(call, c)]) ↔ present = true := by
  constructor
  · rintro ⟨before, last, d, since, hrun, hadds, hsince⟩
    obtain rfl | ⟨since, step, rfl⟩ := since.eq_nil_or_concat
    · obtain ⟨-, hstep⟩ := List.append_inj' hrun rfl
      cases hstep
      rw [h] at hadds
      exact congrArg Prod.snd (Option.some.inj hadds)
    · -- The call itself would stand after the last one that writes the value.
      rw [List.concat_eq_append, ← List.cons_append, ← List.append_assoc] at hrun
      obtain ⟨-, hstep⟩ := List.append_inj' hrun rfl
      cases hstep
      exact absurd h (hsince (call, c) (by simp) present)
  · rintro rfl
    exact ⟨run, call, c, [], rfl, h, by simp⟩

theorem lastAdds_concat_of_other (h : ∀ present, write? call ≠ some (value, present)) :
    LastAdds write? value (run ++ [(call, c)]) ↔ LastAdds write? value run := by
  constructor
  · rintro ⟨before, last, d, since, hrun, hadds, hsince⟩
    obtain rfl | ⟨since, step, rfl⟩ := since.eq_nil_or_concat
    · obtain ⟨-, hstep⟩ := List.append_inj' hrun rfl
      cases hstep
      exact absurd hadds (h true)
    · rw [List.concat_eq_append, ← List.cons_append, ← List.append_assoc] at hrun
      obtain ⟨rfl, -⟩ := List.append_inj' hrun rfl
      refine ⟨before, last, d, since, rfl, hadds, fun step hstep => hsince step ?_⟩
      rw [List.concat_eq_append]
      exact List.mem_append_left _ hstep
  · rintro ⟨before, last, d, since, rfl, hadds, hsince⟩
    refine ⟨before, last, d, since ++ [(call, c)], by simp, hadds, fun step hstep => ?_⟩
    rcases List.mem_append.1 hstep with hstep | hstep
    · exact hsince step hstep
    · rw [List.mem_singleton.1 hstep]
      exact h

theorem mem_final_iff (members : Limiter → Registry) (bare : members first = .empty)
    (step : ∀ m c call, m.policy = first.policy →
      members (m.perform c call).state =
        (write? call).elim (members m) fun (value, present) => (members m).write value present)
    (run : List (Call × Clock)) (value : String) :
    value ∈ members (Run.final perform first run) ↔ LastAdds write? value run := by
  induction run using List.reverseRecOn with
  | nil =>
    rw [Run.final, bare]
    exact iff_of_false Std.ExtTreeSet.not_mem_empty not_lastAdds_nil
  | append_singleton run last ih =>
    obtain ⟨call, c⟩ := last
    rw [Run.final_append, Run.final, Run.final, step _ c call (policy_final first run)]
    cases hw : write? call with
    | none =>
      rw [lastAdds_concat_of_other (by simp [hw]), ← ih]
      rfl
    | some write =>
      obtain ⟨written, present⟩ := write
      rw [Option.elim_some, Registry.mem_write]
      split_ifs with hvalue
      · subst hvalue
        exact (lastAdds_concat_of_write hw).symm
      · rw [lastAdds_concat_of_other (by simp [hw, hvalue]), ← ih]

end

/-! Hostile addresses. -/

theorem hostile_perform (l : Limiter) (c : Clock) (call : Call) :
    (l.perform c call).state.ledger.hostile =
      (call.marking? l.policy).elim l.ledger.hostile fun (ip, present) =>
        l.ledger.hostile.write ip present := by
  cases call with
  | attempt identity => exact (Ruled.perform c rfl).hostile
  | advise identity => exact (Ruled.perform c rfl).hostile
  | judge line request => exact (Ruled.perform c rfl).hostile
  | markHostile ip =>
    simp only [perform, markHostile, Call.marking?, Outcome.state_map]
    split <;> rfl
  | unmarkHostile ip =>
    simp only [perform, unmarkHostile, Call.marking?, Outcome.state_map]
    split <;> rfl
  | _ => rfl

structure Marked (l : Limiter) (ip : String) (o : Outcome Limiter Bool) : Prop where
  off : l.policy.keepsHostile = false → o.result = .ok false ∧ o.state = l
  on : l.policy.keepsHostile = true → ∃ changed, o.result = .ok changed ∧
    (changed = true ↔ ¬ (ip ∈ o.state.ledger.hostile ↔ ip ∈ l.ledger.hostile))

theorem marked_markHostile (l : Limiter) (ip : String) : l.Marked ip (l.markHostile ip) := by
  constructor
  · intro off
    rw [markHostile, if_neg (by simp [off])]
    exact ⟨rfl, rfl⟩
  · intro on
    rw [markHostile, if_pos on]
    refine ⟨_, rfl, ?_⟩
    have hafter : ip ∈ (l.ledger.hostile.add ip).2 := Registry.mem_add.2 (.inl rfl)
    change (!l.ledger.hostile.contains ip) = true ↔ ¬ (ip ∈ (l.ledger.hostile.add ip).2 ↔ _)
    rw [iff_true_left hafter, Bool.not_eq_true', ← Bool.not_eq_true,
      Std.ExtTreeSet.contains_iff_mem]

theorem marked_unmarkHostile (l : Limiter) (ip : String) : l.Marked ip (l.unmarkHostile ip) := by
  constructor
  · intro off
    rw [unmarkHostile, if_neg (by simp [off])]
    exact ⟨rfl, rfl⟩
  · intro on
    rw [unmarkHostile, if_pos on]
    refine ⟨_, rfl, ?_⟩
    have hafter : ip ∉ (l.ledger.hostile.remove ip).2 := fun h => (Registry.mem_remove.1 h).1 rfl
    change l.ledger.hostile.contains ip = true ↔ ¬ (ip ∈ (l.ledger.hostile.remove ip).2 ↔ _)
    rw [iff_false_left hafter, not_not, Std.ExtTreeSet.contains_iff_mem]

/-- After any run the last call that writes a text to a registry says whether it is a member, and
the size of a registry is the number of its members. Marking an address takes effect only where
hostile addresses are kept, tells whether it changed anything, and only there is an address taken
for hostile. Calls about attempts leave both registries alone. -/
theorem member_iff_lastAdds (created : create p = .ok (first, events))
    (run : List (Call × Clock)) :
    let l := Run.final perform first run
    l.policy = p ∧
      (∀ token, token ∈ l.ledger.approved ↔ LastAdds Call.approval? token run) ∧
      (∀ ip, ip ∈ l.ledger.hostile ↔ LastAdds (Call.marking? p) ip run) ∧
      (∀ ip, l.isHostile ip = true ↔ p.keepsHostile = true ∧ ip ∈ l.ledger.hostile) ∧
      (∀ ip, l.Marked ip (l.markHostile ip) ∧ l.Marked ip (l.unmarkHostile ip)) ∧
      (l.ledger.approved.size : ℕ∞) = {token | token ∈ l.ledger.approved}.encard ∧
      (l.ledger.hostile.size : ℕ∞) = {ip | ip ∈ l.ledger.hostile}.encard ∧
      ∀ c (call : Call), call.isAboutAttempts = true → Ruled (l.perform c call).state l := by
  intro l
  obtain ⟨hp, hempty⟩ := create_spec created
  have hpolicy : l.policy = p := (policy_final first run).trans hp
  have happroved : ∀ token, token ∈ l.ledger.approved ↔ LastAdds Call.approval? token run :=
    mem_final_iff (fun m => m.ledger.approved) (congrArg Ledger.approved hempty)
      (fun m c call _ => m.approved_perform c call) run
  have hhostile : ∀ ip, ip ∈ l.ledger.hostile ↔ LastAdds (Call.marking? p) ip run := by
    refine mem_final_iff (fun m => m.ledger.hostile) (congrArg Ledger.hostile hempty)
      (fun m c call hm => ?_) run
    rw [← hp, ← hm]
    exact m.hostile_perform c call
  refine ⟨hpolicy, happroved, hhostile, fun ip => ?_, fun ip => ?_, Registry.size_eq_encard _,
    Registry.size_eq_encard _, fun c call h => .perform c h⟩
  · rw [isHostile_iff, hpolicy]
  · exact ⟨l.marked_markHostile ip, l.marked_unmarkHostile ip⟩

/-- A hostile address that was added past a limiter that keeps none, and credentials that were
approved before the attempts were cleared. -/
theorem member_iff_lastAdds_of_gated :
    let ip := "6.6.6.6"
    let bob : Credentials := ⟨"Bob", "1234"⟩
    let c := Clock.still (.ofNs 0)
    ∃ first events, create {} = .ok (first, events) ∧
      let l := Run.final perform first [(.addHostile ip, c), (.approveBasic bob, c), (.clear, c),
        (.unmarkHostile ip, c), (.addApproved "tok", c), (.disapprove "tok", c)]
      ip ∈ l.ledger.hostile ∧ l.isHostile ip = false ∧ (l.unmarkHostile ip).state = l ∧
        bob.basic ∈ l.ledger.approved ∧ "tok" ∉ l.ledger.approved := by
  intro ip bob c
  have created := create_of_valid (p := {}) (by decide)
  refine ⟨_, _, created, ?_⟩
  intro l
  let early : List (Call × Clock) := [(.addHostile ip, c), (.approveBasic bob, c), (.clear, c),
    (.unmarkHostile ip, c), (.addApproved "tok", c)]
  obtain ⟨hpolicy, happroved, hhostile, hgate, hmarked, -⟩ :=
    member_iff_lastAdds created (early ++ [(.disapprove "tok", c)])
  have hbasic : "tok" ≠ bob.basic := by decide +kernel
  refine ⟨(hhostile ip).2 ?_, ?_, ((hmarked ip).2.off (by rw [hpolicy])).2, (happroved _).2 ?_,
    fun htok => ?_⟩
  · exact ⟨[], .addHostile ip, c, _, rfl, rfl, by simp [Call.marking?]⟩
  · refine Bool.eq_false_iff.2 fun h => ?_
    cases ((hgate ip).1 h).1
  · exact ⟨[_], .approveBasic bob, c, _, rfl, rfl, by simp [Call.approval?, hbasic]⟩
  · have hadds : false = true := (lastAdds_concat_of_write rfl).1 ((happroved "tok").1 htok)
    cases hadds

end Limiter
end Throttle
